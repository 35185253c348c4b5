import TensorGrid.Lib.Bytes

/-!
# The message header of the TCP transport

The two `write_header`s and `read_header` of `transports/tcp`. The headers are meant to have 24
bytes: the message type, 16 bytes of tensor id, seven bytes of payload length.

The writers have one body, `encodeHeader`. It copies seven length bytes into a range of eight that
ends outside the buffer, so it panics on every header (`encodeHeader_panics`) and nothing is ever
written. The reader does read the layout (`readHeader_reads`), but it takes the seven bytes for the
upper ones of the length, so it returns multiples of 256 only (`readHeader_payloadLength`).
-/

namespace TensorGrid.Tcp

open Rust

/-! ## Messages -/

inductive MessageType
  | tensorTransfer
  | ping
  | ack
deriving DecidableEq, Repr

/-- `std::io::ErrorKind`. -/
inductive ErrorKind
  | unexpectedEof
  | other
deriving DecidableEq, Repr

inductive TcpError
  | bindFailed (text : String)
  | connectFailed (text : String)
  | connectionClosed
  | transferFailed (text : String)
  | invalidMessage (value : UInt8)
  | io (kind : ErrorKind)
  | internal (text : String)
deriving DecidableEq, Repr

structure MessageHeader where
  messageType : MessageType
  tensorId : String
  payloadLength : UInt64
deriving DecidableEq, Repr

def MessageType.fromU8 (value : UInt8) : Outcome TcpError MessageType :=
  if value = 0 then .ok .tensorTransfer
  else if value = 1 then .ok .ping
  else if value = 2 then .ok .ack
  else .err (.invalidMessage value)

def MessageType.asU8 : MessageType → UInt8
  | .tensorTransfer => 0
  | .ping => 1
  | .ack => 2

theorem MessageType.fromU8_asU8 (t : MessageType) : fromU8 t.asU8 = .ok t := by
  cases t <;> rfl

/-! ## The writers -/

/-- The bytes both writers pass to `write_all`. -/
def encodeHeader (header : MessageHeader) : Outcome TcpError (List UInt8) := do
  let headerBuf := (List.replicate 24 0).set 0 header.messageType.asU8
  let tensorIdBytes := asBytes header.tensorId
  let idLength := min tensorIdBytes.length 16
  let id ← slice tensorIdBytes 0 idLength
  let headerBuf ← copyFromSlice headerBuf 1 (1 + idLength) id
  let lengthBytes := toBE 8 header.payloadLength.toNat
  let length ← slice lengthBytes 0 7
  copyFromSlice headerBuf 17 25 length

def TcpTransport.writeHeader (header : MessageHeader) : Outcome TcpError (List UInt8) :=
  encodeHeader header

def TcpClient.writeHeader (header : MessageHeader) : Outcome TcpError (List UInt8) :=
  encodeHeader header

/-- Bytes 1 to 16 of a header: what there is room for of the id, zero padded. -/
def idField (tensorId : String) : List UInt8 :=
  let id := (asBytes tensorId).take 16
  id ++ List.replicate (16 - id.length) 0

/-- The seven bytes that are meant for 17 to 23. -/
def lengthField (payloadLength : UInt64) : List UInt8 := (toBE 8 payloadLength.toNat).take 7

theorem length_idField (tensorId : String) : (idField tensorId).length = 16 := by
  simp only [idField, List.length_append, List.length_replicate, List.length_take]
  omega

/-- The id goes into the buffer, which holds the type and zeros. -/
theorem copyFromSlice_id (t : UInt8) (tensorId : String) :
    copyFromSlice (t :: List.replicate 23 0) 1 (1 + min (asBytes tensorId).length 16)
        ((asBytes tensorId).take 16) =
      (.ok (t :: (idField tensorId ++ List.replicate 7 0)) : Outcome TcpError (List UInt8)) := by
  have hlen : ((asBytes tensorId).take 16).length = min (asBytes tensorId).length 16 := by
    rw [List.length_take, Nat.min_comm]
  have hpad :
      23 - min (asBytes tensorId).length 16 = 16 - min (asBytes tensorId).length 16 + 7 := by
    omega
  rw [copyFromSlice_eq_ok (by omega) (by rw [List.length_cons, List.length_replicate]; omega)
    (by omega), idField, hlen, Nat.add_comm 1, List.drop_succ_cons, List.drop_replicate, hpad,
    ← List.replicate_append_replicate, List.append_assoc, List.append_assoc]
  rfl

/-- Both fields are made; the length bytes are to be copied into a range of eight. -/
theorem encodeHeader_fields (header : MessageHeader) : encodeHeader header =
    copyFromSlice (header.messageType.asU8 :: (idField header.tensorId ++ List.replicate 7 0)) 17 25
      (lengthField header.payloadLength) := by
  have hbuf : (List.replicate 24 (0 : UInt8)).set 0 header.messageType.asU8 =
      header.messageType.asU8 :: List.replicate 23 0 := rfl
  have htake : (asBytes header.tensorId).take (min (asBytes header.tensorId).length 16) =
      (asBytes header.tensorId).take 16 := by
    rw [List.take_eq_take_iff]
    omega
  have hlength : slice (toBE 8 header.payloadLength.toNat) 0 7 =
      (.ok (lengthField header.payloadLength) : Outcome TcpError (List UInt8)) :=
    slice_eq_ok (by omega) (by rw [length_toBE]; omega)
  rw [encodeHeader, slice_eq_ok (Nat.zero_le _) (Nat.min_le_left _ _), Outcome.ok_bind, hbuf, htake,
    List.drop_zero, copyFromSlice_id, Outcome.ok_bind]
  dsimp only
  rw [hlength, Outcome.ok_bind]

/-- **No header is written**: `header_buf[17..25]` ends past the 24 bytes. -/
theorem encodeHeader_panics (header : MessageHeader) : encodeHeader header = .panic := by
  rw [encodeHeader_fields]
  refine copyFromSlice_panics 17 _ ?_
  rw [List.length_cons, List.length_append, length_idField, List.length_replicate]
  omega

/-! ## The reader -/

def TcpTransport.readHeader : Reader TcpError MessageHeader := do
  let headerBuf ← Reader.exact (.io .unexpectedEof) 24
  let messageType ← Reader.lift (index headerBuf 0 >>= MessageType.fromU8)
  let tensorIdBytes ← Reader.lift (slice headerBuf 1 17)
  let tensorId := trimEndMatches (fromUtf8Lossy tensorIdBytes) '\x00'
  let lengthBytes ← Reader.lift (slice headerBuf 17 24)
  pure { messageType, tensorId, payloadLength := UInt64.ofNat (ofBE (lengthBytes ++ [0])) }

/-- The id as it is read. -/
def decodeId (tensorIdBytes : List UInt8) : String :=
  trimEndMatches (fromUtf8Lossy tensorIdBytes) '\x00'

/-- The length as it is read. -/
def decodeLength (lengthBytes : List UInt8) : UInt64 := UInt64.ofNat (ofBE (lengthBytes ++ [0]))

/-- What the reader makes of the fields of the layout. -/
theorem readHeader_fields (t : MessageType) {field length : List UInt8} (hfield : field.length = 16)
    (hlength : length.length = 7) :
    Reader.Reads TcpTransport.readHeader (t.asU8 :: (field ++ length))
      ⟨t, decodeId field, decodeLength length⟩ := by
  have hbuf : (t.asU8 :: (field ++ length)).length = 24 := by
    rw [List.length_cons, List.length_append, hfield, hlength]
  have htype : (index (t.asU8 :: (field ++ length)) 0 >>= MessageType.fromU8) = .ok t :=
    MessageType.fromU8_asU8 t
  have hslice : slice (t.asU8 :: (field ++ length)) 1 17 =
      (.ok field : Outcome TcpError (List UInt8)) := by
    rw [slice_eq_ok (by omega) (by omega)]
    show Outcome.ok ((field ++ length).take 16) = _
    rw [← hfield, List.take_left]
  have hrest : slice (t.asU8 :: (field ++ length)) 17 24 =
      (.ok length : Outcome TcpError (List UInt8)) := by
    rw [slice_eq_ok (by omega) (by omega), List.take_of_length_le (by omega)]
    show Outcome.ok ((field ++ length).drop 16) = _
    rw [← hfield, List.drop_left]
  have hexact := Reader.reads_exact (TcpError.io .unexpectedEof) (t.asU8 :: (field ++ length))
  rw [hbuf] at hexact
  refine hexact.last ((Reader.reads_lift htype).skip ((Reader.reads_lift hslice).skip ?_))
  exact (Reader.reads_lift hrest).skip (Reader.reads_pure _)

/-- What the reader makes of the layout: the type and the id, and seven upper bytes of a length. -/
theorem readHeader_reads (t : MessageType) {id : String} {length : List UInt8}
    (hid : (asBytes id).length ≤ 16) (hnul : id.toList.getLast? ≠ some '\x00')
    (hlength : length.length = 7) :
    Reader.Reads TcpTransport.readHeader
      (t.asU8 :: (asBytes id ++ List.replicate (16 - (asBytes id).length) 0 ++ length))
      ⟨t, id, UInt64.ofNat (ofBE (length ++ [0]))⟩ := by
  have hfield : (asBytes id ++ List.replicate (16 - (asBytes id).length) 0).length = 16 := by
    rw [List.length_append, List.length_replicate]
    omega
  have hreads := readHeader_fields t hfield hlength
  rwa [decodeId, ← asBytes_nuls, ← asBytes_append, fromUtf8Lossy_asBytes,
    trimEndMatches_padded hnul, asBytes_append, asBytes_nuls] at hreads

/-- The last length byte is always 0: only multiples of 256 are ever read. -/
theorem readHeader_payloadLength {bs rest : List UInt8} {header : MessageHeader}
    (h : TcpTransport.readHeader bs = .ok (header, rest)) :
    header.payloadLength.toNat % 256 = 0 := by
  obtain ⟨headerBuf, _, -, h⟩ := Reader.bind_ok h
  obtain ⟨messageType, _, -, h⟩ := Reader.bind_ok h
  obtain ⟨tensorIdBytes, _, -, h⟩ := Reader.bind_ok h
  obtain ⟨lengthBytes, _, -, h⟩ := Reader.bind_ok h
  cases h
  show (UInt64.ofNat (ofBE (lengthBytes ++ [0]))).toNat % 256 = 0
  rw [UInt64.toNat_ofNat', ofBE_concat]
  show (256 * ofBE lengthBytes + 0) % 2 ^ 64 % 256 = 0
  omega

/-! ## Round trips -/

/-- The headers whose fields have room in the layout. -/
def MessageHeader.Fits (header : MessageHeader) : Prop :=
  (asBytes header.tensorId).length ≤ 16 ∧ header.tensorId.toList.getLast? ≠ some '\x00' ∧
    header.payloadLength.toNat < 2 ^ 56

/-- `write` emits 24 bytes, and they are read as the header. -/
def RoundTrips (write : MessageHeader → Outcome TcpError (List UInt8)) (header : MessageHeader) :
    Prop :=
  ∃ bytes, write header = .ok bytes ∧ bytes.length = 24 ∧
    TcpTransport.readHeader bytes = .ok (header, [])

/-- **No header makes the round trip**, with either writer. -/
theorem not_roundTrips (header : MessageHeader) :
    ¬RoundTrips TcpTransport.writeHeader header ∧ ¬RoundTrips TcpClient.writeHeader header := by
  have hpanic := encodeHeader_panics header
  refine ⟨?_, ?_⟩
  · rintro ⟨bytes, hwrite, -⟩
    rw [TcpTransport.writeHeader, hpanic] at hwrite
    cases hwrite
  · rintro ⟨bytes, hwrite, -⟩
    rw [TcpClient.writeHeader, hpanic] at hwrite
    cases hwrite

/-- The header of the source's own test. -/
def testHeader : MessageHeader where
  messageType := .tensorTransfer
  tensorId := "test_tensor"
  payloadLength := 1024

theorem testHeader_not_roundTrips : ¬∀ header : MessageHeader, header.Fits →
    RoundTrips TcpTransport.writeHeader header ∧ RoundTrips TcpClient.writeHeader header := by
  intro h
  have hfits : testHeader.Fits := by
    refine ⟨?_, ?_, ?_⟩ <;> decide +kernel
  obtain ⟨bytes, hwrite, -⟩ := (h testHeader hfits).1
  rw [TcpTransport.writeHeader, encodeHeader_panics] at hwrite
  cases hwrite

end TensorGrid.Tcp
