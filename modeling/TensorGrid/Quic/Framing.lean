import TensorGrid.ClusterTypes
import TensorGrid.Lib.Json
import TensorGrid.Lib.Memory
import TensorGrid.Lib.Pieces

/-!
# Tensors on a QUIC stream

The two `send_tensor`s and `receive_tensor` of `transports/quic`. A tensor goes over a stream of its
own: the length of the metadata in four big-endian bytes, the metadata as JSON, and the data, whose
length is in the metadata. `serde_json`'s text and parser are parameters, as are quinn's text for a
stream that ends early and the sizes that the receiver can allocate; sending makes no transport
errors.

Both writers have one body, `frame`. The reader takes it apart exactly, however the stream is cut
(`reads_frame`), so that a tensor arrives as it was sent: `sendTensor_arrives`.
-/

namespace TensorGrid.Quic

open Rust

inductive QuicError
  | configError (text : String)
  | bindError (text : String)
  | acceptFailed (text : String)
  | connectionError (text : String)
  | streamError (text : String)
  | sendError (text : String)
  | receiveError (text : String)
  | parseError (text : String)
  | nodeNotFound (nodeId : NodeId)
  | internal (text : String)
deriving DecidableEq, Repr

/-- A buffer, which has at most `isize::MAX` bytes. -/
structure Bytes where
  contents : List UInt8
  length_lt : contents.length < 2 ^ 63

/-- What the transport uses of its libraries and of the machine. The text for a stream that ends
early tells how many bytes of the buffer were read. -/
structure Libraries where
  toString : Json → String
  fromSlice : List UInt8 → Except String Json
  finishedEarly : Nat → String
  allocates : Nat → Bool

section
variable (libs : Libraries)

/-! ## The writers -/

def metadata (tensorId : TensorId) (data : Bytes) : Json :=
  .object [("size", .ofU64 (UInt64.ofNat data.contents.length)), ("tensor_id", .string tensorId)]

/-- The bytes of the three `write_all`s. -/
def frame (tensorId : TensorId) (data : Bytes) : List UInt8 :=
  let metadataBytes := asBytes (libs.toString (metadata tensorId data))
  let metadataLen := toBE 4 (UInt32.ofNat metadataBytes.length).toNat
  metadataLen ++ metadataBytes ++ data.contents

/-- The connection that a stream is opened on, and what is written to it. -/
def QuicServer.sendTensor {Connection : Type} (activeConnections : HashMap NodeId Connection)
    (nodeId : NodeId) (tensorId : TensorId) (data : Bytes) :
    Outcome QuicError (Connection × List UInt8) :=
  match activeConnections.lookup nodeId with
  | none => .err (.nodeNotFound nodeId)
  | some conn => .ok (conn, frame libs tensorId data)

def QuicClient.sendTensor {Connection : Type} (conn : Connection) (tensorId : TensorId)
    (data : Bytes) : Outcome QuicError (Connection × List UInt8) :=
  .ok (conn, frame libs tensorId data)

/-! ## The reader -/

/-- A value, or the error for a missing one. -/
def require {α : Type} (text : String) : Option α → Outcome QuicError α
  | some a => .ok a
  | none => .err (.parseError text)

def parseMetadata (metadataBytes : List UInt8) : Outcome QuicError Json :=
  match libs.fromSlice metadataBytes with
  | .ok metadata => .ok metadata
  | .error e => .err (.parseError e)

/-- `read_exact` into a buffer of `n` bytes. -/
def readExact (n : Nat) : PieceReader QuicError (List UInt8) :=
  PieceReader.readExact (fun read => .receiveError (libs.finishedEarly read)) n

def QuicClient.receiveTensor : PieceReader QuicError (TensorId × List UInt8) := do
  let lenBytes ← readExact libs 4
  PieceReader.lift (allocate libs.allocates (ofBE lenBytes))
  let metadataBytes ← readExact libs (ofBE lenBytes)
  let metadata ← PieceReader.lift (parseMetadata libs metadataBytes)
  let tensorId ← PieceReader.lift (require "Missing tensor_id" (metadata.get "tensor_id").asStr)
  let size ← PieceReader.lift (require "Missing size" (metadata.get "size").asU64)
  PieceReader.lift (allocate libs.allocates size.toNat)
  let data ← readExact libs size.toNat
  pure (tensorId, data)

end

/-! ## Round trips -/

variable {libs : Libraries} {tensorId : TensorId} {data : Bytes}

/-- The receiver can allocate the two buffers of a tensor. -/
def Receivable (libs : Libraries) (tensorId : TensorId) (data : Bytes) : Prop :=
  fits libs.allocates (asBytes (libs.toString (metadata tensorId data))).length ∧
    fits libs.allocates data.contents.length

/-- The reader takes a frame and nothing else. -/
theorem reads_frame
    (hjson : libs.fromSlice (asBytes (libs.toString (metadata tensorId data))) =
      .ok (metadata tensorId data))
    (hlen : (asBytes (libs.toString (metadata tensorId data))).length < 2 ^ 32)
    (hfits : Receivable libs tensorId data) :
    PieceReader.Reads (QuicClient.receiveTensor libs) (frame libs tensorId data)
      (tensorId, data.contents) := by
  have hdata := data.length_lt
  have hsize : (UInt64.ofNat data.contents.length).toNat = data.contents.length := by
    rw [UInt64.toNat_ofNat', Nat.mod_eq_of_lt]
    omega
  obtain ⟨hfitsMetadata, hfitsData⟩ := hfits
  generalize hmetadata : asBytes (libs.toString (metadata tensorId data)) = metadataBytes
    at hjson hlen hfitsMetadata
  have hcount : (UInt32.ofNat metadataBytes.length).toNat = metadataBytes.length := by
    rw [UInt32.toNat_ofNat', Nat.mod_eq_of_lt hlen]
  have hread (bs : List UInt8) : PieceReader.Reads (readExact libs bs.length) bs bs :=
    PieceReader.reads_readExact _ bs
  have hprefix := hread (toBE 4 metadataBytes.length)
  rw [length_toBE] at hprefix
  unfold frame QuicClient.receiveTensor
  simp only [hmetadata, hcount, List.append_assoc]
  refine hprefix.bind ?_
  rw [ofBE_toBE hlen]
  refine (PieceReader.reads_lift (allocate_of_fits hfitsMetadata)).skip ((hread _).bind ?_)
  refine (PieceReader.reads_lift (by rw [parseMetadata, hjson])).skip ?_
  refine (PieceReader.reads_lift rfl).skip ((PieceReader.reads_lift rfl).skip ?_)
  rw [hsize]
  exact (PieceReader.reads_lift (allocate_of_fits hfitsData)).skip (hread _).last

/-- However the bytes are cut, the reader returns the tensor and leaves nothing. -/
def Arrives (libs : Libraries) (tensorId : TensorId) (data : Bytes) (bytes : List UInt8) : Prop :=
  ∀ pieces, pieces.flatten = bytes →
    ∃ rest, QuicClient.receiveTensor libs pieces = .ok ((tensorId, data.contents), rest) ∧
      rest.flatten = []

/-- **A tensor arrives as it was sent**, by the server to a node it is connected to or by the
client, if the receiver has the memory for it. -/
theorem sendTensor_arrives
    (hjson : libs.fromSlice (asBytes (libs.toString (metadata tensorId data))) =
      .ok (metadata tensorId data))
    (hlen : (asBytes (libs.toString (metadata tensorId data))).length < 2 ^ 32)
    (hfits : Receivable libs tensorId data)
    {Connection : Type} :
    (∀ (activeConnections : HashMap NodeId Connection) nodeId conn,
      activeConnections.lookup nodeId = some conn →
      ∃ bytes, QuicServer.sendTensor libs activeConnections nodeId tensorId data =
        .ok (conn, bytes) ∧ Arrives libs tensorId data bytes) ∧
    ∀ conn : Connection, ∃ bytes, QuicClient.sendTensor libs conn tensorId data =
      .ok (conn, bytes) ∧ Arrives libs tensorId data bytes := by
  have harrives : Arrives libs tensorId data (frame libs tensorId data) := by
    intro pieces hpieces
    exact reads_frame hjson hlen hfits pieces [] (by rw [hpieces, List.append_nil])
  refine ⟨fun activeConnections nodeId conn hconn => ⟨_, ?_, harrives⟩, fun conn => ?_⟩
  · unfold QuicServer.sendTensor
    rw [hconn]
  · exact ⟨_, rfl, harrives⟩

/-- `serde_json` on the metadata of three bytes with the id `w`. -/
private def wireText : String := "\x7b\"size\":3,\"tensor_id\":\"w\"\x7d"

private def wireBytes : Bytes := ⟨[1, 2, 3], by decide⟩

private def wireLibraries : Libraries where
  toString _ := wireText
  fromSlice bytes := if bytes = asBytes wireText then .ok (metadata "w" wireBytes) else .error "eof"
  finishedEarly read := "stream finished early (" ++ ToString.toString read ++ " bytes read)"
  allocates n := n ≤ 4096

theorem sendTensor_arrives_w :
    (∀ (activeConnections : HashMap NodeId Nat) nodeId conn,
      activeConnections.lookup nodeId = some conn →
      ∃ bytes, QuicServer.sendTensor wireLibraries activeConnections nodeId "w" wireBytes =
        .ok (conn, bytes) ∧ Arrives wireLibraries "w" wireBytes bytes) ∧
    ∀ conn : Nat, ∃ bytes, QuicClient.sendTensor wireLibraries conn "w" wireBytes =
      .ok (conn, bytes) ∧ Arrives wireLibraries "w" wireBytes bytes := by
  refine sendTensor_arrives ?_ ?_ ⟨?_, ?_⟩
  · simp [wireLibraries]
  · show (asBytes wireText).length < 2 ^ 32
    decide
  · show fits (fun n => n ≤ 4096) (asBytes wireText).length
    decide
  · show fits (fun n => n ≤ 4096) 3
    decide

end TensorGrid.Quic
