import TensorGrid.Tcp.Header
import TensorGrid.Lib.Duplex

/-!
# A client and a server of the TCP transport

The handler of a connection and the calls of a client, as programs at the two ends of it. The header
writer is a parameter, `HeaderWriter`: the ones of the source panic. Log lines are left out, and of
the configuration all but the buffer size. The receive buffer of that size is taken to be allocated.

The handler takes one message and returns, which closes its end, while the client keeps the
connection for its next call.

* `ends_receivePayload`: the receive loop takes as many bytes as were announced, in any chunks.
* `ends_call`, `ends_call_ended`: a call on a new connection returns `Ok`, a later one finds the
  connection closed.
* `everyCallOk_iff`: hence a connection carries one message.
-/

namespace TensorGrid.Tcp

open Rust

/-! ## The server -/

/-- What a handler does besides reading and writing. -/
inductive Effect
  /-- `active_connections` goes up. -/
  | connectionOpened
  /-- `active_connections` goes down. -/
  | connectionClosed
  | tensorBytesReceived (total : Nat)
deriving DecidableEq, Repr

namespace TcpTransport

/-- `read_header` on a connection. -/
def receiveHeader : Endpoint Effect TcpError MessageHeader := do
  let headerBuf ← .readExactly (.io .unexpectedEof) 24
  let (header, _) ← .lift (readHeader headerBuf)
  pure header

/-- The loop of `handle_tensor_transfer`; it returns `total_received`. -/
def receivePayload (bufferSize payloadLength totalReceived : Nat) :
    Endpoint Effect TcpError Nat :=
  if totalReceived < payloadLength then
    .read (min bufferSize (payloadLength - totalReceived)) fun bs =>
      if bs.length = 0 then .done (.err .connectionClosed)
      else receivePayload bufferSize payloadLength (totalReceived + bs.length)
  else pure totalReceived
termination_by payloadLength - totalReceived

def sendAck (success : Bool) : Endpoint Effect TcpError Unit :=
  .writeAll [if success then 1 else 0]

def handleTensorTransfer (bufferSize : Nat) (header : MessageHeader) :
    Endpoint Effect TcpError Unit := do
  let totalReceived ← receivePayload bufferSize header.payloadLength.toNat 0
  .perform (.tensorBytesReceived totalReceived)
  sendAck true

def handlePing (write : MessageHeader → List UInt8) : Endpoint Effect TcpError Unit :=
  .writeAll (write { messageType := .ack, tensorId := "", payloadLength := 0 })

def handleMessage (write : MessageHeader → List UInt8) (bufferSize : Nat) (header : MessageHeader) :
    Endpoint Effect TcpError Unit :=
  match header.messageType with
  | .tensorTransfer => handleTensorTransfer bufferSize header
  | .ping => handlePing write
  | .ack => pure ()

def handleConnection (write : MessageHeader → List UInt8) (bufferSize : Nat) :
    Endpoint Effect TcpError Unit := do
  .perform .connectionOpened
  let header ← receiveHeader
  handleMessage write bufferSize header
  .perform .connectionClosed

end TcpTransport

/-! ## The client -/

namespace TcpClient

def tensorHeader (tensorId : String) (data : List UInt8) : MessageHeader where
  messageType := .tensorTransfer
  tensorId := tensorId
  payloadLength := UInt64.ofNat data.length

def pingHeader : MessageHeader where
  messageType := .ping
  tensorId := ""
  payloadLength := 0

def sendTensor (write : MessageHeader → List UInt8) (tensorId : String) (data : List UInt8) :
    Endpoint Effect TcpError Unit := do
  .writeAll (write (tensorHeader tensorId data))
  .writeAll data
  let ackBuf ← .readExactly (.io .unexpectedEof) 1
  let ack ← .lift (index ackBuf 0)
  if ack ≠ 1 then .lift (.err (.transferFailed "Remote acknowledged failure")) else pure ()

def ping (write : MessageHeader → List UInt8) : Endpoint Effect TcpError Unit := do
  .writeAll (write pingHeader)
  let _ ← .readExactly (.io .unexpectedEof) 24
  pure ()

end TcpClient

inductive Call
  | sendTensor (tensorId : String) (data : List UInt8)
  | ping
deriving DecidableEq, Repr

def Call.run (write : MessageHeader → List UInt8) : Call → Endpoint Effect TcpError Unit
  | .sendTensor tensorId data => TcpClient.sendTensor write tensorId data
  | .ping => TcpClient.ping write

/-- The calls one after another, as long as they return `Ok`. -/
def runCalls (write : MessageHeader → List UInt8) : List Call → Endpoint Effect TcpError Unit
  | [] => pure ()
  | call :: calls => do
    call.run write
    runCalls write calls

/-! ## Header writers -/

/-- A header writer that emits the 24 bytes `read_header` expects: from them it reads the message
type, and a payload that is not longer than the one sent (`readHeader_payloadLength`: it cannot read
every length). -/
structure HeaderWriter where
  write : MessageHeader → List UInt8
  length_write : ∀ header, (write header).length = 24
  reads : ∀ header : MessageHeader, ∃ header' : MessageHeader,
    TcpTransport.readHeader (write header) = .ok (header', []) ∧
      header'.messageType = header.messageType ∧
      header'.payloadLength.toNat ≤ header.payloadLength.toNat

/-- The payload that the server takes for the call. -/
def HeaderWriter.announced (w : HeaderWriter) : Call → Nat
  | .sendTensor tensorId data =>
    match TcpTransport.readHeader (w.write (TcpClient.tensorHeader tensorId data)) with
    | .ok (header, _) => header.payloadLength.toNat
    | _ => 0
  | .ping => 0

/-- A client that makes the calls on a new connection to the server. -/
def connection (w : HeaderWriter) (bufferSize : Nat) (calls : List Call) :
    Duplex Effect TcpError Unit :=
  ⟨⟨runCalls w.write calls, []⟩, ⟨TcpTransport.handleConnection w.write bufferSize, []⟩⟩

/-- Whatever the order of the steps and the chunks that come, every call returns `Ok`. -/
def EveryCallOk (w : HeaderWriter) (bufferSize : Nat) (calls : List Call) : Prop :=
  Duplex.Ends .left (.ok ()) (connection w bufferSize calls)

/-! ## The server's side of a call -/

section
variable {who : Side} {r : Outcome TcpError Unit} {w : HeaderWriter} {bufferSize : Nat}
  {client : Party Effect TcpError Unit}

/-- The header has come. -/
theorem ends_handleConnection {header header' : MessageHeader} {rest : List UInt8}
    (hread : TcpTransport.readHeader (w.write header) = .ok (header', []))
    (h : Duplex.Ends who r ⟨client, ⟨do
      TcpTransport.handleMessage w.write bufferSize header'
      .perform .connectionClosed, rest⟩⟩) :
    Duplex.Ends who r
      ⟨client, ⟨TcpTransport.handleConnection w.write bufferSize, w.write header ++ rest⟩⟩ := by
  have hheader : (.lift (TcpTransport.readHeader (w.write header)) >>= fun x => pure x.1 :
      Endpoint Effect TcpError MessageHeader) = pure header' := by
    rw [hread]
    rfl
  refine .act .right rfl (.readExact .right rfl rfl (w.length_write header) ?_)
  show Duplex.Ends who r ⟨client,
    ⟨(.lift (TcpTransport.readHeader (w.write header)) >>= fun x => pure x.1) >>= _, rest⟩⟩
  rw [hheader]
  exact h

/-- The loop takes as many bytes as were announced, in whatever chunks they come. -/
theorem ends_receivePayload {payloadLength n : Nat} {k : Nat → Endpoint Effect TcpError Unit}
    {next : Option (List UInt8) → Endpoint Effect TcpError Unit} (hn : 0 < n)
    (h : ∀ rest, Duplex.Ends who r ⟨⟨.readExact n next, []⟩, ⟨k payloadLength, rest⟩⟩)
    {totalReceived : Nat} {inbox : List UInt8} (hle : totalReceived ≤ payloadLength)
    (hinbox : payloadLength - totalReceived ≤ inbox.length)
    (hbuffer : totalReceived = payloadLength ∨ 0 < bufferSize) :
    Duplex.Ends who r ⟨⟨.readExact n next, []⟩,
      ⟨TcpTransport.receivePayload bufferSize payloadLength totalReceived >>= k, inbox⟩⟩ := by
  -- by induction on the bytes still to come
  induction hleft : payloadLength - totalReceived using Nat.strong_induction_on
    generalizing totalReceived inbox with
  | _ left ih =>
    rw [TcpTransport.receivePayload]
    split_ifs with hlt
    · refine .read .right rfl (by omega) ?_ rfl hn fun bs rest hbs hne hlen => ?_
      · rintro hnil
        change inbox = [] at hnil
        rw [hnil, List.length_nil] at hinbox
        omega
      · change inbox = bs ++ rest at hbs
        have hpos := List.length_pos_iff.2 hne
        rw [hbs, List.length_append] at hinbox
        show Duplex.Ends who r
          ⟨⟨.readExact n next, []⟩, ⟨(if bs.length = 0 then _ else _) >>= k, rest⟩⟩
        rw [if_neg (by omega)]
        exact ih _ (by omega) (by omega) (by omega) (by omega) rfl
    · obtain rfl : totalReceived = payloadLength := by omega
      exact h inbox

end

/-! ## A call -/

section
variable {r : Outcome TcpError Unit} {w : HeaderWriter} {bufferSize : Nat}
  {k : Unit → Endpoint Effect TcpError Unit}

/-- A tensor transfer writes the header and the data and waits for one byte. -/
theorem sendTensor_eq (w : HeaderWriter) (tensorId : String) (data : List UInt8)
    (k : Unit → Endpoint Effect TcpError Unit) : ∃ next,
      (Call.sendTensor tensorId data).run w.write >>= k =
        .write (w.write (TcpClient.tensorHeader tensorId data)) (.write data (.readExact 1 next)) ∧
      next (some [1]) = k () ∧ next none = .done (.err (.io .unexpectedEof)) :=
  ⟨_, rfl, rfl, rfl⟩

/-- A ping writes the header and waits for a header. -/
theorem ping_eq (w : HeaderWriter) (k : Unit → Endpoint Effect TcpError Unit) : ∃ next,
    Call.ping.run w.write >>= k = .write (w.write TcpClient.pingHeader) (.readExact 24 next) ∧
      (∀ bs, next (some bs) = k ()) ∧ next none = .done (.err (.io .unexpectedEof)) :=
  ⟨_, rfl, fun _ => rfl, rfl⟩

/-- The handler has the header of a tensor transfer, and all of its data is there. -/
theorem ends_sendTensor {tensorId : String} {data : List UInt8}
    {next : Option (List UInt8) → Endpoint Effect TcpError Unit}
    (h : ∀ header', w.announced (.sendTensor tensorId data) = header'.payloadLength.toNat →
      header'.payloadLength.toNat ≤ data.length →
      Duplex.Ends .left r ⟨⟨.readExact 1 next, []⟩,
        ⟨do
          TcpTransport.handleTensorTransfer bufferSize header'
          .perform .connectionClosed, data⟩⟩) :
    Duplex.Ends .left r
      ⟨⟨.write (w.write (TcpClient.tensorHeader tensorId data))
          (.write data (.readExact 1 next)), []⟩,
        ⟨TcpTransport.handleConnection w.write bufferSize, []⟩⟩ := by
  obtain ⟨header', hread, htype, hlength⟩ := w.reads (TcpClient.tensorHeader tensorId data)
  refine .write .left rfl (.write .left rfl (ends_handleConnection hread ?_))
  rw [TcpTransport.handleMessage, htype]
  refine h header' ?_ (hlength.trans ?_)
  · rw [HeaderWriter.announced, hread]
  · show (UInt64.ofNat data.length).toNat ≤ data.length
    rw [UInt64.toNat_ofNat']
    exact Nat.mod_le _ _

/-- A call on a new connection returns `Ok`, and then the handler has returned. -/
theorem ends_call {call : Call} (hbuffer : w.announced call = 0 ∨ 0 < bufferSize)
    (h : ∀ rest, Duplex.Ends .left r ⟨⟨k (), []⟩, ⟨.done (.ok ()), rest⟩⟩) :
    Duplex.Ends .left r ⟨⟨call.run w.write >>= k, []⟩,
      ⟨TcpTransport.handleConnection w.write bufferSize, []⟩⟩ := by
  cases call with
  | ping =>
    obtain ⟨next, hrun, hnext, -⟩ := ping_eq w k
    obtain ⟨header', hread, htype, -⟩ := w.reads TcpClient.pingHeader
    rw [hrun]
    refine .write .left rfl ?_
    show Duplex.Ends .left r ⟨_, ⟨_, w.write _⟩⟩
    rw [← List.append_nil (w.write _)]
    refine ends_handleConnection hread ?_
    rw [TcpTransport.handleMessage, htype]
    -- the pong goes out; the handler may return before the client has it
    refine .write .right rfl (.act .right rfl ?_)
    refine .readExact .left rfl (List.append_nil _).symm (w.length_write _) ?_
    rw [hnext]
    exact h _
  | sendTensor tensorId data =>
    obtain ⟨next, hrun, hnext, -⟩ := sendTensor_eq w tensorId data k
    rw [hrun]
    refine ends_sendTensor fun header' hannounced hlength => ?_
    rw [hannounced] at hbuffer
    rw [TcpTransport.handleTensorTransfer, Endpoint.bind_assoc]
    refine ends_receivePayload Nat.one_pos (fun rest => ?_) (Nat.zero_le _) hlength
      (hbuffer.imp_left Eq.symm)
    refine .act .right rfl (.write .right rfl (.act .right rfl ?_))
    refine .readExact .left rfl (List.append_nil _).symm rfl ?_
    show Duplex.Ends .left r ⟨⟨next (some [1]), []⟩, ⟨_, _⟩⟩
    rw [hnext]
    exact h _

/-- Into a buffer of no bytes nothing is received: the handler gives up. -/
theorem ends_sendTensor_noBuffer {tensorId : String} {data : List UInt8}
    (hannounced : w.announced (.sendTensor tensorId data) ≠ 0) :
    Duplex.Ends .left (.err (.io .unexpectedEof))
      ⟨⟨(Call.sendTensor tensorId data).run w.write >>= k, []⟩,
        ⟨TcpTransport.handleConnection w.write 0, []⟩⟩ := by
  obtain ⟨next, hrun, -, hnext⟩ := sendTensor_eq w tensorId data k
  rw [hrun]
  refine ends_sendTensor fun header' hlength _ => ?_
  rw [hlength] at hannounced
  rw [TcpTransport.handleTensorTransfer, TcpTransport.receivePayload,
    if_pos (Nat.pos_of_ne_zero hannounced), Nat.zero_min]
  refine .read_zero .right rfl (.eof .left rfl Nat.one_pos rfl ?_)
  exact .done hnext

/-- A call after the handler has returned: what it writes is lost, and no answer comes. -/
theorem ends_call_ended {call : Call} {result : Outcome TcpError Unit} {rest : List UInt8} :
    Duplex.Ends .left (.err (.io .unexpectedEof))
      ⟨⟨call.run w.write >>= k, []⟩, ⟨.done result, rest⟩⟩ := by
  cases call with
  | ping =>
    obtain ⟨next, hrun, -, hnext⟩ := ping_eq w k
    rw [hrun]
    exact .write .left rfl (.eof .left rfl (Nat.succ_pos _) rfl (.done hnext))
  | sendTensor tensorId data =>
    obtain ⟨next, hrun, -, hnext⟩ := sendTensor_eq w tensorId data k
    rw [hrun]
    exact .write .left rfl (.write .left rfl (.eof .left rfl Nat.one_pos rfl (.done hnext)))

end

/-! ## The calls of a client -/

/-- The calls that the server can answer on one connection. -/
def Answerable (w : HeaderWriter) (bufferSize : Nat) (calls : List Call) : Prop :=
  calls.length ≤ 1 ∧ ∀ call ∈ calls, w.announced call = 0 ∨ 0 < bufferSize

/-- All calls return `Ok`, or one of them fails because the server has closed the connection. -/
theorem ends_calls (w : HeaderWriter) (bufferSize : Nat) (calls : List Call) :
    Answerable w bufferSize calls ∧ EveryCallOk w bufferSize calls ∨
      ¬ Answerable w bufferSize calls ∧
        Duplex.Ends .left (.err (.io .unexpectedEof)) (connection w bufferSize calls) := by
  cases calls with
  | nil => exact .inl ⟨⟨Nat.zero_le _, nofun⟩, .done rfl⟩
  | cons call calls =>
    by_cases hbuffer : w.announced call = 0 ∨ 0 < bufferSize
    · cases calls with
      | nil =>
        refine .inl ⟨⟨Nat.le_refl _, by simpa using hbuffer⟩, ?_⟩
        exact ends_call hbuffer fun rest => .done rfl
      | cons call' calls =>
        refine .inr ⟨fun h => absurd h.1 (by simp), ?_⟩
        exact ends_call hbuffer fun rest => ends_call_ended
    · obtain ⟨hannounced, hzero⟩ := not_or.1 hbuffer
      obtain rfl : bufferSize = 0 := by omega
      refine .inr ⟨fun h => hbuffer (h.2 call (.head _)), ?_⟩
      cases call with
      | ping => exact absurd rfl hannounced
      | sendTensor tensorId data => exact ends_sendTensor_noBuffer hannounced

/-- **A connection carries one message**: every call returns `Ok` exactly if there is at most one
and the server has room for what it sends. -/
theorem everyCallOk_iff (w : HeaderWriter) (bufferSize : Nat) (calls : List Call) :
    EveryCallOk w bufferSize calls ↔ Answerable w bufferSize calls := by
  rcases ends_calls w bufferSize calls with ⟨hanswerable, hok⟩ | ⟨hnot, herr⟩
  · exact iff_of_true hok hanswerable
  · refine iff_of_false (fun hok => ?_) hnot
    cases hok.unique herr

/-! ## Two pings -/

/-- `write_header` with the seven length bytes where they belong. -/
def repairedHeader (header : MessageHeader) : List UInt8 :=
  let id := (asBytes header.tensorId).take 16
  header.messageType.asU8 :: (id ++ List.replicate (16 - id.length) 0 ++
    (toBE 8 header.payloadLength.toNat).take 7)

/-- The seven bytes are those of the length without its last digit. -/
theorem take_toBE (v : Nat) : (toBE 8 v).take 7 = toBE 7 (v / 256) := by
  rw [toBE_succ, List.take_append_of_le_length (length_toBE 7 _).ge,
    List.take_of_length_le (length_toBE 7 _).le]

def repairedWriter : HeaderWriter where
  write := repairedHeader
  length_write header := by
    simp only [repairedHeader, List.length_cons, List.length_append, List.length_replicate,
      List.length_take, length_toBE]
    omega
  reads header := by
    have hfield : ((asBytes header.tensorId).take 16 ++
        List.replicate (16 - ((asBytes header.tensorId).take 16).length) 0).length = 16 := by
      simp only [List.length_append, List.length_replicate, List.length_take]
      omega
    have hlength : ((toBE 8 header.payloadLength.toNat).take 7).length = 7 := by
      rw [take_toBE, length_toBE]
    have hreads := readHeader_fields header.messageType hfield hlength []
    rw [List.append_nil] at hreads
    refine ⟨_, hreads, rfl, ?_⟩
    -- the length is read without its last digit
    have hlt : header.payloadLength.toNat < 2 ^ 64 := header.payloadLength.toNat_lt
    show (UInt64.ofNat (ofBE ((toBE 8 header.payloadLength.toNat).take 7 ++ [0]))).toNat ≤ _
    rw [take_toBE, ofBE_concat, ofBE_toBE (by omega), UInt64.toNat_ofNat']
    refine (Nat.mod_le _ _).trans ?_
    show 256 * (header.payloadLength.toNat / 256) + 0 ≤ header.payloadLength.toNat
    omega

/-- The second ping meets a closed connection. -/
theorem twoPings_fail : ¬ EveryCallOk repairedWriter (64 * 1024) [.ping, .ping] := by
  intro hok
  have herr : Duplex.Ends .left (.err (.io .unexpectedEof))
      (connection repairedWriter (64 * 1024) [.ping, .ping]) :=
    ends_call (.inl rfl) fun _ => ends_call_ended
  cases hok.unique herr

end TensorGrid.Tcp
