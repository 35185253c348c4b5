import TensorGrid.Tcp.Receiving

/-!
# The number of active connections

The server of the TCP transport with all its handlers, which share `active_connections`. A handler
counts itself in first and out last; in between every `?` returns. So a handler that meets an error
is counted for ever.

`Stage` is where a handler can be, `move_of_answer` is what a step does to it and to the count. The
count is that of the handlers at work in all states of a run exactly if no step of it disturbs one:
`always_accurate_iff`.
-/

namespace TensorGrid.Tcp

open Rust

/-! ## The transport -/

structure TcpConfig where
  maxConnections : Nat
  bufferSize : Nat
deriving DecidableEq, Repr

structure TcpTransport where
  config : TcpConfig
  activeConnections : Nat
deriving DecidableEq, Repr

structure TransportStats where
  activeConnections : Nat
  maxConnections : Nat
deriving DecidableEq, Repr

namespace TcpTransport

def new (config : TcpConfig) : TcpTransport := ⟨config, 0⟩

def getStats (t : TcpTransport) : TransportStats := ⟨t.activeConnections, t.config.maxConnections⟩

/-- What an effect of a handler does to the count that they share. -/
def perform (t : TcpTransport) : Effect → TcpTransport
  | .connectionOpened => { t with activeConnections := t.activeConnections + 1 }
  | .connectionClosed => { t with activeConnections := t.activeConnections - 1 }
  | .tensorBytesReceived _ => t

/-- `handle_ping` with the source's `write_header`. -/
def servePing : Endpoint Effect TcpError Unit := do
  let headerBuf ← .lift (writeHeader { messageType := .ack, tensorId := "", payloadLength := 0 })
  .writeAll headerBuf

def serveMessage (bufferSize : Nat) (header : MessageHeader) : Endpoint Effect TcpError Unit :=
  match header.messageType with
  | .tensorTransfer => handleTensorTransfer bufferSize header
  | .ping => servePing
  | .ack => pure ()

/-- `handle_connection` with the source's `write_header`. -/
def serveConnection (bufferSize : Nat) : Endpoint Effect TcpError Unit := do
  .perform .connectionOpened
  let header ← receiveHeader
  serveMessage bufferSize header
  .perform .connectionClosed

end TcpTransport

/-! ## The server -/

/-- A call of `handle_connection`: what is left of it, and whether it has counted itself in. -/
structure Handler where
  prog : Endpoint Effect TcpError Unit
  counted : Bool

namespace Handler

/-- It has counted itself in and has not yet returned. -/
def atWork (h : Handler) : Bool := h.counted && !h.prog.isDone

/-- The handler after a step that leaves `prog`. -/
def advance (h : Handler) (prog : Endpoint Effect TcpError Unit) : Handler :=
  match h.prog with
  | .act .connectionOpened _ => ⟨prog, true⟩
  | _ => ⟨prog, h.counted⟩

/-- What its step does to the transport. -/
def perform (h : Handler) (t : TcpTransport) : TcpTransport :=
  match h.prog with
  | .act effect _ => t.perform effect
  | _ => t

end Handler

structure Server where
  transport : TcpTransport
  handlers : List Handler

inductive ServerEvent
  /-- A connection is accepted and its handler spawned. -/
  | accept
  /-- The `i`th handler makes a step; the answer is that of its stream. -/
  | handle (i : Nat) (answer : Endpoint.Answer TcpError)

namespace Server

def new (config : TcpConfig) : Server := ⟨.new config, []⟩

def step (s : Server) : ServerEvent → Option Server
  | .accept =>
    let handler := ⟨TcpTransport.serveConnection s.transport.config.bufferSize, false⟩
    some { s with handlers := s.handlers ++ [handler] }
  | .handle i answer =>
    match s.handlers[i]? with
    | none => none
    | some h =>
      match h.prog.answer answer with
      | none => none
      | some prog =>
        some ⟨h.perform s.transport, s.handlers.set i (h.advance prog)⟩

/-- The count is that of the handlers at work. -/
def Accurate (s : Server) : Prop :=
  s.transport.getStats.activeConnections = s.handlers.countP Handler.atWork

/-- The message type is that of a tensor transfer or an acknowledgment. (A ping panics.) -/
def Serves (bs : List UInt8) : Prop :=
  bs.head? = some MessageType.tensorTransfer.asU8 ∨ bs.head? = some MessageType.ack.asU8

/-- The answer is no error and no end of the stream, and a header is one that is served. -/
def Smooth (prog : Endpoint Effect TcpError Unit) : Endpoint.Answer TcpError → Prop
  | .ok => True
  | .received bs => ∀ n next, prog = .readExact n next → Serves bs
  | .ended => False
  | .failed _ => False

/-- The step is smooth. -/
def Undisturbed (s : Server) : ServerEvent → Prop
  | .accept => True
  | .handle i answer => ∀ h, s.handlers[i]? = some h → Smooth h.prog answer

end Server

/-! ## Where a handler can be -/

open TcpTransport

/-- A handler from the header on. -/
def afterHeader (bufferSize : Nat) (header : MessageHeader) : Endpoint Effect TcpError Unit := do
  serveMessage bufferSize header
  .perform .connectionClosed

/-- A handler from the end of the receive loop on. -/
def afterPayload (totalReceived : Nat) : Endpoint Effect TcpError Unit := do
  .perform (.tensorBytesReceived totalReceived)
  sendAck true
  .perform .connectionClosed

/-- What is left of a handler that has counted itself in and goes on. -/
inductive Working (bufferSize : Nat) : Endpoint Effect TcpError Unit → Prop
  | header : Working bufferSize (receiveHeader >>= afterHeader bufferSize)
  | payload (payloadLength totalReceived : Nat) : totalReceived < payloadLength →
      Working bufferSize (receivePayload bufferSize payloadLength totalReceived >>= afterPayload)
  | received (totalReceived : Nat) : Working bufferSize (afterPayload totalReceived)
  | acknowledging : Working bufferSize (.write [1] (.perform .connectionClosed))
  | closing : Working bufferSize (.perform .connectionClosed)

inductive Stage (bufferSize : Nat) : Handler → Prop
  | starting : Stage bufferSize ⟨serveConnection bufferSize, false⟩
  | working {prog : Endpoint Effect TcpError Unit} :
      Working bufferSize prog → Stage bufferSize ⟨prog, true⟩
  | ended (result : Outcome TcpError Unit) : Stage bufferSize ⟨.done result, true⟩

/-- A step of a handler, by whether it is at work before and after. -/
inductive Move (h h' : Handler) (answer : Endpoint.Answer TcpError) : Prop
  | opens : h.atWork = false → h'.atWork = true → Server.Smooth h.prog answer →
      (∀ t, (h.perform t).activeConnections = t.activeConnections + 1) → Move h h' answer
  | goesOn : h.atWork = true → h'.atWork = true → Server.Smooth h.prog answer →
      (∀ t, (h.perform t).activeConnections = t.activeConnections) → Move h h' answer
  | closes : h.atWork = true → h'.atWork = false → Server.Smooth h.prog answer →
      (∀ t, (h.perform t).activeConnections = t.activeConnections - 1) → Move h h' answer
  | breaks : h.atWork = true → h'.atWork = false → ¬ Server.Smooth h.prog answer →
      (∀ t, (h.perform t).activeConnections = t.activeConnections) → Move h h' answer

theorem fromU8_eq_err {b : UInt8} (h : ∀ t : MessageType, b ≠ t.asU8) :
    MessageType.fromU8 b = .err (.invalidMessage b) := by
  have h0 : b ≠ 0 := h .tensorTransfer
  have h1 : b ≠ 1 := h .ping
  have h2 : b ≠ 2 := h .ack
  rw [MessageType.fromU8, if_neg h0, if_neg h1, if_neg h2]

/-- What comes of 24 bytes: a header with the message type of the first byte, or an error if there
is no such type. -/
theorem readHeader_cases {bs : List UInt8} (hlen : bs.length = 24) :
    (∃ header, readHeader bs = .ok (header, []) ∧ bs.head? = some header.messageType.asU8) ∨
      ∃ e, readHeader bs = .err e ∧ ∀ t : MessageType, bs.head? ≠ some t.asU8 := by
  cases bs with
  | nil => cases hlen
  | cons b bs =>
    have hbs : bs.length = 23 := Nat.succ.inj hlen
    by_cases htype : ∃ t : MessageType, b = t.asU8
    · obtain ⟨t, rfl⟩ := htype
      have hfield : (bs.take 16).length = 16 := by
        rw [List.length_take]
        omega
      have hlength : (bs.drop 16).length = 7 := by
        rw [List.length_drop]
        omega
      have hread := readHeader_fields t hfield hlength []
      rw [List.take_append_drop, List.append_nil] at hread
      exact .inl ⟨_, hread, rfl⟩
    · have hfrom : MessageType.fromU8 b = .err (.invalidMessage b) :=
        fromU8_eq_err fun t ht => htype ⟨t, ht⟩
      have hexact : Reader.exact (TcpError.io .unexpectedEof) 24 (b :: bs) =
          .ok ((b :: bs).take 24, []) := by
        rw [Reader.exact, if_pos hlen.ge, List.drop_eq_nil_of_le hlen.le]
      refine .inr ⟨.invalidMessage b, ?_, fun t ht => htype ⟨t, Option.some.inj ht⟩⟩
      show Reader.andThen (Reader.exact (TcpError.io .unexpectedEof) 24) _ (b :: bs) = _
      unfold Reader.andThen
      rw [hexact]
      show Reader.andThen (fun rest => MessageType.fromU8 b >>= fun t => .ok (t, rest)) _ [] = _
      unfold Reader.andThen
      rw [hfrom]
      rfl

/-! ## Steps -/

section
variable {bufferSize : Nat} {h : Handler} {answer : Endpoint.Answer TcpError}
  {prog : Endpoint Effect TcpError Unit}

/-- The receive loop, between two of its rounds or at its end. -/
theorem Working.receivePayload (bufferSize payloadLength totalReceived : Nat) :
    Working bufferSize
      (receivePayload bufferSize payloadLength totalReceived >>= afterPayload) := by
  by_cases hlt : totalReceived < payloadLength
  · exact .payload payloadLength totalReceived hlt
  · rw [TcpTransport.receivePayload, if_neg hlt]
    exact .received totalReceived

/-- A round of the receive loop. -/
theorem receivePayload_eq {payloadLength totalReceived : Nat} (hlt : totalReceived < payloadLength)
    (k : Nat → Endpoint Effect TcpError Unit) : ∃ n next,
      receivePayload bufferSize payloadLength totalReceived >>= k = .read n next ∧
      next [] = .done (.err .connectionClosed) ∧ ∀ bs, 0 < bs.length →
        next bs = receivePayload bufferSize payloadLength (totalReceived + bs.length) >>= k := by
  rw [receivePayload_of_lt hlt]
  refine ⟨_, _, rfl, rfl, fun bs hbs => ?_⟩
  show (if bs.length = 0 then _ else _) >>= k = _
  rw [if_neg hbs.ne']

theorem Working.isDone (hw : Working bufferSize prog) : prog.isDone = false := by
  cases hw with
  | header => rfl
  | payload payloadLength totalReceived hlt =>
    obtain ⟨n, next, heq, -⟩ := receivePayload_eq hlt _
    rw [heq]
    rfl
  | received total => rfl
  | acknowledging => rfl
  | closing => rfl

theorem Working.atWork (hw : Working bufferSize prog) : (Handler.mk prog true).atWork = true := by
  rw [Handler.atWork, hw.isDone]
  rfl

/-- After a header. A ping ends the handler. -/
theorem afterHeader_cases (bufferSize : Nat) (header : MessageHeader) :
    header.messageType ≠ .ping ∧ Working bufferSize (afterHeader bufferSize header) ∨
      header.messageType = .ping ∧ afterHeader bufferSize header = .done .panic := by
  obtain ⟨messageType, tensorId, payloadLength⟩ := header
  cases messageType with
  | tensorTransfer =>
    have hloop : afterHeader bufferSize ⟨.tensorTransfer, tensorId, payloadLength⟩ =
        receivePayload bufferSize payloadLength.toNat 0 >>= afterPayload :=
      Endpoint.bind_assoc _ _ _
    rw [hloop]
    exact .inl ⟨MessageType.noConfusion, .receivePayload bufferSize payloadLength.toNat 0⟩
  | ping =>
    have hpong : servePing = .done .panic := by
      rw [servePing, writeHeader, encodeHeader_panics]
      rfl
    refine .inr ⟨rfl, ?_⟩
    show servePing >>= _ = _
    rw [hpong]
    rfl
  | ack => exact .inl ⟨MessageType.noConfusion, .closing⟩

theorem serves_iff {bs : List UInt8} {t : MessageType} (h : bs.head? = some t.asU8) :
    Server.Serves bs ↔ t ≠ .ping := by
  rw [Server.Serves, h]
  cases t <;> decide

/-- 24 bytes have come. -/
theorem receiveHeader_cases (bufferSize : Nat) {bs : List UInt8} (hlen : bs.length = 24) :
    ∃ next : Endpoint Effect TcpError Unit,
      (.lift (readHeader bs) >>= fun x => pure x.1 : Endpoint Effect TcpError MessageHeader) >>=
        afterHeader bufferSize = next ∧
      (Working bufferSize next ∧ Server.Serves bs ∨
        (∃ r, next = .done r) ∧ ¬ Server.Serves bs) := by
  obtain ⟨header, hread, htype⟩ | ⟨e, hread, hno⟩ := readHeader_cases hlen
  · refine ⟨afterHeader bufferSize header, by rw [hread]; rfl, ?_⟩
    rw [serves_iff htype]
    obtain ⟨hping, hw⟩ | ⟨hping, hpanic⟩ := afterHeader_cases bufferSize header
    · exact .inl ⟨hw, hping⟩
    · exact .inr ⟨⟨_, hpanic⟩, not_not.2 hping⟩
  · refine ⟨.done (.err e), by rw [hread]; rfl, .inr ⟨⟨_, rfl⟩, ?_⟩⟩
    exact not_or.2 ⟨hno _, hno _⟩

/-- The handler is at work before the step. -/
theorem Working.step (hw : Working bufferSize prog) {prog' : Endpoint Effect TcpError Unit}
    (ha : prog.answer answer = some prog') :
    Stage bufferSize (Handler.advance ⟨prog, true⟩ prog') ∧
      Move ⟨prog, true⟩ (Handler.advance ⟨prog, true⟩ prog') answer := by
  have hwork := hw.atWork
  cases hw with
  | header =>
    cases answer with
    | ok => cases ha
    | received bs =>
      change (if bs.length = 24 then some _ else none) = some prog' at ha
      split_ifs at ha with hlen
      cases ha
      obtain ⟨next, hnext, hcases⟩ := receiveHeader_cases bufferSize hlen
      show Stage bufferSize ⟨(.lift (readHeader bs) >>= fun x => pure x.1) >>= _, true⟩ ∧
        Move _ ⟨(.lift (readHeader bs) >>= fun x => pure x.1) >>= _, true⟩ _
      rw [hnext]
      obtain ⟨hw, hserves⟩ | ⟨⟨r, rfl⟩, hserves⟩ := hcases
      · exact ⟨.working hw, .goesOn rfl hw.atWork (fun _ _ _ => hserves) fun _ => rfl⟩
      · exact ⟨.ended r, .breaks rfl rfl (fun h => hserves (h _ _ rfl)) fun _ => rfl⟩
    | ended =>
      cases ha
      exact ⟨.ended _, .breaks rfl rfl id fun _ => rfl⟩
    | failed e =>
      cases ha
      exact ⟨.ended _, .breaks rfl rfl id fun _ => rfl⟩
  | payload payloadLength totalReceived hlt =>
    obtain ⟨n, next, heq, hnil, hnext⟩ := receivePayload_eq hlt _
    rw [heq] at ha hwork ⊢
    cases answer with
    | ok => cases ha
    | received bs =>
      change (if 0 < bs.length ∧ bs.length ≤ n then some (next bs) else none) = some prog' at ha
      split_ifs at ha with hbs
      cases ha
      have hloop := Working.receivePayload bufferSize payloadLength (totalReceived + bs.length)
      rw [hnext bs hbs.1]
      exact ⟨.working hloop, .goesOn hwork hloop.atWork (fun _ _ h => nomatch h) fun _ => rfl⟩
    | ended =>
      cases ha
      rw [hnil]
      exact ⟨.ended _, .breaks rfl rfl id fun _ => rfl⟩
    | failed e =>
      cases ha
      exact ⟨.ended _, .breaks rfl rfl id fun _ => rfl⟩
  | received total =>
    cases answer with
    | ok =>
      cases ha
      exact ⟨.working .acknowledging, .goesOn rfl rfl trivial fun _ => rfl⟩
    | received bs => cases ha
    | ended => cases ha
    | failed e => cases ha
  | acknowledging =>
    cases answer with
    | ok =>
      cases ha
      exact ⟨.working .closing, .goesOn rfl rfl trivial fun _ => rfl⟩
    | received bs => cases ha
    | ended => cases ha
    | failed e =>
      cases ha
      exact ⟨.ended _, .breaks rfl rfl id fun _ => rfl⟩
  | closing =>
    cases answer with
    | ok =>
      cases ha
      exact ⟨.ended _, .closes rfl rfl trivial fun _ => rfl⟩
    | received bs => cases ha
    | ended => cases ha
    | failed e => cases ha

/-- **What a step does to a handler and to the count.** -/
theorem Stage.step (hs : Stage bufferSize h) (ha : h.prog.answer answer = some prog) :
    Stage bufferSize (h.advance prog) ∧ Move h (h.advance prog) answer := by
  cases hs with
  | starting =>
    cases answer with
    | ok =>
      cases ha
      exact ⟨.working .header, .opens rfl rfl trivial fun _ => rfl⟩
    | received bs => cases ha
    | ended => cases ha
    | failed e => cases ha
  | working hw => exact hw.step ha
  | ended result => cases ha

end

/-! ## Runs -/

namespace Server

variable {s t : Server} {e : ServerEvent}

/-- Every handler is at one of the stages. -/
def Staged (s : Server) : Prop := ∀ h ∈ s.handlers, Stage s.transport.config.bufferSize h

/-- All that a step can do. -/
inductive Stepped (s : Server) : ServerEvent → Server → Prop
  | accept : Stepped s .accept ⟨s.transport,
      s.handlers ++ [⟨serveConnection s.transport.config.bufferSize, false⟩]⟩
  | handle {i : Nat} {answer : Endpoint.Answer TcpError} {h : Handler}
      {prog : Endpoint Effect TcpError Unit} : s.handlers[i]? = some h →
      h.prog.answer answer = some prog →
      Stepped s (.handle i answer) ⟨h.perform s.transport, s.handlers.set i (h.advance prog)⟩

theorem stepped (he : s.step e = some t) : Stepped s e t := by
  cases e with
  | accept =>
    cases he
    exact .accept
  | handle i answer =>
    rw [step] at he
    split at he
    · cases he
    next h hi =>
      split at he
      · cases he
      next prog ha =>
        cases he
        exact .handle hi ha

theorem config_perform (h : Handler) (t : TcpTransport) : (h.perform t).config = t.config := by
  unfold Handler.perform
  split
  · next effect _ _ => cases effect <;> rfl
  · rfl

theorem Staged.step (hs : Staged s) (he : s.step e = some t) : Staged t := by
  cases stepped he with
  | accept =>
    intro h hh
    rcases List.mem_append.1 hh with hh | hh
    · exact hs h hh
    · rw [List.mem_singleton.1 hh]
      exact .starting
  | @handle i answer h prog hi ha =>
    intro h' hh
    have hbuffer := config_perform h s.transport
    dsimp only
    rw [hbuffer]
    rcases List.mem_or_eq_of_mem_set hh with hh | rfl
    · exact hs h' hh
    · exact ((hs h (List.mem_of_getElem? hi)).step ha).1

/-- One handler is replaced. -/
theorem countP_set {handlers : List Handler} {i : Nat} {h : Handler} (hi : handlers[i]? = some h)
    (h' : Handler) : (handlers.set i h').countP Handler.atWork + h.atWork.toNat =
      handlers.countP Handler.atWork + h'.atWork.toNat := by
  obtain ⟨hlt, rfl⟩ := List.getElem?_eq_some_iff.1 hi
  have htoNat (b : Bool) : (if b = true then 1 else 0) = b.toNat := by cases b <;> rfl
  have hle := List.boole_getElem_le_countP (p := Handler.atWork) hlt
  rw [htoNat] at hle
  rw [List.countP_set hlt, htoNat, htoNat]
  omega

/-- **A step keeps the count accurate exactly if it is undisturbed.** -/
theorem accurate_step_iff (hs : Staged s) (hacc : Accurate s) (he : s.step e = some t) :
    Accurate t ↔ Undisturbed s e := by
  change s.transport.activeConnections = s.handlers.countP Handler.atWork at hacc
  show t.transport.activeConnections = t.handlers.countP Handler.atWork ↔ _
  cases stepped he with
  | accept =>
    refine iff_of_true ?_ trivial
    rw [List.countP_append, hacc]
    rfl
  | @handle i answer h prog hi ha =>
    have hsmooth : Undisturbed s (.handle i answer) ↔ Smooth h.prog answer := by
      refine ⟨fun hall => hall h hi, fun hall h' hi' => ?_⟩
      cases hi.symm.trans hi'
      exact hall
    have hcount := countP_set hi (h.advance prog)
    rw [hsmooth]
    dsimp only
    cases ((hs h (List.mem_of_getElem? hi)).step ha).2 with
    | opens hbefore hafter hok hperform =>
      simp only [hbefore, hafter, Bool.toNat_true, Bool.toNat_false] at hcount
      exact iff_of_true (by rw [hperform, hacc]; omega) hok
    | goesOn hbefore hafter hok hperform =>
      simp only [hbefore, hafter, Bool.toNat_true] at hcount
      exact iff_of_true (by rw [hperform, hacc]; omega) hok
    | closes hbefore hafter hok hperform =>
      simp only [hbefore, hafter, Bool.toNat_true, Bool.toNat_false] at hcount
      exact iff_of_true (by rw [hperform, hacc]; omega) hok
    | breaks hbefore hafter hok hperform =>
      simp only [hbefore, hafter, Bool.toNat_true, Bool.toNat_false] at hcount
      exact iff_of_false (by rw [hperform, hacc]; omega) hok

/-- **The count is accurate exactly along the undisturbed runs**: no stream fails or ends early, and
every message is served. -/
theorem always_accurate_iff (config : TcpConfig) (es : List ServerEvent) :
    Lts.Always step Accurate (new config) es ↔ Lts.Meets step Undisturbed (new config) es :=
  Lts.always_iff_meets (I := Staged) (fun _ _ _ hs he => hs.step he)
    (fun _ _ _ hs hacc he => accurate_step_iff hs hacc he) nofun rfl

/-- A connection is accepted and closed by the peer before anything came. -/
def closedEarly : List ServerEvent := [.accept, .handle 0 .ok, .handle 0 .ended]

theorem closedEarly_not_accurate :
    ¬ ∀ (config : TcpConfig) es, Lts.Always step Accurate (new config) es := by
  intro h
  obtain ⟨t, ht, hcount⟩ : ∃ t, Lts.exec step (new ⟨100, 65536⟩) closedEarly = some t ∧
      t.transport.getStats.activeConnections = 1 ∧ t.handlers.countP Handler.atWork = 0 :=
    ⟨_, rfl, rfl, rfl⟩
  have hacc := (h ⟨100, 65536⟩ closedEarly).last ht
  rw [Accurate, hcount.1, hcount.2] at hacc
  cases hacc

end Server

end TensorGrid.Tcp
