import TensorGrid.Lib.Outcome
import TensorGrid.Lib.Lts

/-!
# Two programs and the connection between them

`Rust.Endpoint` is a program at one end of a byte stream: it writes, reads whatever has come, or
reads an exact number of bytes. `Duplex.step` runs two of them against each other, with the bytes
under way in each direction. A label says which side moves and how many bytes a `read` returns.
`Party.step` runs one of them against a stream that is given.
What a side has written stays readable after its program has ended; then comes the end of the
stream.

Every run ends, since each step shortens one of the programs (`wellFounded_step`). A step that does
not depend on the choice of the chunk can be taken before all others (`Ends.sure`), so the result of
a program can be found by following one order of the steps (`Ends`).
-/

namespace Rust

/-- A program at one end of a connection; `κ` is what it does besides. -/
inductive Endpoint (κ ε α : Type)
  | done (result : Outcome ε α)
  | act (k : κ) (next : Endpoint κ ε α)
  | write (bytes : List UInt8) (next : Endpoint κ ε α)
  /-- Up to `n` of the bytes that have come, or none if the stream has ended. -/
  | read (n : Nat) (next : List UInt8 → Endpoint κ ε α)
  /-- `n` bytes, or `none` if the stream ends before. -/
  | readExact (n : Nat) (next : Option (List UInt8) → Endpoint κ ε α)

namespace Endpoint

variable {κ ε α β : Type}

def andThen : Endpoint κ ε α → (α → Endpoint κ ε β) → Endpoint κ ε β
  | .done (.ok a), f => f a
  | .done (.err e), _ => .done (.err e)
  | .done .panic, _ => .done .panic
  | .act k next, f => .act k (andThen next f)
  | .write bytes next, f => .write bytes (andThen next f)
  | .read n next, f => .read n fun bs => andThen (next bs) f
  | .readExact n next, f => .readExact n fun bs => andThen (next bs) f

instance : Monad (Endpoint κ ε) where
  pure a := .done (.ok a)
  bind := andThen

/-- A step that does not use the connection. -/
def lift (x : Outcome ε α) : Endpoint κ ε α := .done x

def perform (k : κ) : Endpoint κ ε Unit := .act k (pure ())

def writeAll (bytes : List UInt8) : Endpoint κ ε Unit := .write bytes (pure ())

/-- `read_exact` with the error at the end of the stream. -/
def readExactly (eof : ε) (n : Nat) : Endpoint κ ε (List UInt8) := .readExact n fun
  | some bs => pure bs
  | none => .done (.err eof)

def isDone : Endpoint κ ε α → Bool
  | .done _ => true
  | .act _ _ | .write _ _ | .read _ _ | .readExact _ _ => false

theorem bind_assoc {γ : Type} (p : Endpoint κ ε α) (f : α → Endpoint κ ε β)
    (g : β → Endpoint κ ε γ) : p >>= f >>= g = p >>= fun a => f a >>= g := by
  show andThen (andThen p f) g = andThen p fun a => andThen (f a) g
  induction p with
  | done result => cases result <;> rfl
  | act k next ih => exact congrArg (Endpoint.act k) ih
  | write bytes next ih => exact congrArg (Endpoint.write bytes) ih
  | read n next ih => exact congrArg (Endpoint.read n) (funext ih)
  | readExact n next ih => exact congrArg (Endpoint.readExact n) (funext ih)

/-- One step, on the bytes that have come and whether the peer has ended: the program, the bytes
left and the bytes written. `chunk` is what a `read` returns of them. -/
def step (chunk : Nat) (inbox : List UInt8) (ended : Bool) :
    Endpoint κ ε α → Option (Endpoint κ ε α × List UInt8 × List UInt8)
  | .done _ => none
  | .act _ next => some (next, inbox, [])
  | .write bytes next => some (next, inbox, bytes)
  | .read n next =>
    if n = 0 ∨ inbox = [] ∧ ended then some (next [], inbox, [])
    else if 0 < chunk ∧ chunk ≤ n ∧ chunk ≤ inbox.length then
      some (next (inbox.take chunk), inbox.drop chunk, [])
    else none
  | .readExact n next =>
    if n ≤ inbox.length then some (next (some (inbox.take n)), inbox.drop n, [])
    else if ended then some (next none, [], [])
    else none

/-- What comes of a step: a write is done, bytes have come, there are no more, or an error. -/
inductive Answer (ε : Type)
  | ok
  | received (bytes : List UInt8)
  | ended
  | failed (e : ε)
deriving DecidableEq, Repr

/-- One step against a stream that answers as it likes. An error ends the program, as `?` does. -/
def answer : Endpoint κ ε α → Answer ε → Option (Endpoint κ ε α)
  | .act _ next, .ok => some next
  | .write _ next, .ok => some next
  | .write _ _, .failed e => some (.done (.err e))
  | .read n next, .received bs => if 0 < bs.length ∧ bs.length ≤ n then some (next bs) else none
  | .read _ next, .ended => some (next [])
  | .read _ _, .failed e => some (.done (.err e))
  | .readExact n next, .received bs => if bs.length = n then some (next (some bs)) else none
  | .readExact _ next, .ended => some (next none)
  | .readExact _ _, .failed e => some (.done (.err e))
  | _, _ => none

/-- `p` is what is left of `q` after a step. -/
inductive Child : Endpoint κ ε α → Endpoint κ ε α → Prop
  | act (k : κ) (next : Endpoint κ ε α) : Child next (.act k next)
  | write (bytes : List UInt8) (next : Endpoint κ ε α) : Child next (.write bytes next)
  | read (n : Nat) (next : List UInt8 → Endpoint κ ε α) (bs : List UInt8) :
      Child (next bs) (.read n next)
  | readExact (n : Nat) (next : Option (List UInt8) → Endpoint κ ε α) (bs : Option (List UInt8)) :
      Child (next bs) (.readExact n next)

theorem wellFounded_child : WellFounded (@Child κ ε α) := by
  refine ⟨fun p => ?_⟩
  induction p with
  | done result => exact ⟨_, nofun⟩
  | act k next ih => exact ⟨_, fun _ h => by cases h; exact ih⟩
  | write bytes next ih => exact ⟨_, fun _ h => by cases h; exact ih⟩
  | read n next ih => exact ⟨_, fun _ h => by cases h; exact ih _⟩
  | readExact n next ih => exact ⟨_, fun _ h => by cases h; exact ih _⟩

section
variable {p p' : Endpoint κ ε α} {chunk : Nat} {inbox inbox' output : List UInt8} {ended : Bool}

theorem child_of_step (h : p.step chunk inbox ended = some (p', inbox', output)) :
    Child p' p := by
  cases p with
  | done result => cases h
  | act k next => cases h; exact .act _ _
  | write bytes next => cases h; exact .write _ _
  | read n next =>
    simp only [step] at h
    split_ifs at h <;> cases h <;> exact .read _ _ _
  | readExact n next =>
    simp only [step] at h
    split_ifs at h <;> cases h <;> exact .readExact _ _ _

/-- A step that is possible while the peer goes on stays so, whatever comes in. -/
theorem step_append (h : p.step chunk inbox false = some (p', inbox', output))
    (more : List UInt8) (ended : Bool) :
    p.step chunk (inbox ++ more) ended = some (p', inbox' ++ more, output) := by
  cases p with
  | done result => cases h
  | act k next => cases h; rfl
  | write bytes next => cases h; rfl
  | read n next =>
    simp only [step, Bool.false_eq_true, and_false, or_false] at h ⊢
    split_ifs at h with hn hchunk
    · cases h
      rw [if_pos (.inl hn)]
    · obtain ⟨hpos, hle, hlen⟩ := hchunk
      have hne : inbox ++ more ≠ [] := by
        rintro heq
        rw [(List.append_eq_nil_iff.1 heq).1, List.length_nil] at hlen
        omega
      cases h
      rw [if_neg (by simp [hn, hne]), if_pos ⟨hpos, hle, by rw [List.length_append]; omega⟩,
        List.take_append_of_le_length hlen, List.drop_append_of_le_length hlen]
  | readExact n next =>
    simp only [step, Bool.false_eq_true, if_false] at h ⊢
    split_ifs at h with hlen
    cases h
    rw [if_pos (by rw [List.length_append]; omega), List.take_append_of_le_length hlen,
      List.drop_append_of_le_length hlen]

/-- A step that is possible with no chunk, while the peer goes on, is the only one. -/
theorem step_sure (h : p.step 0 inbox false = some (p', inbox', output)) (chunk : Nat)
    (ended : Bool) : p.step chunk inbox ended = some (p', inbox', output) := by
  cases p with
  | done result => cases h
  | act k next => exact h
  | write bytes next => exact h
  | read n next =>
    simp only [step, Bool.false_eq_true, and_false, or_false, lt_irrefl, false_and, if_false] at h ⊢
    split_ifs at h with hn
    rw [if_pos (.inl hn), h]
  | readExact n next =>
    simp only [step, Bool.false_eq_true, if_false] at h ⊢
    split_ifs at h with hlen
    rw [if_pos hlen, h]

end

section
variable {n : Nat} {next : List UInt8 → Endpoint κ ε α} {inbox : List UInt8}

/-- A `read` with bytes there returns some beginning of them. -/
theorem of_step_read (hn : n ≠ 0) (hinbox : inbox ≠ []) {chunk : Nat} {ended : Bool}
    {m : Endpoint κ ε α × List UInt8 × List UInt8}
    (h : (Endpoint.read n next).step chunk inbox ended = some m) :
    ∃ bs rest, inbox = bs ++ rest ∧ bs ≠ [] ∧ bs.length ≤ n ∧ m = (next bs, rest, []) := by
  simp only [step, hn, hinbox, false_or, false_and, if_false] at h
  split_ifs at h with hchunk
  cases h
  refine ⟨_, _, (List.take_append_drop chunk inbox).symm, fun hnil => ?_, ?_, rfl⟩
  · have hlen := congrArg List.length hnil
    rw [List.length_take, List.length_nil] at hlen
    omega
  · rw [List.length_take]
    omega

/-- It may return one of them. -/
theorem exists_step_read (next : List UInt8 → Endpoint κ ε α) (hn : n ≠ 0) (hinbox : inbox ≠ [])
    (ended : Bool) :
    ∃ m, (Endpoint.read n next).step 1 inbox ended = some m := by
  refine ⟨(next (inbox.take 1), inbox.drop 1, []), ?_⟩
  simp only [step, hn, hinbox, false_or, false_and, if_false]
  exact if_pos ⟨Nat.one_pos, Nat.pos_of_ne_zero hn, List.length_pos_iff.2 hinbox⟩

end

end Endpoint

/-! ## Connections -/

inductive Side
  | left
  | right
deriving DecidableEq, Repr

/-- A program and the bytes on their way to it. -/
structure Party (κ ε α : Type) where
  prog : Endpoint κ ε α
  inbox : List UInt8

/-! ### One program with its stream -/

namespace Party

variable {κ ε α : Type} {P : Party κ ε α → Prop} {inbox : List UInt8} {n : Nat}
  {next : List UInt8 → Endpoint κ ε α}

/-- The program moves; the inbox is all that the stream brings, up to its end if it has `ended`. -/
def step (ended : Bool) (p : Party κ ε α) (chunk : Nat) : Option (Party κ ε α) :=
  (p.prog.step chunk p.inbox ended).map fun m => ⟨m.1, m.2.1⟩

/-- A `read` while there are bytes. -/
theorem inevitably_read {ended : Bool} (hn : n ≠ 0) (hinbox : inbox ≠ [])
    (h : ∀ bs rest, inbox = bs ++ rest → bs ≠ [] → bs.length ≤ n →
      Lts.Inevitably (step ended) P ⟨next bs, rest⟩) :
    Lts.Inevitably (step ended) P ⟨.read n next, inbox⟩ := by
  obtain ⟨m, hm⟩ := Endpoint.exists_step_read next hn hinbox ended
  refine .next ⟨1, _, Option.map_eq_some_iff.2 ⟨m, hm, rfl⟩⟩ fun chunk p hp => ?_
  obtain ⟨m, hm, rfl⟩ := Option.map_eq_some_iff.1 hp
  obtain ⟨bs, rest, hbs, hne, hlen, rfl⟩ := Endpoint.of_step_read hn hinbox hm
  exact h bs rest hbs hne hlen

/-- A `read` at the end of the stream. -/
theorem inevitably_read_eof (h : Lts.Inevitably (step true) P ⟨next [], []⟩) :
    Lts.Inevitably (step true) P ⟨.read n next, []⟩ := by
  have hstep (chunk : Nat) : step true ⟨.read n next, []⟩ chunk = some ⟨next [], []⟩ := by
    simp [step, Endpoint.step]
  refine .next ⟨0, _, hstep 0⟩ fun chunk p hp => ?_
  obtain rfl := Option.some.inj ((hstep chunk).symm.trans hp)
  exact h

end Party

/-! ### Two of them -/

structure Duplex (κ ε α : Type) where
  left : Party κ ε α
  right : Party κ ε α

namespace Duplex

variable {κ ε α : Type}

def party (d : Duplex κ ε α) : Side → Party κ ε α
  | .left => d.left
  | .right => d.right

def peer (d : Duplex κ ε α) : Side → Party κ ε α
  | .left => d.right
  | .right => d.left

/-- One side has moved, and what it wrote is on its way. -/
def move (d : Duplex κ ε α) (side : Side)
    (m : Endpoint κ ε α × List UInt8 × List UInt8) : Duplex κ ε α :=
  let deliver (p : Party κ ε α) : Party κ ε α := { p with inbox := p.inbox ++ m.2.2 }
  match side with
  | .left => ⟨⟨m.1, m.2.1⟩, deliver d.right⟩
  | .right => ⟨deliver d.left, ⟨m.1, m.2.1⟩⟩

def set (d : Duplex κ ε α) (side : Side) (p : Party κ ε α) : Duplex κ ε α :=
  match side with
  | .left => ⟨p, d.right⟩
  | .right => ⟨d.left, p⟩

theorem move_nil (d : Duplex κ ε α) (side : Side) (prog : Endpoint κ ε α) (inbox : List UInt8) :
    d.move side (prog, inbox, []) = d.set side ⟨prog, inbox⟩ := by
  cases side <;> simp [move, set]

/-- The side moves; a `read` returns `chunk` bytes. -/
def step (d : Duplex κ ε α) (e : Side × Nat) : Option (Duplex κ ε α) :=
  ((d.party e.1).prog.step e.2 (d.party e.1).inbox (d.peer e.1).prog.isDone).map (d.move e.1)

/-- Every run ends. -/
theorem wellFounded_step :
    WellFounded fun d' d : Duplex κ ε α => ∃ e, d.step e = some d' := by
  have hchild : WellFounded (@Endpoint.Child κ ε α) := Endpoint.wellFounded_child
  refine Subrelation.wf (fun {d' d} h => ?_)
    (InvImage.wf (fun d : Duplex κ ε α => (d.left.prog, d.right.prog))
      (hchild.prod_gameAdd hchild))
  obtain ⟨⟨side, chunk⟩, he⟩ := h
  obtain ⟨⟨prog, inbox, output⟩, hm, rfl⟩ := Option.map_eq_some_iff.1 he
  cases side with
  | left => exact .fst (Endpoint.child_of_step hm)
  | right => exact .snd (Endpoint.child_of_step hm)

/-- `d'` is `d` after a step of one side that does not depend on the choice of the chunk, nor on
what the other side does. -/
def Sure (d d' : Duplex κ ε α) : Prop := ∃ side m,
  (d.party side).prog.step 0 (d.party side).inbox false = some m ∧ d' = d.move side m

theorem Sure.step {d d' : Duplex κ ε α} (h : Sure d d') : ∃ e, d.step e = some d' := by
  obtain ⟨side, ⟨prog, inbox, output⟩, hm, rfl⟩ := h
  exact ⟨(side, 0), Option.map_eq_some_iff.2 ⟨_, Endpoint.step_sure hm 0 _, rfl⟩⟩

/-- A program that moves has not ended. -/
theorem isDone_of_step {p : Endpoint κ ε α} {chunk : Nat} {inbox : List UInt8} {ended : Bool}
    {m : Endpoint κ ε α × List UInt8 × List UInt8} (h : p.step chunk inbox ended = some m) :
    p.isDone = false := by
  cases p with
  | done result => cases h
  | _ => rfl

/-- Another step does not disturb a sure one. -/
theorem Sure.diamond (d d' : Duplex κ ε α) (e : Side × Nat) (t : Duplex κ ε α) (h : Sure d d')
    (he : d.step e = some t) : t = d' ∨ ∃ e' t', d'.step e' = some t' ∧ Sure t t' := by
  obtain ⟨side, ⟨prog, inbox, output⟩, hm, rfl⟩ := h
  obtain ⟨side', chunk⟩ := e
  obtain ⟨⟨prog', inbox', output'⟩, hm', rfl⟩ := Option.map_eq_some_iff.1 he
  have hlive := isDone_of_step hm
  have hside := Endpoint.step_append hm output' false
  cases side <;> cases side'
  case left.left | right.right =>
    cases (Endpoint.step_sure hm chunk _).symm.trans hm'
    exact .inl rfl
  case left.right =>
    have hpeer : d.right.prog.step chunk d.right.inbox false = some (prog', inbox', output') :=
      hlive ▸ hm'
    exact .inr ⟨(.right, chunk), ⟨⟨prog, inbox ++ output'⟩, ⟨prog', inbox' ++ output⟩⟩,
      Option.map_eq_some_iff.2 ⟨_, Endpoint.step_append hpeer output _, rfl⟩, .left, _, hside, rfl⟩
  case right.left =>
    have hpeer : d.left.prog.step chunk d.left.inbox false = some (prog', inbox', output') :=
      hlive ▸ hm'
    exact .inr ⟨(.left, chunk), ⟨⟨prog', inbox' ++ output⟩, ⟨prog, inbox ++ output'⟩⟩,
      Option.map_eq_some_iff.2 ⟨_, Endpoint.step_append hpeer output _, rfl⟩, .right, _, hside, rfl⟩

/-! ## Results -/

/-- Whatever the order of the steps and the chunks, the program of the side ends with `r`. -/
def Ends (side : Side) (r : Outcome ε α) (d : Duplex κ ε α) : Prop :=
  Lts.Inevitably step (fun d => (d.party side).prog = .done r) d

section
variable {who : Side} {r r' : Outcome ε α} {d d' : Duplex κ ε α}

/-- A program that has ended stays so. -/
theorem done_step (d : Duplex κ ε α) (e : Side × Nat) (d' : Duplex κ ε α)
    (h : (d.party who).prog = .done r) (he : d.step e = some d') :
    (d'.party who).prog = .done r := by
  obtain ⟨side, chunk⟩ := e
  obtain ⟨⟨prog, inbox, output⟩, hm, rfl⟩ := Option.map_eq_some_iff.1 he
  cases who <;> cases side
  case left.right | right.left => exact h
  case left.left | right.right =>
    have hlive := isDone_of_step hm
    rw [h] at hlive
    cases hlive

/-- There is one result. -/
theorem Ends.unique (h : Ends who r d) (h' : Ends who r' d) : r = r' := by
  obtain ⟨t, ht, ht'⟩ := Lts.Inevitably.exists_both done_step done_step h h'
  exact Endpoint.done.inj (ht.symm.trans ht')

theorem Ends.sure (h : Sure d d') (hends : Ends who r d') : Ends who r d :=
  Lts.Inevitably.of_sure wellFounded_step done_step (fun _ _ => Sure.step) Sure.diamond h hends

end

section
variable {who : Side} {r : Outcome ε α} {d : Duplex κ ε α} (side : Side)

theorem Ends.done (h : (d.party who).prog = .done r) : Ends who r d := .here h

theorem Ends.act {k : κ} {next : Endpoint κ ε α} (hp : (d.party side).prog = .act k next)
    (h : Ends who r (d.set side ⟨next, (d.party side).inbox⟩)) : Ends who r d :=
  h.sure ⟨side, (next, (d.party side).inbox, []), by rw [hp]; rfl, (move_nil _ _ _ _).symm⟩

theorem Ends.write {bytes : List UInt8} {next : Endpoint κ ε α}
    (hp : (d.party side).prog = .write bytes next)
    (h : Ends who r (d.move side (next, (d.party side).inbox, bytes))) : Ends who r d :=
  h.sure ⟨side, _, by rw [hp]; rfl, rfl⟩

theorem Ends.readExact {n : Nat} {next : Option (List UInt8) → Endpoint κ ε α}
    {bs rest : List UInt8} (hp : (d.party side).prog = .readExact n next)
    (hinbox : (d.party side).inbox = bs ++ rest) (hn : bs.length = n)
    (h : Ends who r (d.set side ⟨next (some bs), rest⟩)) : Ends who r d := by
  subst hn
  refine h.sure ⟨side, (next (some bs), rest, []), ?_, (move_nil _ _ _ _).symm⟩
  rw [hp, hinbox]
  simp only [Endpoint.step, List.length_append, Nat.le_add_right, if_true, List.take_left,
    List.drop_left]

/-- A `read` into an empty buffer. -/
theorem Ends.read_zero {next : List UInt8 → Endpoint κ ε α}
    (hp : (d.party side).prog = .read 0 next)
    (h : Ends who r (d.set side ⟨next [], (d.party side).inbox⟩)) : Ends who r d :=
  h.sure ⟨side, (next [], (d.party side).inbox, []), by rw [hp]; rfl, (move_nil _ _ _ _).symm⟩

/-- One side moves while the other one cannot. -/
theorem Ends.alone (hex : ∃ chunk d', d.step (side, chunk) = some d')
    (hpeer : ∀ side' chunk, side' ≠ side → d.step (side', chunk) = none)
    (h : ∀ chunk m, (d.party side).prog.step chunk (d.party side).inbox
      (d.peer side).prog.isDone = some m → Ends who r (d.move side m)) : Ends who r d := by
  obtain ⟨chunk, d', hd'⟩ := hex
  refine .next ⟨(side, chunk), d', hd'⟩ fun e t ht => ?_
  obtain ⟨side', chunk'⟩ := e
  by_cases hside : side' = side
  · subst hside
    obtain ⟨m, hm, rfl⟩ := Option.map_eq_some_iff.1 ht
    exact h chunk' m hm
  · cases (hpeer side' chunk' hside).symm.trans ht

/-- The other side has ended. -/
theorem step_ended (hpeer : (d.peer side).prog.isDone) (side' : Side) (chunk : Nat)
    (hside : side' ≠ side) : d.step (side', chunk) = none := by
  have hprog : ∀ p : Endpoint κ ε α, p.isDone → ∀ inbox ended, p.step chunk inbox ended = none := by
    intro p hp inbox ended
    cases p with
    | done result => rfl
    | _ => cases hp
  cases side <;> cases side'
  case left.left | right.right => exact absurd rfl hside
  case left.right | right.left => exact Option.map_eq_none_iff.2 (hprog _ hpeer _ _)

/-- The other side waits for bytes that have not come. -/
theorem step_waiting {n : Nat} {next : Option (List UInt8) → Endpoint κ ε α}
    (hpeer : (d.peer side).prog = .readExact n next) (hinbox : (d.peer side).inbox.length < n)
    (hlive : (d.party side).prog.isDone = false) (side' : Side) (chunk : Nat)
    (hside : side' ≠ side) : d.step (side', chunk) = none := by
  have hwait : (Endpoint.readExact n next).step chunk (d.peer side).inbox false = none := by
    simp only [Endpoint.step, Nat.not_le.2 hinbox, if_false, Bool.false_eq_true]
  cases side <;> cases side'
  case left.left | right.right => exact absurd rfl hside
  case left.right | right.left =>
    refine Option.map_eq_none_iff.2 ?_
    rw [← hwait, ← hpeer, ← hlive]
    rfl

/-- The stream ends before the bytes asked for. -/
theorem Ends.eof {n : Nat} {next : Option (List UInt8) → Endpoint κ ε α}
    (hp : (d.party side).prog = .readExact n next) (hinbox : (d.party side).inbox.length < n)
    (hpeer : (d.peer side).prog.isDone) (h : Ends who r (d.set side ⟨next none, []⟩)) :
    Ends who r d := by
  have hstep (chunk : Nat) : (d.party side).prog.step chunk (d.party side).inbox
      (d.peer side).prog.isDone = some (next none, [], []) := by
    simp only [hp, hpeer, Endpoint.step, Nat.not_le.2 hinbox, if_false, if_true]
  refine .alone side ⟨0, _, Option.map_eq_some_iff.2 ⟨_, hstep 0, rfl⟩⟩
    (step_ended side hpeer) fun chunk m hm => ?_
  cases (hstep chunk).symm.trans hm
  rwa [move_nil]

/-- A `read` returns some beginning of what has come, while the other side waits for more. -/
theorem Ends.read {n m : Nat} {next : List UInt8 → Endpoint κ ε α}
    {next' : Option (List UInt8) → Endpoint κ ε α} (hp : (d.party side).prog = .read n next)
    (hn : n ≠ 0) (hinbox : (d.party side).inbox ≠ [])
    (hpeer : (d.peer side).prog = .readExact m next') (hwait : (d.peer side).inbox.length < m)
    (h : ∀ bs rest, (d.party side).inbox = bs ++ rest → bs ≠ [] → bs.length ≤ n →
      Ends who r (d.set side ⟨next bs, rest⟩)) : Ends who r d := by
  have hlive : (d.party side).prog.isDone = false := by rw [hp]; rfl
  obtain ⟨m, hm⟩ := Endpoint.exists_step_read next hn hinbox (d.peer side).prog.isDone
  rw [← hp] at hm
  refine .alone side ⟨1, _, Option.map_eq_some_iff.2 ⟨m, hm, rfl⟩⟩
    (step_waiting side hpeer hwait hlive) fun chunk m hm => ?_
  rw [hp] at hm
  obtain ⟨bs, rest, hbs, hne, hlen, rfl⟩ := Endpoint.of_step_read hn hinbox hm
  rw [move_nil]
  exact h bs rest hbs hne hlen

end

end Duplex

end Rust
