import TensorGrid.Lib.Bytes

/-!
# Streams that come in pieces

Each read of a stream returns as much as there is and fits: a stream is the list of its pieces, cut
anywhere, and `readExact` reads until its buffer is full. `PieceReader.Reads p bs a` says that `p`
takes exactly the bytes `bs`, however they and what follows them are cut, and returns `a`; its rules
are those of `Reader.Reads`. `PieceReader.PanicsOn p L` says that `p` panics on the streams of the
language `L` and on no others, however they are cut.
-/

namespace Rust

/-- The value and the pieces left. -/
def PieceReader (ε α : Type) : Type := List (List UInt8) → Outcome ε (α × List (List UInt8))

namespace PieceReader

variable {ε α β : Type}

def andThen (p : PieceReader ε α) (f : α → PieceReader ε β) : PieceReader ε β := fun ps =>
  match p ps with
  | .ok (a, rest) => f a rest
  | .err e => .err e
  | .panic => .panic

instance : Monad (PieceReader ε) where
  pure a := fun ps => .ok (a, ps)
  bind := andThen

/-- A step that reads nothing. -/
def lift (x : Outcome ε α) : PieceReader ε α := fun ps => x >>= fun a => .ok (a, ps)

/-- Reads until a buffer of `n` bytes is full, or `none` at the end of the stream. -/
def fill : List (List UInt8) → Nat → Option (List UInt8 × List (List UInt8))
  | [], n => if n = 0 then some ([], []) else none
  | p :: ps, n =>
    if n ≤ p.length then some (p.take n, p.drop n :: ps)
    else (fill ps (n - p.length)).map fun r => (p ++ r.1, r.2)

/-- `read_exact` on a buffer of `n` bytes. If the stream ends before, `eof` is the error by the number
of bytes that there were. -/
def readExact (eof : Nat → ε) (n : Nat) : PieceReader ε (List UInt8) := fun ps =>
  match fill ps n with
  | some r => .ok r
  | none => .err (eof ps.flatten.length)

/-! ## Exact reads -/

def Reads (p : PieceReader ε α) (bs : List UInt8) (a : α) : Prop :=
  ∀ ps rest, ps.flatten = bs ++ rest → ∃ ps', p ps = .ok (a, ps') ∧ ps'.flatten = rest

theorem reads_pure (a : α) : Reads (pure a : PieceReader ε α) [] a := by
  intro ps rest hps
  exact ⟨ps, rfl, hps⟩

theorem Reads.bind {p : PieceReader ε α} {f : α → PieceReader ε β} {bs cs : List UInt8} {a : α}
    {b : β} (hp : Reads p bs a) (hf : Reads (f a) cs b) : Reads (p >>= f) (bs ++ cs) b := by
  intro ps rest hps
  rw [List.append_assoc] at hps
  obtain ⟨ps', hp', hps'⟩ := hp ps _ hps
  obtain ⟨qs, hf', hqs⟩ := hf ps' rest hps'
  refine ⟨qs, ?_, hqs⟩
  show andThen p f ps = _
  rw [andThen, hp']
  exact hf'

/-- A first step that reads nothing. -/
theorem Reads.skip {p : PieceReader ε α} {f : α → PieceReader ε β} {cs : List UInt8} {a : α} {b : β}
    (hp : Reads p [] a) (hf : Reads (f a) cs b) : Reads (p >>= f) cs b :=
  hp.bind hf

/-- A last step whose value is returned with others. -/
theorem Reads.last {p : PieceReader ε α} {f : α → β} {bs : List UInt8} {a : α}
    (hp : Reads p bs a) : Reads (do let x ← p; pure (f x)) bs (f a) := by
  rw [← List.append_nil bs]
  exact hp.bind (reads_pure _)

theorem reads_lift {x : Outcome ε α} {a : α} (h : x = .ok a) : Reads (lift x) [] a := by
  intro ps rest hps
  refine ⟨ps, ?_, hps⟩
  rw [lift, h]
  rfl

/-- The pieces fill the buffer one after the other. -/
theorem fill_append {ps : List (List UInt8)} {bs rest : List UInt8}
    (hps : ps.flatten = bs ++ rest) :
    ∃ ps', fill ps bs.length = some (bs, ps') ∧ ps'.flatten = rest := by
  induction ps generalizing bs with
  | nil =>
    obtain ⟨rfl, rfl⟩ := List.append_eq_nil_iff.1 hps.symm
    exact ⟨[], rfl, rfl⟩
  | cons p ps ih =>
    rw [List.flatten_cons] at hps
    rw [fill]
    by_cases hfits : bs.length ≤ p.length
    · have htake : p.take bs.length = bs := by
        have := congrArg (List.take bs.length) hps
        rwa [List.take_append_of_le_length hfits, List.take_left] at this
      have hdrop : p.drop bs.length ++ ps.flatten = rest := by
        have := congrArg (List.drop bs.length) hps
        rwa [List.drop_append_of_le_length hfits, List.drop_left] at this
      rw [if_pos hfits, htake]
      exact ⟨_, rfl, by rwa [List.flatten_cons]⟩
    · obtain ⟨cs, rfl⟩ : ∃ cs, bs = p ++ cs := by
        have hprefix : p <+: bs ++ rest := ⟨ps.flatten, hps⟩
        obtain ⟨cs, hcs⟩ := List.prefix_of_prefix_length_le hprefix (List.prefix_append _ _)
          (by omega)
        exact ⟨cs, hcs.symm⟩
      rw [List.append_assoc, List.append_cancel_left_eq] at hps
      obtain ⟨ps', hfill, hps'⟩ := ih hps
      rw [if_neg hfits, List.length_append, Nat.add_sub_cancel_left, hfill]
      exact ⟨ps', rfl, hps'⟩

theorem reads_readExact (eof : Nat → ε) (bs : List UInt8) : Reads (readExact eof bs.length) bs bs := by
  intro ps rest hps
  obtain ⟨ps', hfill, hps'⟩ := fill_append hps
  exact ⟨ps', by rw [readExact, hfill], hps'⟩

/-! ## Panics -/

def PanicsOn (p : PieceReader ε α) (L : List UInt8 → Prop) : Prop :=
  ∀ ps, p ps = .panic ↔ L ps.flatten

theorem PanicsOn.congr {p : PieceReader ε α} {L L' : List UInt8 → Prop} (h : PanicsOn p L)
    (hL : ∀ bs, L bs ↔ L' bs) : PanicsOn p L' := fun ps => (h ps).trans (hL ps.flatten)

theorem panicsOn_pure (a : α) : PanicsOn (pure a : PieceReader ε α) fun _ => False := by
  refine fun ps => iff_of_false (fun h => ?_) not_false
  cases h

/-- A buffer is filled from the front of the stream. -/
theorem fill_eq_some {ps ps' : List (List UInt8)} {n : Nat} {bs : List UInt8}
    (h : fill ps n = some (bs, ps')) : ps.flatten = bs ++ ps'.flatten ∧ bs.length = n := by
  induction ps generalizing n bs ps' with
  | nil =>
    rw [fill] at h
    split at h
    · next hn =>
      cases h
      exact ⟨rfl, hn.symm⟩
    · cases h
  | cons p ps ih =>
    rw [fill] at h
    split at h
    · next hfits =>
      cases h
      refine ⟨?_, List.length_take_of_le hfits⟩
      rw [List.flatten_cons, List.flatten_cons, ← List.append_assoc, List.take_append_drop]
    · next hshort =>
      obtain ⟨⟨cs, qs⟩, hcs, ⟨⟩⟩ := Option.map_eq_some_iff.1 h
      obtain ⟨hflatten, hlength⟩ := ih hcs
      refine ⟨?_, ?_⟩
      · rw [List.flatten_cons, hflatten, List.append_assoc]
      · rw [List.length_append, hlength]
        omega

theorem readExact_eq_ok {eof : Nat → ε} {n : Nat} {ps ps' : List (List UInt8)} {bs : List UInt8} :
    readExact eof n ps = .ok (bs, ps') ↔ fill ps n = some (bs, ps') := by
  unfold readExact
  cases fill ps n <;> simp

theorem bind_panics {p : PieceReader ε α} {f : α → PieceReader ε β} {ps : List (List UInt8)} :
    (p >>= f) ps = .panic ↔ p ps = .panic ∨ ∃ a rest, p ps = .ok (a, rest) ∧ f a rest = .panic := by
  show andThen p f ps = .panic ↔ _
  unfold andThen
  cases p ps with
  | ok r =>
    obtain ⟨a, rest⟩ := r
    simp
  | err e => simp
  | panic => simp

/-- To read exactly is no panic; what comes after it may be one. -/
theorem PanicsOn.readExact_bind {eof : Nat → ε} {n : Nat} {f : List UInt8 → PieceReader ε β}
    {L : List UInt8 → List UInt8 → Prop} (hf : ∀ bs, PanicsOn (f bs) (L bs)) :
    PanicsOn (readExact eof n >>= f) fun s =>
      ∃ bs rest, s = bs ++ rest ∧ bs.length = n ∧ L bs rest := by
  intro ps
  have hread : readExact eof n ps ≠ .panic := by
    unfold readExact
    split <;> exact fun h => by cases h
  simp only [bind_panics, hread, false_or, readExact_eq_ok]
  constructor
  · rintro ⟨bs, ps', hfill, hpanic⟩
    obtain ⟨hflatten, hlength⟩ := fill_eq_some hfill
    exact ⟨bs, ps'.flatten, hflatten, hlength, (hf bs ps').1 hpanic⟩
  · rintro ⟨bs, rest, hflatten, rfl, hpanic⟩
    obtain ⟨ps', hfill, rfl⟩ := fill_append hflatten
    exact ⟨bs, ps', hfill, (hf bs ps').2 hpanic⟩

theorem PanicsOn.lift_bind {x : Outcome ε α} {f : α → PieceReader ε β}
    {L : α → List UInt8 → Prop} (hf : ∀ a, PanicsOn (f a) (L a)) :
    PanicsOn (lift x >>= f) fun s => x = .panic ∨ ∃ a, x = .ok a ∧ L a s := by
  intro ps
  rw [bind_panics]
  cases x with
  | ok a => simp [lift, hf a ps]
  | err e => simp [lift]
  | panic => simp [lift]

end PieceReader

end Rust
