import TensorGrid.Lib.RecursiveReader

/-!
# Grammars with values

A grammar `G : α → List UInt8 → Prop` says which words mean which values. `Yields r G`: what `r`
reads is a word of its value. `Recognizes r G` is that and the converse, that `r` reads every word
as what it means; so the outcome of `r` is told by the grammar (`Recognizes.eq_ok_iff`), and the
grammar is unambiguous (`Recognizes.unique`). The rules go along the code of a reader.
-/

namespace Rust

namespace Reader

variable {ε α β : Type}

/-- What `r` reads is a word of the value. -/
def Yields (r : Reader ε α) (G : α → List UInt8 → Prop) : Prop :=
  ∀ bs a rest, r bs = .ok (a, rest) → ∃ w, bs = w ++ rest ∧ G a w

/-- And it reads every word as its value. -/
structure Recognizes (r : Reader ε α) (G : α → List UInt8 → Prop) : Prop where
  yields : Yields r G
  reads : ∀ a w, G a w → Reads r w a

namespace Recognizes

variable {r : Reader ε α} {G : α → List UInt8 → Prop}

/-- **A reader by its grammar.** -/
theorem eq_ok_iff (h : Recognizes r G) {bs rest : List UInt8} {a : α} :
    r bs = .ok (a, rest) ↔ ∃ w, bs = w ++ rest ∧ G a w := by
  constructor
  · exact h.yields bs a rest
  · rintro ⟨w, rfl, hw⟩
    exact h.reads a w hw rest

/-- **A recognized grammar is unambiguous**, and no word begins another. -/
theorem unique (h : Recognizes r G) {a a' : α} {w w' rest rest' : List UInt8} (hw : G a w)
    (hw' : G a' w') (heq : w ++ rest = w' ++ rest') : a = a' ∧ w = w' ∧ rest = rest' := by
  have hread := h.reads a w hw rest
  rw [heq, h.reads a' w' hw' rest'] at hread
  cases hread
  exact ⟨rfl, List.append_cancel_right heq, rfl⟩

end Recognizes

/-! ## Rules -/

variable {G : α → List UInt8 → Prop}

theorem Yields.imp {r : Reader ε α} {G' : α → List UInt8 → Prop} (hr : Yields r G)
    (h : ∀ a w, G a w → G' a w) : Yields r G' := by
  intro bs a rest hread
  obtain ⟨w, rfl, hw⟩ := hr bs a rest hread
  exact ⟨w, rfl, h a w hw⟩

theorem yields_fail (e : ε) : Yields (fail e : Reader ε α) G := by
  rintro bs a rest ⟨⟩

theorem yields_panic : Yields (panic : Reader ε α) G := by
  rintro bs a rest ⟨⟩

theorem Yields.bind {r : Reader ε α} {f : α → Reader ε β} {H : α → β → List UInt8 → Prop}
    (hr : Yields r G) (hf : ∀ a, Yields (f a) (H a)) :
    Yields (r >>= f) fun b w => ∃ a u v, G a u ∧ H a b v ∧ w = u ++ v := by
  intro bs b rest h
  obtain ⟨a, mid, ha, hb⟩ := bind_ok h
  obtain ⟨u, rfl, hu⟩ := hr bs a mid ha
  obtain ⟨v, rfl, hv⟩ := hf a mid b rest hb
  exact ⟨u ++ v, (List.append_assoc _ _ _).symm, a, u, v, hu, hv, rfl⟩

/-- A last step that makes a value of what was read. -/
theorem Yields.map {r : Reader ε α} {H : β → List UInt8 → Prop} (hr : Yields r G) {f : α → β}
    (h : ∀ a w, G a w → H (f a) w) : Yields (r >>= fun a => pure (f a)) H := by
  intro bs b rest hread
  obtain ⟨a, mid, ha, hpure⟩ := bind_ok hread
  cases hpure
  obtain ⟨w, rfl, hw⟩ := hr bs a rest ha
  exact ⟨w, rfl, h a w hw⟩

theorem yields_exact (eof : ε) (n : Nat) :
    Yields (exact eof n) fun bytes w => bytes.length = n ∧ w = bytes := by
  intro bs bytes rest h
  obtain ⟨rfl, hlen⟩ := exact_eq_ok h
  exact ⟨bytes, rfl, hlen, rfl⟩

theorem yields_le (eof : ε) (n : Nat) :
    Yields (le eof n) fun v w => v < 256 ^ n ∧ w = toLE n v := by
  intro bs v rest h
  obtain ⟨rfl, hlt⟩ := le_eq_ok h
  exact ⟨toLE n v, rfl, hlt, rfl⟩

/-- The words of a counted loop, each with its value. -/
def Sequence (G : α → List UInt8 → Prop) (n : Nat) (as : List α) (w : List UInt8) : Prop :=
  ∃ items : List (α × List UInt8), items.length = n ∧ (∀ i ∈ items, G i.1 i.2) ∧
    as = items.map Prod.fst ∧ w = items.flatMap Prod.snd

theorem Sequence.length_eq {n : Nat} {as : List α} {w : List UInt8} (h : Sequence G n as w) :
    as.length = n := by
  obtain ⟨items, hlen, -, rfl, -⟩ := h
  rw [List.length_map, hlen]

theorem Sequence.imp {G' : α → List UInt8 → Prop} {n : Nat} {as : List α} {w : List UInt8}
    (h : Sequence G n as w) (hG : ∀ a w, G a w → G' a w) : Sequence G' n as w := by
  obtain ⟨items, hlen, hitems, has, hw⟩ := h
  exact ⟨items, hlen, fun i hi => hG _ _ (hitems i hi), has, hw⟩

theorem Yields.many {r : Reader ε α} (hr : Yields r G) (n : Nat) :
    Yields (Reader.many r n) (Sequence G n) := by
  induction n with
  | zero =>
    rintro bs as rest ⟨⟩
    exact ⟨[], rfl, [], rfl, by simp, rfl, rfl⟩
  | succ n ih =>
    intro bs as rest h
    obtain ⟨a, mid, ha, h⟩ := bind_ok h
    obtain ⟨as', mid', has, hpure⟩ := bind_ok h
    cases hpure
    obtain ⟨u, rfl, hu⟩ := hr _ _ _ ha
    obtain ⟨v, rfl, items, hlen, hitems, rfl, rfl⟩ := ih _ _ _ has
    refine ⟨u ++ items.flatMap Prod.snd, by simp, (a, u) :: items, ?_, ?_, rfl, rfl⟩
    · rw [List.length_cons, hlen]
    · exact List.forall_mem_cons.2 ⟨hu, hitems⟩

/-- And it reads such a sequence. -/
theorem reads_sequence {r : Reader ε α} {n : Nat} {as : List α} {w : List UInt8}
    (h : Sequence (fun a w => Reads r w a) n as w) : Reads (Reader.many r n) w as := by
  obtain ⟨items, rfl, hitems, rfl, rfl⟩ := h
  exact Reads.many hitems

end Reader

end Rust
