import TensorGrid.Lib.Reader

/-!
# Panics and recursion of readers

`bind_panics` and `many_panics` say where a panic comes from, `Advances r` that there is none and
that every value takes a byte, `Narrows r r'` that `r` does as `r'` or panics. `agree_bind` and
`agree_many` say that a reader depends only on what its parts do on the bytes they meet: the rules
for replacing the recursive call of a reader that counts down its fuel.

`iterate F n` is the reader that calls itself through `F`, at most `n` calls deep; what `F` keeps of
the reader it calls, it has (`iterate_forall`). `recursive F` is the one without a limit, where `F`
only calls it on shorter inputs (`Descends`): it satisfies `recursive F = F (recursive F)`, panics
only if `F` itself does, and `iterate F n` does as it or panics (`Descends.narrows_iterate`).
-/

namespace Rust

namespace Reader

variable {ε α β : Type}

/-! ## Where a panic comes from -/

theorem bind_panics {r : Reader ε α} {f : α → Reader ε β} {bs : List UInt8} :
    (r >>= f) bs = .panic ↔
      r bs = .panic ∨ ∃ a rest, r bs = .ok (a, rest) ∧ f a rest = .panic := by
  constructor
  · intro h
    have h' : andThen r f bs = .panic := h
    unfold andThen at h'
    split at h'
    · next a rest heq => exact .inr ⟨a, rest, heq, h'⟩
    · cases h'
    · next heq => exact .inl heq
  · rintro (h | ⟨a, rest, ha, h⟩)
    · show andThen r f bs = .panic
      rw [andThen, h]
    · exact (bind_eq ha).trans h

/-- A step that only makes a value of what was read. -/
theorem map_panics {r : Reader ε α} {f : α → β} {bs : List UInt8} :
    (r >>= fun a => pure (f a)) bs = .panic ↔ r bs = .panic := by
  rw [bind_panics]
  refine ⟨?_, .inl⟩
  rintro (h | ⟨a, rest, -, h⟩)
  · exact h
  · cases h

/-- A panic in a round behind rounds that pass. -/
theorem Passes.many_panics {r : Reader ε α} {n : Nat} {words : List (List UInt8)}
    (h : ∀ w ∈ words, ∀ rest, Passes r (w ++ rest) rest) (hlt : words.length < n)
    {bs : List UInt8} (hbs : r bs = .panic) : Reader.many r n (words.flatten ++ bs) = .panic := by
  induction words generalizing n with
  | nil =>
    obtain ⟨n, rfl⟩ : ∃ m, n = m + 1 := ⟨n - 1, by omega⟩
    exact bind_panics.2 (.inl hbs)
  | cons w words ih =>
    obtain ⟨n, rfl⟩ : ∃ m, n = m + 1 := ⟨n - 1, by omega⟩
    rw [List.flatten_cons, List.append_assoc]
    refine (h w (.head _) _).panics fun a => map_panics.2 (ih (fun v hv => h v (.tail _ hv)) ?_)
    exact Nat.lt_of_succ_lt_succ hlt

/-- A counted loop over encodings panics if one of them makes it, and the others pass. -/
theorem many_panics_of_mem {γ : Type} {r : Reader ε α} {bytes : γ → List UInt8} {xs : List γ}
    (h : ∀ x ∈ xs, ∀ rest, Passes r (bytes x ++ rest) rest) {x : γ} (hx : x ∈ xs)
    (hpanic : ∀ rest, r (bytes x ++ rest) = .panic) (rest : List UInt8) :
    Reader.many r xs.length (xs.flatMap bytes ++ rest) = .panic := by
  obtain ⟨before, after, rfl⟩ := List.append_of_mem hx
  have hbefore : ∀ w ∈ before.map bytes, ∀ rest, Passes r (w ++ rest) rest := by
    intro w hw
    obtain ⟨y, hy, rfl⟩ := List.mem_map.1 hw
    exact h y (List.mem_append_left _ hy)
  have hlt : (before.map bytes).length < (before ++ x :: after).length := by simp
  rw [List.flatMap_append, List.flatMap_cons, List.append_assoc, List.append_assoc,
    List.flatMap_def]
  exact Passes.many_panics hbefore hlt (hpanic _)

/-- A counted loop panics in the first round that does. -/
theorem many_panics {r : Reader ε α} {n : Nat} {bs : List UInt8} :
    Reader.many r n bs = .panic ↔
      ∃ k < n, ∃ as rest, Reader.many r k bs = .ok (as, rest) ∧ r rest = .panic := by
  induction n generalizing bs with
  | zero => exact ⟨nofun, by rintro ⟨k, hk, -⟩; omega⟩
  | succ n ih =>
    rw [Reader.many, bind_panics]
    constructor
    · rintro (h | ⟨a, mid, ha, h⟩)
      · exact ⟨0, Nat.succ_pos n, [], bs, rfl, h⟩
      · obtain ⟨k, hk, as, rest, has, h⟩ := ih.1 (map_panics.1 h)
        refine ⟨k + 1, Nat.succ_lt_succ hk, a :: as, rest, ?_, h⟩
        exact (bind_eq ha).trans (bind_eq has)
    · rintro ⟨k, hk, as, rest, has, h⟩
      cases k with
      | zero =>
        cases has
        exact .inl h
      | succ k =>
        obtain ⟨a, mid, ha, has⟩ := bind_ok has
        obtain ⟨as', mid', has', hpure⟩ := bind_ok has
        cases hpure
        refine .inr ⟨a, mid, ha, map_panics.2 (ih.2 ?_)⟩
        exact ⟨k, Nat.lt_of_succ_lt_succ hk, as', rest, has', h⟩

def NeverPanics (r : Reader ε α) : Prop := ∀ bs, r bs ≠ .panic

theorem neverPanics_pure (a : α) : NeverPanics (pure a : Reader ε α) := nofun

theorem neverPanics_fail (e : ε) : NeverPanics (fail e : Reader ε α) := nofun

theorem neverPanics_exact (eof : ε) (n : Nat) : NeverPanics (exact eof n) := by
  intro bs
  unfold exact
  split <;> exact nofun

theorem NeverPanics.bind {r : Reader ε α} {f : α → Reader ε β} (hr : NeverPanics r)
    (hf : ∀ a, NeverPanics (f a)) : NeverPanics (r >>= f) := by
  intro bs h
  obtain h | ⟨a, rest, -, h⟩ := bind_panics.1 h
  · exact hr bs h
  · exact hf a rest h

theorem neverPanics_le (eof : ε) (n : Nat) : NeverPanics (le eof n) :=
  (neverPanics_exact eof n).bind fun _ => neverPanics_pure _

theorem NeverPanics.many {r : Reader ε α} (hr : NeverPanics r) (n : Nat) :
    NeverPanics (Reader.many r n) := by
  intro bs h
  obtain ⟨k, -, as, rest, -, h⟩ := many_panics.1 h
  exact hr rest h

/-- `r` panics only where `q` does. -/
def PanicsOnly (r : Reader ε α) (q : Reader ε β) : Prop := ∀ bs, r bs = .panic → q bs = .panic

theorem NeverPanics.panicsOnly {r : Reader ε α} (h : NeverPanics r) (q : Reader ε β) :
    PanicsOnly r q := fun bs hr => absurd hr (h bs)

theorem panicsOnly_map (q : Reader ε α) (f : α → β) :
    PanicsOnly (q >>= fun a => pure (f a)) q := fun _ h => map_panics.1 h

/-- The reader takes a byte or fails. -/
def Advances (r : Reader ε α) : Prop :=
  ∀ bs, (∃ a rest, r bs = .ok (a, rest) ∧ rest.length < bs.length) ∨ ∃ e, r bs = .err e

theorem NeverPanics.advances {r : Reader ε α} {cost : α → Nat} (hr : NeverPanics r)
    (hpays : Pays r cost) (hcost : ∀ a, 0 < cost a) : Advances r := by
  intro bs
  cases h : r bs with
  | ok v =>
    have hpaid := hpays bs v.1 v.2 h
    have hpos := hcost v.1
    exact .inl ⟨v.1, v.2, rfl, by omega⟩
  | err e => exact .inr ⟨e, rfl⟩
  | panic => exact absurd h (hr bs)

/-- `r` does as `r'`, or panics. -/
def Narrows (r r' : Reader ε α) : Prop := ∀ bs, r bs = r' bs ∨ r bs = .panic

theorem Narrows.refl (r : Reader ε α) : Narrows r r := fun _ => .inl rfl

theorem Narrows.bind {r r' : Reader ε α} {f f' : α → Reader ε β} (hr : Narrows r r')
    (hf : ∀ a, Narrows (f a) (f' a)) : Narrows (r >>= f) (r' >>= f') := by
  intro bs
  obtain h | h := hr bs
  · cases hv : r' bs with
    | ok v =>
      obtain ⟨a, rest⟩ := v
      rw [bind_eq (h.trans hv), bind_eq hv]
      exact hf a rest
    | err e => exact .inl ((bind_err (h.trans hv)).trans (bind_err hv).symm)
    | panic => exact .inr (bind_panics.2 (.inl (h.trans hv)))
  · exact .inr (bind_panics.2 (.inl h))

/-- A first step that reads nothing and may panic. -/
theorem Narrows.skip {r : Reader ε Unit} {f f' : Unit → Reader ε β}
    (hr : Narrows r (pure ())) (hf : ∀ a, Narrows (f a) (f' a)) : Narrows (r >>= f) (f' ()) :=
  hr.bind hf

theorem Narrows.many {r r' : Reader ε α} (hr : Narrows r r') (n : Nat) :
    Narrows (Reader.many r n) (Reader.many r' n) := by
  induction n with
  | zero => exact .refl _
  | succ n ih => exact hr.bind fun a => ih.bind fun as => .refl _

/-! ## Readers that agree -/

theorem agree_bind {r : Reader ε α} {f g : α → Reader ε β} {bs : List UInt8}
    (h : ∀ a rest, r bs = .ok (a, rest) → f a rest = g a rest) : (r >>= f) bs = (r >>= g) bs := by
  show andThen r f bs = andThen r g bs
  unfold andThen
  split
  · next a rest heq => exact h a rest heq
  · rfl
  · rfl

theorem agree_bind_left {r r' : Reader ε α} {f : α → Reader ε β} {bs : List UInt8}
    (h : r bs = r' bs) : (r >>= f) bs = (r' >>= f) bs := by
  show andThen r f bs = andThen r' f bs
  rw [andThen, andThen, h]

/-- Loops agree if their bodies do on all shorter inputs. -/
theorem agree_many {r r' : Reader ε α} (hr : Shrinks r) {k : Nat}
    (h : ∀ bs : List UInt8, bs.length ≤ k → r bs = r' bs) (n : Nat) {bs : List UInt8}
    (hbs : bs.length ≤ k) : many r n bs = many r' n bs := by
  induction n generalizing bs with
  | zero => rfl
  | succ n ih =>
    rw [many, many, ← agree_bind_left (h bs hbs)]
    refine agree_bind fun a rest ha => agree_bind_left (ih ?_)
    exact (hr bs a rest ha).trans hbs

/-! ## Recursive readers -/

section
variable {ι : Type} {F : (ι → Reader ε α) → ι → Reader ε α}

/-- At most `n` levels of calls. -/
def iterate (F : (ι → Reader ε α) → ι → Reader ε α) : Nat → ι → Reader ε α
  | 0, _ => panic
  | n + 1, i => F (iterate F n) i

/-- As many levels as there are bytes, and one more. -/
def recursive (F : (ι → Reader ε α) → ι → Reader ε α) (i : ι) : Reader ε α := fun bs =>
  iterate F (bs.length + 1) i bs

/-- `F` never grows the input, and calls its argument on shorter inputs only. -/
structure Descends (F : (ι → Reader ε α) → ι → Reader ε α) : Prop where
  shrinks : ∀ f, (∀ j, Shrinks (f j)) → ∀ i, Shrinks (F f i)
  agree : ∀ f g, (∀ j, Shrinks (f j)) → ∀ i bs,
    (∀ j, ∀ cs : List UInt8, cs.length < bs.length → f j cs = g j cs) → F f i bs = F g i bs

/-- What a call keeps, all levels of calls keep. -/
theorem iterate_forall {P : ι → Reader ε α → Prop} (hpanic : ∀ i, P i panic)
    (hF : ∀ f, (∀ j, P j (f j)) → ∀ i, P i (F f i)) (n : Nat) (i : ι) : P i (iterate F n i) := by
  induction n generalizing i with
  | zero => exact hpanic i
  | succ n ih => exact hF _ ih i

theorem iterate_inv {P : Reader ε α → Prop} (hpanic : P panic)
    (hF : ∀ f, (∀ j, P (f j)) → ∀ i, P (F f i)) (n : Nat) (i : ι) : P (iterate F n i) :=
  iterate_forall (P := fun _ => P) (fun _ => hpanic) hF n i

theorem accepts_panic {L : List UInt8 → Prop} : Accepts (panic : Reader ε α) L := by
  rintro bs a rest ⟨⟩

/-- Levels beyond the number of bytes make no difference. -/
theorem Descends.agree_iterate (hF : Descends F) {n n' : Nat} (i : ι) {bs : List UInt8}
    (h : bs.length < n) (h' : bs.length < n') : iterate F n i bs = iterate F n' i bs := by
  induction n generalizing n' i bs with
  | zero => omega
  | succ n ih =>
    obtain ⟨n', rfl⟩ : ∃ k, n' = k + 1 := ⟨n' - 1, by omega⟩
    refine hF.agree _ _ (iterate_inv shrinks_panic hF.shrinks n) i bs fun j cs hcs => ih j ?_ ?_
    · omega
    · omega

theorem Descends.recursive_eq (hF : Descends F) : recursive F = F (recursive F) := by
  funext i bs
  refine hF.agree _ _ (iterate_inv shrinks_panic hF.shrinks _) i bs fun j cs hcs => ?_
  exact hF.agree_iterate j hcs (Nat.lt_succ_self _)

theorem pays_recursive {cost : α → Nat}
    (h : ∀ f, (∀ j, Pays (f j) cost) → ∀ i, Pays (F f i) cost) (i : ι) :
    Pays (recursive F i) cost := by
  have hpanic : Pays (panic : Reader ε α) cost := by
    rintro bs a rest ⟨⟩
  intro bs
  exact iterate_inv (P := fun r => Pays r cost) hpanic h _ i bs

/-- Levels that run out, or whose steps may panic, do as the recursive reader or panic. -/
theorem Descends.narrows_iterate {F' : (ι → Reader ε α) → ι → Reader ε α} (hF' : Descends F')
    (h : ∀ f f', (∀ j, Narrows (f j) (f' j)) → ∀ i, Narrows (F f i) (F' f' i)) (n : Nat) (i : ι) :
    Narrows (iterate F n i) (recursive F' i) := by
  have hlevels : ∀ n m, n ≤ m → ∀ i, Narrows (iterate F n i) (iterate F' m i) := by
    intro n
    induction n with
    | zero => exact fun m _ i bs => .inr rfl
    | succ n ih =>
      intro m hnm i
      obtain ⟨m, rfl⟩ : ∃ k, m = k + 1 := ⟨m - 1, by omega⟩
      exact h _ _ (ih m (Nat.le_of_succ_le_succ hnm)) i
  intro bs
  have hmax := hlevels n (max n (bs.length + 1)) (le_max_left _ _) i bs
  rwa [hF'.agree_iterate i (by omega) (Nat.lt_succ_self bs.length)] at hmax

/-- The levels never run out: a panic of a call is one of `F`, or of a call on a shorter input. -/
theorem Descends.recursive_not_panic (hF : Descends F)
    (hpanic : ∀ f : ι → Reader ε α, (∀ j, Shrinks (f j)) → ∀ i bs, F f i bs = .panic →
      ∃ j, ∃ cs : List UInt8, cs.length < bs.length ∧ f j cs = .panic) (i : ι)
    (bs : List UInt8) : recursive F i bs ≠ .panic := by
  have hiterate : ∀ n i, ∀ bs : List UInt8, bs.length < n → iterate F n i bs ≠ .panic := by
    intro n
    induction n with
    | zero => intro i bs h; omega
    | succ n ih =>
      intro i bs h hp
      obtain ⟨j, cs, hcs, hj⟩ := hpanic _ (iterate_inv shrinks_panic hF.shrinks n) i bs hp
      exact ih j cs (by omega) hj
  exact hiterate _ i bs (Nat.lt_succ_self _)

end

end Reader

end Rust
