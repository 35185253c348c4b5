import TensorGrid.Lib.Outcome

/-!
# Sums and products that overflow

The numbers of a machine type wrap at `w` (`Wraps toNat w`): a sum of them is the exact one if and
only if that is below `w` (`Wraps.sum_map_eq_iff`).

Whether an overflow wraps or panics depends on the build. `u64Op` and `u32Op` are the result of an
operation by its exact result, `sumU64` and `productU64` the loops of `iter().sum()` and
`iter().product()`. A build with overflow checks returns exact results only: `sumU64_eq_ok`, and
`productU64_eq_ok`, where what comes after the first 0 cannot overflow. What it returns, every other
build returns too (`sumU64_of_checked`, `productU64_of_checked`).
-/

namespace Rust

/-! ## Wrapping -/

/-- Addition wraps at `w`. -/
structure Wraps {M : Type} [AddMonoid M] (toNat : M → Nat) (w : Nat) : Prop where
  zero : toNat 0 = 0
  add (a b : M) : toNat (a + b) = (toNat a + toNat b) % w
  lt (a : M) : toNat a < w

theorem wraps_uInt32 : Wraps UInt32.toNat (2 ^ 32) := ⟨rfl, UInt32.toNat_add, UInt32.toNat_lt⟩

theorem wraps_uInt64 : Wraps UInt64.toNat (2 ^ 64) := ⟨rfl, UInt64.toNat_add, UInt64.toNat_lt⟩

namespace Wraps

variable {M : Type} [AddMonoid M] {toNat : M → Nat} {w : Nat} (h : Wraps toNat w)
include h

theorem mod_eq (a : M) : toNat a % w = toNat a := Nat.mod_eq_of_lt (h.lt a)

/-- **What has wrapped is exact** if and only if the exact number fits. -/
theorem eq_iff_lt {a : M} {n : Nat} (ha : toNat a = n % w) : toNat a = n ↔ n < w := by
  refine ⟨fun heq => ?_, fun hlt => ?_⟩
  · rw [← heq]
    exact h.lt a
  · rw [ha, Nat.mod_eq_of_lt hlt]

variable {α : Type} {f : α → M}

/-- A sum of numbers that may have wrapped themselves. -/
theorem sum_map {g : α → Nat} (hfg : ∀ a, toNat (f a) = g a % w) (as : List α) :
    toNat (as.map f).sum = (as.map g).sum % w := by
  induction as with
  | nil => rw [List.map_nil, List.sum_nil, h.zero, List.map_nil, List.sum_nil, Nat.zero_mod]
  | cons a as ih =>
    rw [List.map_cons, List.sum_cons, h.add, hfg, ih, List.map_cons, List.sum_cons, ← Nat.add_mod]

theorem sum_map_eq_iff (as : List α) : toNat (as.map f).sum = (as.map fun a => toNat (f a)).sum ↔
    (as.map fun a => toNat (f a)).sum < w :=
  h.eq_iff_lt (h.sum_map (fun a => (h.mod_eq (f a)).symm) as)

end Wraps

/-! ## Operations -/

section
variable {ε α : Type} (overflowChecks : Bool)

/-- The result of an operation on `u64`s whose exact result is `n`. -/
def u64Op (n : Nat) : Outcome ε UInt64 :=
  if overflowChecks ∧ UInt64.size ≤ n then .panic else .ok (UInt64.ofNat n)

/-- The result of an operation on `u32`s whose exact result is `n`. -/
def u32Op (n : Nat) : Outcome ε UInt32 :=
  if overflowChecks ∧ UInt32.size ≤ n then .panic else .ok (UInt32.ofNat n)

/-- `as.iter().map(f).sum()`. -/
def sumU64 (f : α → Outcome ε UInt64) (as : List α) : Outcome ε UInt64 :=
  as.foldlM (fun total a => do
    let n ← f a
    u64Op overflowChecks (total.toNat + n.toNat)) 0

/-- `ns.iter().product()`. -/
def productU64 (ns : List UInt64) : Outcome ε UInt64 :=
  ns.foldlM (fun product n => u64Op overflowChecks (product.toNat * n.toNat)) 1

end

/-- The product of the numbers before the first 0. -/
def leadingProduct (ns : List UInt64) : Nat := ((ns.takeWhile (· ≠ 0)).map UInt64.toNat).prod

section
variable {ε α : Type} {m : UInt64}

theorem u64Op_eq_ok {n : Nat} : (u64Op true n : Outcome ε UInt64) = .ok m ↔ m.toNat = n := by
  have hm := m.toNat_lt
  unfold u64Op
  split
  · next h =>
    have hsize : 2 ^ 64 ≤ n := h.2
    refine iff_of_false (fun h => by cases h) fun h => ?_
    omega
  · next h =>
    have hsize : n < 2 ^ 64 := not_le.1 fun hle => h ⟨rfl, hle⟩
    rw [Outcome.ok.injEq]
    refine ⟨fun h => ?_, fun h => ?_⟩
    · rw [← h, UInt64.toNat_ofNat_of_lt' hsize]
    · rw [← h, UInt64.ofNat_toNat]

theorem u64Op_of_checked {n : Nat} (h : (u64Op true n : Outcome ε UInt64) = .ok m)
    (overflowChecks : Bool) : (u64Op overflowChecks n : Outcome ε UInt64) = .ok m := by
  have hlt : ¬ UInt64.size ≤ n := by
    rw [← u64Op_eq_ok.1 h]
    exact not_le.2 m.toNat_lt
  rw [← h, u64Op, u64Op, if_neg fun h => hlt h.2, if_neg fun h => hlt h.2]

theorem u64Op_of_lt (overflowChecks : Bool) {n : Nat} (h : n < 2 ^ 64) :
    (u64Op overflowChecks n : Outcome ε UInt64) = .ok (UInt64.ofNat n) :=
  u64Op_of_checked (u64Op_eq_ok.2 (UInt64.toNat_ofNat_of_lt' h)) overflowChecks

/-- An operation on `u32`s returns, if its result fits or nothing is checked. -/
theorem u32Op_returns_iff {overflowChecks : Bool} {n : Nat} :
    (∃ m, (u32Op overflowChecks n : Outcome ε UInt32) = .ok m) ↔
      (overflowChecks = true → n < 2 ^ 32) := by
  unfold u32Op
  split
  · next h =>
    refine iff_of_false (fun ⟨_, hm⟩ => by cases hm) fun hlt => ?_
    exact absurd (hlt h.1) (not_lt.2 h.2)
  · next h => exact iff_of_true ⟨_, rfl⟩ fun hchecks => not_le.1 fun hle => h ⟨hchecks, hle⟩

/-! ## Sums -/

theorem foldlM_sum_eq_ok {f : α → Outcome ε UInt64} {P : α → Prop} {v : α → Nat} {as : List α}
    (hf : ∀ a ∈ as, ∀ n, f a = .ok n ↔ P a ∧ n.toNat = v a) (total : UInt64) :
    as.foldlM (fun total a => do
      let n ← f a
      u64Op true (total.toNat + n.toNat)) total = .ok m ↔
      (∀ a ∈ as, P a) ∧ m.toNat = total.toNat + (as.map v).sum := by
  induction as generalizing total with
  | nil => simp [← UInt64.toNat_inj, eq_comm]
  | cons a as ih =>
    have hm := m.toNat_lt
    have ih := ih fun a ha => hf a (.tail _ ha)
    simp only [List.foldlM_cons, Outcome.bind_ok, ih, u64Op_eq_ok, hf a (.head _),
      List.forall_mem_cons, List.map_cons, List.sum_cons]
    constructor
    · rintro ⟨total', ⟨n, ⟨hP, hn⟩, htotal⟩, hall, hsum⟩
      exact ⟨⟨hP, hall⟩, by omega⟩
    · rintro ⟨⟨hP, hall⟩, hsum⟩
      have hlt : total.toNat + v a < 2 ^ 64 := by omega
      have hv := UInt64.toNat_ofNat_of_lt' ((Nat.le_add_left _ _).trans_lt hlt)
      have htotal := UInt64.toNat_ofNat_of_lt' hlt
      refine ⟨.ofNat (total.toNat + v a), ⟨.ofNat (v a), ⟨hP, hv⟩, ?_⟩, hall, ?_⟩
      · rw [htotal, hv]
      · rw [htotal, hsum, Nat.add_assoc]

/-- **A checked sum is exact**: with terms `v a` that are computed if `P a`. -/
theorem sumU64_eq_ok {f : α → Outcome ε UInt64} {P : α → Prop} {v : α → Nat} {as : List α}
    (hf : ∀ a ∈ as, ∀ n, f a = .ok n ↔ P a ∧ n.toNat = v a) :
    sumU64 true f as = .ok m ↔ (∀ a ∈ as, P a) ∧ m.toNat = (as.map v).sum := by
  refine (foldlM_sum_eq_ok hf 0).trans ?_
  rw [UInt64.toNat_zero, Nat.zero_add]

/-- What a build with overflow checks returns, every build returns. -/
theorem sumU64_of_checked {f g : α → Outcome ε UInt64} (hfg : ∀ a n, f a = .ok n → g a = .ok n)
    {as : List α} (h : sumU64 true f as = .ok m) (overflowChecks : Bool) :
    sumU64 overflowChecks g as = .ok m := by
  unfold sumU64 at h ⊢
  generalize (0 : UInt64) = total at h ⊢
  induction as generalizing total with
  | nil => exact h
  | cons a as ih =>
    simp only [List.foldlM_cons, Outcome.bind_ok] at h ⊢
    obtain ⟨total', ⟨n, hn, htotal⟩, h⟩ := h
    exact ⟨total', ⟨n, hfg a n hn, u64Op_of_checked htotal overflowChecks⟩, ih total' h⟩

/-- A sum that fits, of numbers that are there. -/
theorem sumU64_of_lt (overflowChecks : Bool) {f : α → UInt64} {as : List α}
    (h : (as.map fun a => (f a).toNat).sum < 2 ^ 64) :
    sumU64 overflowChecks (fun a => (.ok (f a) : Outcome ε UInt64)) as =
      .ok (UInt64.ofNat (as.map fun a => (f a).toNat).sum) := by
  refine sumU64_of_checked (fun _ _ hn => hn) ?_ overflowChecks
  refine (sumU64_eq_ok (P := fun _ => True) fun a _ n => ?_).2
    ⟨fun _ _ => trivial, UInt64.toNat_ofNat_of_lt' h⟩
  rw [Outcome.ok.injEq, true_and, ← UInt64.toNat_inj, eq_comm]

/-! ## Products -/

theorem leadingProduct_cons (n : UInt64) (ns : List UInt64) :
    leadingProduct (n :: ns) = if n = 0 then 1 else n.toNat * leadingProduct ns := by
  unfold leadingProduct
  rw [List.takeWhile_cons]
  split_ifs with h <;> simp_all

theorem leadingProduct_pos (ns : List UInt64) : 0 < leadingProduct ns := by
  induction ns with
  | nil => exact Nat.one_pos
  | cons n ns ih =>
    rw [leadingProduct_cons]
    split_ifs with h
    · exact Nat.one_pos
    · have hn : n.toNat ≠ 0 := fun hn => h (UInt64.toNat_inj.1 hn)
      exact Nat.mul_pos (Nat.pos_of_ne_zero hn) ih

theorem prod_le_leadingProduct (ns : List UInt64) :
    (ns.map UInt64.toNat).prod ≤ leadingProduct ns := by
  induction ns with
  | nil => exact le_rfl
  | cons n ns ih =>
    rw [leadingProduct_cons, List.map_cons, List.prod_cons]
    split_ifs with h
    · rw [h, UInt64.toNat_zero, Nat.zero_mul]
      exact Nat.zero_le 1
    · exact Nat.mul_le_mul_left _ ih

theorem foldlM_product_eq_ok {ns : List UInt64} (product : UInt64) :
    ns.foldlM (fun product n => (u64Op true (product.toNat * n.toNat) : Outcome ε UInt64))
      product = .ok m ↔
      product.toNat * leadingProduct ns < 2 ^ 64 ∧
        m.toNat = product.toNat * (ns.map UInt64.toNat).prod := by
  induction ns generalizing product with
  | nil =>
    have := product.toNat_lt
    simp [leadingProduct, ← UInt64.toNat_inj, eq_comm, this]
  | cons n ns ih =>
    have hproduct := product.toNat_lt
    simp only [List.foldlM_cons, Outcome.bind_ok, ih, u64Op_eq_ok, leadingProduct_cons,
      List.map_cons, List.prod_cons, ← Nat.mul_assoc]
    constructor
    · rintro ⟨product', hproduct', hlt, hprod⟩
      rw [hproduct'] at hlt hprod
      refine ⟨?_, hprod⟩
      split_ifs
      · omega
      · rwa [← Nat.mul_assoc]
    · rintro ⟨hlt, hprod⟩
      have hle : product.toNat * n.toNat ≤ product.toNat * n.toNat * leadingProduct ns :=
        Nat.le_mul_of_pos_right _ (leadingProduct_pos ns)
      have hfits : product.toNat * n.toNat * leadingProduct ns < 2 ^ 64 := by
        split_ifs at hlt with h
        · simp [h]
        · rwa [← Nat.mul_assoc] at hlt
      have hproduct' := UInt64.toNat_ofNat_of_lt' (hle.trans_lt hfits)
      exact ⟨.ofNat (product.toNat * n.toNat), hproduct', by rwa [hproduct'],
        by rwa [hproduct']⟩

/-- **A checked product is exact**, if the part before the first 0 fits. -/
theorem productU64_eq_ok {ns : List UInt64} :
    (productU64 true ns : Outcome ε UInt64) = .ok m ↔
      leadingProduct ns < 2 ^ 64 ∧ m.toNat = (ns.map UInt64.toNat).prod := by
  refine (foldlM_product_eq_ok 1).trans ?_
  rw [UInt64.toNat_one, Nat.one_mul, Nat.one_mul]

theorem productU64_of_checked {ns : List UInt64}
    (h : (productU64 true ns : Outcome ε UInt64) = .ok m) (overflowChecks : Bool) :
    (productU64 overflowChecks ns : Outcome ε UInt64) = .ok m := by
  unfold productU64 at h ⊢
  generalize (1 : UInt64) = product at h ⊢
  induction ns generalizing product with
  | nil => exact h
  | cons n ns ih =>
    simp only [List.foldlM_cons, Outcome.bind_ok] at h ⊢
    obtain ⟨product', hproduct, h⟩ := h
    exact ⟨product', u64Op_of_checked hproduct overflowChecks, ih product' h⟩

end

end Rust
