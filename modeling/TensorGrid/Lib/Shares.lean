import Mathlib

/-!
# Rounded-down shares

The share of `x` out of `whole` in an amount is `amount * x / whole`. With the remainders the shares
of a list add up to the share of its sum (`whole_mul_sum_share`), so they fall short of it by less
than their number.
-/

namespace Shares

/-- The part of `amount` for `x` of `whole`, rounded down. -/
def share (amount whole x : Nat) : Nat := amount * x / whole

variable {amount whole : Nat}

/-- The division with remainder, summed over a list. -/
theorem whole_mul_sum_share (amount whole : Nat) (xs : List Nat) :
    whole * (xs.map (share amount whole)).sum + (xs.map fun x => amount * x % whole).sum =
      amount * xs.sum := by
  induction xs with
  | nil => rfl
  | cons x xs ih =>
    have hdiv : whole * share amount whole x + amount * x % whole = amount * x :=
      Nat.div_add_mod _ _
    simp only [List.map_cons, List.sum_cons, Nat.mul_add]
    omega

theorem sum_mod_le (amount : Nat) (hwhole : 0 < whole) (xs : List Nat) :
    (xs.map fun x => amount * x % whole).sum + xs.length ≤ whole * xs.length := by
  induction xs with
  | nil => exact le_refl _
  | cons x xs ih =>
    have hlt := Nat.mod_lt (amount * x) hwhole
    rw [List.map_cons, List.sum_cons, List.length_cons, Nat.mul_succ]
    omega

/-- The shares of at most the whole are at most the amount. -/
theorem sum_share_le (hwhole : 0 < whole) {xs : List Nat} (hle : xs.sum ≤ whole) :
    (xs.map (share amount whole)).sum ≤ amount := by
  have hsum := whole_mul_sum_share amount whole xs
  have hmul := Nat.mul_le_mul_left amount hle
  refine Nat.le_of_mul_le_mul_left (c := whole) ?_ hwhole
  rw [Nat.mul_comm whole amount]
  omega

/-- The shares of the whole fall short of the amount by less than their number. -/
theorem lt_sum_share_add_length (amount : Nat) (hwhole : 0 < whole) {xs : List Nat}
    (hall : xs.sum = whole) : amount < (xs.map (share amount whole)).sum + xs.length := by
  have hsum := whole_mul_sum_share amount whole xs
  have hmod := sum_mod_le amount hwhole xs
  have hne : xs ≠ [] := by
    rintro rfl
    exact hwhole.ne hall
  have hlen := List.length_pos_iff.2 hne
  rw [hall] at hsum
  refine Nat.lt_of_mul_lt_mul_left (a := whole) ?_
  rw [Nat.mul_add, Nat.mul_comm whole amount]
  omega

theorem sum_share_eq_iff_of_sum_eq (hwhole : 0 < whole) {xs : List Nat} (hall : xs.sum = whole) :
    (xs.map (share amount whole)).sum = amount ↔ ∀ x ∈ xs, whole ∣ amount * x := by
  have hsum := whole_mul_sum_share amount whole xs
  have hzero : (xs.map fun x => amount * x % whole).sum = 0 ↔ ∀ x ∈ xs, whole ∣ amount * x := by
    rw [List.sum_eq_zero_iff, List.forall_mem_map]
    exact forall₂_congr fun x _ => (Nat.dvd_iff_mod_eq_zero).symm
  rw [hall, Nat.mul_comm amount] at hsum
  rw [← hzero]
  refine ⟨fun h => ?_, fun h => ?_⟩
  · rw [h] at hsum
    omega
  · rw [h, Nat.add_zero] at hsum
    exact Nat.eq_of_mul_eq_mul_left hwhole hsum

/-- **When the shares add up**: no remainder is lost, and no part of the whole is missing. -/
theorem sum_share_eq_iff (hwhole : 0 < whole) {xs : List Nat} (hle : xs.sum ≤ whole) :
    (xs.map (share amount whole)).sum = amount ↔
      amount = 0 ∨ xs.sum = whole ∧ ∀ x ∈ xs, whole ∣ amount * x := by
  rcases hle.eq_or_lt with hall | hlt
  · rw [sum_share_eq_iff_of_sum_eq hwhole hall]
    constructor
    · exact fun h => .inr ⟨hall, h⟩
    · rintro (rfl | ⟨-, h⟩)
      · simp
      · exact h
  · have hsum := whole_mul_sum_share amount whole xs
    constructor
    · intro h
      refine .inl (Nat.eq_zero_of_not_pos fun hpos => ?_)
      have hmul := Nat.mul_lt_mul_of_pos_left hlt hpos
      rw [h, Nat.mul_comm whole amount] at hsum
      omega
    · rintro (rfl | ⟨hall, -⟩)
      · exact Nat.le_zero.1 (sum_share_le hwhole hle)
      · omega

end Shares
