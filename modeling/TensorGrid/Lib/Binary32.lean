import TensorGrid.Lib.BinaryFormat

/-!
# Values of `f32`

Lean's `Float32` is the IEEE binary32 format with a bit-exact model of its operations, so closed
facts about it are decidable. `Binary32.toRat` is the rational number a finite `f32` holds.

`Binary32.Holds x m e` says that `x` is the normal number `m * 2 ^ e`. Rounding keeps the leading
24 bits (`roundWithAccuracy_eq`), and a converted natural number is exact up to `2 ^ 24`
(`toFloat32_u32`, `toFloat32_u64`).
-/

namespace Binary32

open Float.Model Float.Model.UnpackedFloat

/-- The value of a finite `f32` (`0` for infinities and NaN). -/
def toRat (x : Float32) : Rat :=
  match x.toModel.unpack with
  | .finite s m e _ =>
    if 0 ≤ e then mkRat (s.apply m * 2 ^ e.toNat) 1 else mkRat (s.apply m) (2 ^ (-e).toNat)
  | _ => 0

/-! ## Mantissa and exponent -/

/-- The rational number `m * 2 ^ e`. -/
def value (m : Nat) (e : Int) : ℚ := m * 2 ^ e

theorem value_shift (m : Nat) (e : Int) (s : Nat) : value (m * 2 ^ s) e = value m (e + s) := by
  rw [value, value, zpow_add₀ (by decide), zpow_natCast]
  push_cast
  ring

theorem value_lt_iff {a b : Nat} {e : Int} : value a e < value b e ↔ a < b := by
  rw [value, value, mul_lt_mul_iff_left₀ (by positivity), Nat.cast_lt]

theorem value_natCast {c k : Nat} {e : Int} (he : e = -k) : (c : ℚ) = value (c * 2 ^ k) e := by
  rw [value_shift, he, neg_add_cancel, value, zpow_zero, mul_one]

/-- A normal positive number: 24 bits of mantissa and an exponent in range. -/
structure Normal (m : Nat) (e : Int) : Prop where
  lo : 2 ^ 23 ≤ m
  hi : m < 2 ^ 24
  exp_lo : -149 ≤ e
  exp_hi : e ≤ 104

theorem Normal.format {m : Nat} {e : Int} (h : Normal m e) :
    BinaryFormat.Normal Format.binary32 m e := by
  obtain ⟨hlo, hhi, helo, hehi⟩ := h
  refine ⟨hlo, hhi, helo, ?_⟩
  show e + 127 + 23 + 1 < 256
  omega

/-! ## Rounding -/

theorem targetExponent_eq {t : Int} (h : -125 ≤ t) : Format.binary32.targetExponent t = t - 24 := by
  rw [BinaryFormat.targetExponent_eq (show (-149 : Int) ≤ t - (23 : Nat) - 1 by omega)]
  show t - (23 : Nat) - 1 = t - 24
  omega

/-- **Rounding** keeps the leading 24 bits `t`, or `t + 1`, of a mantissa with `s` bits too many. -/
theorem roundWithAccuracy_eq {m s : Nat} {e : Int} (acc : Accuracy) (hlo : 2 ^ (23 + s) ≤ m)
    (hhi : m < 2 ^ (24 + s)) (he : -149 ≤ e + s) (he' : e + s < 104) :
    ∃ M E h, roundWithAccuracy Format.binary32 .positive m e acc = .finite .positive M E h ∧
      Normal M E ∧ e + s ≤ E ∧ E ≤ e + s + 1 ∧
      value M E = value (Nat.repeat ExtendedMantissa.shiftRightOne s
        (.ofMantissaAndAccuracy m acc)).roundedMantissa (e + s) := by
  obtain ⟨M, h, k, heq, hMlo, hMhi, hk, hr⟩ := BinaryFormat.roundWithAccuracy_eq
    (f := Format.binary32) .positive acc hlo (by rwa [Nat.add_right_comm]) he
  exact ⟨M, e + s + k, h, heq, ⟨hMlo, hMhi, by omega, by omega⟩, by omega, by omega,
    by rw [← hr, value_shift]⟩

/-! ## Natural numbers -/

/-- The conversion of a natural number: exact up to `2 ^ 24`, and not below `2 ^ 24` from there. -/
theorem ofNat_eq {n : Nat} (hpos : 0 < n) (hn : n < 2 ^ 64) :
    ∃ M E h, UnpackedFloat.ofNat Format.binary32 n = .finite .positive M E h ∧ Normal M E ∧
      -23 ≤ E ∧ E ≤ 42 ∧ (n ≤ 2 ^ 24 → value M E = n) ∧ (2 ^ 24 ≤ n → 2 ^ 24 ≤ value M E) := by
  have hlog := Nat.log2_lt (n := n) (k := 64) (by omega) |>.2 hn
  have hlo : 2 ^ n.log2 ≤ n := Nat.log2_self_le (by omega)
  have hhi : n < 2 ^ (n.log2 + 1) := Nat.lt_log2_self
  by_cases hsmall : n.log2 ≤ 23
  · -- the mantissa is filled up with zeros
    obtain ⟨k, hk⟩ := Nat.exists_eq_add_of_le hsmall
    obtain ⟨h, heq, hMlo, hMhi⟩ := BinaryFormat.ofNat_small (f := Format.binary32) hpos hk.symm
      (by decide)
    have hvalue : value (n * 2 ^ k) (-(k : Int)) = n := by
      rw [value_shift]
      simp [value]
    refine ⟨n * 2 ^ k, -k, h, heq, ⟨hMlo, hMhi, by omega, by omega⟩, by omega, by omega,
      fun _ => hvalue, fun hn => ?_⟩
    rw [hvalue]
    exact_mod_cast hn
  · -- the mantissa has `s` bits too many
    obtain ⟨s, hs⟩ := Nat.exists_eq_add_of_le (not_le.1 hsmall).le
    rw [hs] at hlo hhi
    obtain ⟨M, E, h, heq, hnormal, hE, hE', hval⟩ := roundWithAccuracy_eq (e := 0) .exact hlo
      (by rwa [show 24 + s = 23 + s + 1 by omega]) (by omega) (by omega)
    refine ⟨M, E, h, (BinaryFormat.ofNat_large hs (by decide)).trans heq, hnormal, by omega,
      by omega, fun hle => ?_, fun _ => ?_⟩
    · have hs1 : s = 1 := by
        have : 2 ^ (23 + s) ≤ 2 ^ 24 := hlo.trans hle
        have := (Nat.pow_le_pow_iff_right (by decide)).1 this
        omega
      subst hs1
      obtain rfl : n = 2 ^ 24 := le_antisymm hle hlo
      rw [hval]
      show value (2 ^ 23) 1 = _
      rw [value]
      norm_num
    · have hM : ((2 ^ 23 : Nat) : ℚ) ≤ M := Nat.cast_le.2 hnormal.lo
      have hE2 : (2 : ℚ) ^ (1 : Int) ≤ 2 ^ E := zpow_le_zpow_right₀ (by norm_num) (by omega)
      have hprod := mul_le_mul hM hE2 (by positivity) (by positivity)
      rw [value]
      norm_num at hprod ⊢
      exact hprod

/-! ## Packed numbers -/

/-- The packed number `x` is the normal number `m * 2 ^ e`. -/
structure Holds (x : Float32) (m : Nat) (e : Int) : Prop extends Normal m e where
  unpack : ∃ h, x.toModel.unpack = .finite .positive m e h

theorem holds_pack {u : UnpackedFloat} {m : Nat} {e : Int} {h : 0 < m}
    (hu : u = .finite .positive m e h) (hn : Normal m e) : Holds (.ofModel (.pack u)) m e :=
  ⟨hn, h, by rw [hu]; exact BinaryFormat.unpack_pack hn.format⟩

theorem Holds.toRat_eq {x : Float32} {m : Nat} {e : Int} (h : Holds x m e) :
    toRat x = value m e := by
  obtain ⟨-, hpos, hunpack⟩ := h
  rw [toRat, hunpack]
  simp only [Sign.apply]
  split
  · next he =>
    obtain ⟨k, rfl⟩ := Int.eq_ofNat_of_zero_le he
    simp [value, Rat.mkRat_eq_div]
  · next he =>
    obtain ⟨k, rfl⟩ := Int.exists_eq_neg_ofNat (not_le.1 he).le
    simp [value, Rat.mkRat_eq_div, div_eq_mul_inv]

theorem Holds.value_pos {x : Float32} {m : Nat} {e : Int} (h : Holds x m e) : 0 < value m e := by
  have := h.lo
  have : (0 : ℚ) < m := Nat.cast_pos.2 (by omega)
  rw [value]
  positivity

theorem toFloat32_u32 {n : UInt32} (hn : 0 < n.toNat) : ∃ m e, Holds n.toFloat32 m e ∧
    -23 ≤ e ∧ e ≤ 42 ∧ (n.toNat ≤ 2 ^ 24 → value m e = n.toNat) ∧
    (2 ^ 24 ≤ n.toNat → 2 ^ 24 ≤ value m e) := by
  obtain ⟨m, e, h, heq, hnormal, hrest⟩ := ofNat_eq hn (by have := n.toNat_lt; omega)
  exact ⟨m, e, holds_pack heq hnormal, hrest⟩

theorem toFloat32_u64 {n : UInt64} (hn : 0 < n.toNat) : ∃ m e, Holds n.toFloat32 m e ∧
    -23 ≤ e ∧ e ≤ 42 ∧ (n.toNat ≤ 2 ^ 24 → value m e = n.toNat) ∧
    (2 ^ 24 ≤ n.toNat → 2 ^ 24 ≤ value m e) := by
  obtain ⟨m, e, h, heq, hnormal, hrest⟩ := ofNat_eq hn n.toNat_lt
  exact ⟨m, e, holds_pack heq hnormal, hrest⟩

end Binary32
