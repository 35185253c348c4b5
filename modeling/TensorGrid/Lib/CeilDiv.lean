import TensorGrid.Lib.Binary32

/-!
# Rounded-up division in `f32`

`Binary32.div_eq`: the `f32` quotient of normal numbers is the `Nearest` of the exact one. It need
not be exact, but for numerators of at most 24 bits it does not cross an integer
(`Nearest.le_natCast`, `Nearest.natCast_lt`), so rounding it up gives the exact ceiling
(`ceilAsU32_div`).
-/

namespace Binary32

open Float.Model Float.Model.UnpackedFloat

/-! ## Quotients -/

/-- `y` is `x` rounded to 24 bits: it is one of the two neighbours of `x` on the grid of `x`'s
binade, `x` itself if it is on the grid, and the upper one if `x` is past the middle. -/
def Nearest (x y : ℚ) : Prop :=
  ∃ (t : Nat) (e : Int), 2 ^ 23 ≤ t ∧ value t e ≤ x ∧ x < value (t + 1) e ∧
    (y = value t e ∨ y = value (t + 1) e) ∧ (x = value t e → y = value t e) ∧
    (value (2 * t + 1) e < 2 * x → y = value (t + 1) e)

/-- The fraction `a / b`: its integer part and how the rest compares with one half. -/
abbrev fraction (a b : Nat) : ExtendedMantissa :=
  .ofMantissaAndAccuracy (a / b) (accuracyOfFraction (a % b) b)

theorem roundedMantissa_fraction {a b : Nat} (hb : 0 < b) (hodd : b < 2 * (a % b)) :
    (fraction a b).roundedMantissa = a / b + 1 := by
  have hcmp : compare (2 * (a % b)) b = .gt := by
    rw [compare_gt_iff_gt]
    exact hodd
  rw [fraction, accuracyOfFraction, if_neg (by omega), hcmp]
  rfl

theorem roundedMantissa_exact {a b : Nat} (h : a % b = 0) :
    (fraction a b).roundedMantissa = a / b := by
  rw [fraction, accuracyOfFraction, if_pos h]
  rfl

/-- One bit too many, and the fraction is not zero. -/
theorem roundedMantissa_shift_fraction {a b : Nat} (hmod : a % b ≠ 0) (hodd : a / b % 2 = 1) :
    (fraction a b).shiftRightOne.roundedMantissa = a / b / 2 + 1 := by
  rw [fraction, accuracyOfFraction, if_neg hmod]
  rcases compare (2 * (a % b)) b with _ | _ | _ <;>
    simp [ExtendedMantissa.ofMantissaAndAccuracy, ExtendedMantissa.shiftRightOne,
      ExtendedMantissa.roundedMantissa, ExtendedMantissa.accuracy, Accuracy.roundToNearestEven, hodd]

theorem roundedMantissa_shift_exact {a b : Nat} (hmod : a % b = 0) (heven : a / b % 2 = 0) :
    (fraction a b).shiftRightOne.roundedMantissa = a / b / 2 := by
  rw [fraction, accuracyOfFraction, if_pos hmod]
  simp [ExtendedMantissa.ofMantissaAndAccuracy, ExtendedMantissa.shiftRightOne,
    ExtendedMantissa.roundedMantissa, ExtendedMantissa.accuracy, Accuracy.roundToNearestEven, heven]

section
variable {a b k : Nat} {e : Int}

theorem frac_lt_value (hb : 0 < b) : (a : ℚ) / b * 2 ^ e < value k e ↔ a < k * b := by
  have hb' : (0 : ℚ) < b := Nat.cast_pos.2 hb
  rw [value, mul_lt_mul_iff_left₀ (by positivity), div_lt_iff₀ hb', ← Nat.cast_mul, Nat.cast_lt]

theorem value_lt_frac (hb : 0 < b) : value k e < (a : ℚ) / b * 2 ^ e ↔ k * b < a := by
  have hb' : (0 : ℚ) < b := Nat.cast_pos.2 hb
  rw [value, mul_lt_mul_iff_left₀ (by positivity), lt_div_iff₀ hb', ← Nat.cast_mul, Nat.cast_lt]

theorem value_le_frac (hb : 0 < b) : value k e ≤ (a : ℚ) / b * 2 ^ e ↔ k * b ≤ a := by
  rw [← not_lt, frac_lt_value hb, not_lt]

theorem frac_eq_value (hb : 0 < b) : (a : ℚ) / b * 2 ^ e = value k e ↔ a = k * b := by
  rw [le_antisymm_iff, ← not_lt, value_lt_frac hb, not_lt, value_le_frac hb, ← le_antisymm_iff]

end

theorem two_mul_frac {a b : Nat} {e : Int} :
    2 * ((a : ℚ) / b * 2 ^ e) = ((2 * a : Nat) : ℚ) / b * 2 ^ e := by
  push_cast
  ring

/-- The fraction `a / b` on the grid of its integer part. -/
theorem nearest_fraction {a b : Nat} {e : Int} (hb : 0 < b) (hlo : 2 ^ 23 ≤ a / b) :
    Nearest ((a : ℚ) / b * 2 ^ e) (value (fraction a b).roundedMantissa e) := by
  have hdiv := Nat.div_add_mod' a b
  have hmod := Nat.mod_lt a hb
  refine ⟨a / b, e, hlo, (value_le_frac hb).2 (Nat.div_mul_le_self a b), ?_, ?_, ?_, ?_⟩
  · rw [frac_lt_value hb, Nat.add_one_mul]
    omega
  · have hcases := BinaryFormat.roundedMantissa_cases (fraction a b)
    rw [BinaryFormat.mantissa_of] at hcases
    exact hcases.imp (congrArg (value · e)) (congrArg (value · e))
  · intro h
    have ha := (frac_eq_value hb).1 h
    rw [roundedMantissa_exact (by omega)]
  · intro h
    rw [two_mul_frac, value_lt_frac hb, Nat.add_one_mul, mul_assoc] at h
    rw [roundedMantissa_fraction hb (by omega)]

/-- The same with one more bit in the integer part: it is dropped. -/
theorem nearest_fraction_shift {a b : Nat} {e : Int} (hb : 0 < b) (hlo : 2 ^ 24 ≤ a / b) :
    Nearest ((a : ℚ) / b * 2 ^ e) (value (fraction a b).shiftRightOne.roundedMantissa (e + 1)) := by
  have hdiv := Nat.div_add_mod' a b
  have hmod := Nat.mod_lt a hb
  have hdiv2 := Nat.div_add_mod' (a / b) 2
  have hmod2 := Nat.mod_lt (a / b) (y := 2) (by decide)
  have hx : (a : ℚ) / b * 2 ^ e = (a : ℚ) / (b * 2 : Nat) * 2 ^ (e + 1) := by
    rw [zpow_add_one₀ (by norm_num)]
    push_cast
    field_simp
  have hb2 : 0 < b * 2 := by omega
  have hprod : a = a / b / 2 * (b * 2) + a / b % 2 * b + a % b := by
    calc a = (a / b / 2 * 2 + a / b % 2) * b + a % b := by rw [hdiv2, hdiv]
      _ = _ := by ring
  rw [hx]
  generalize hq : a / b % 2 = q at hprod hmod2
  obtain rfl | rfl : q = 0 ∨ q = 1 := by omega
  all_goals
    refine ⟨a / b / 2, e + 1, by omega, (value_le_frac hb2).2 (by omega), ?_, ?_, ?_, ?_⟩
    · rw [frac_lt_value hb2, Nat.add_one_mul]
      omega
    · have hcases := BinaryFormat.roundedMantissa_cases (fraction a b).shiftRightOne
      rw [show ∀ em : ExtendedMantissa, em.shiftRightOne.mantissa = em.mantissa / 2 from
        fun _ => rfl, BinaryFormat.mantissa_of] at hcases
      exact hcases.imp (congrArg (value · (e + 1))) (congrArg (value · (e + 1)))
    · intro h
      have ha := (frac_eq_value hb2).1 h
      rw [roundedMantissa_shift_exact (by omega) (by omega)]
    · intro h
      rw [two_mul_frac, value_lt_frac hb2, Nat.add_one_mul, mul_assoc] at h
      rw [roundedMantissa_shift_fraction (by omega) (by omega)]

/-- **Division** of normal numbers rounds the quotient to the nearest. -/
theorem div_eq {m₁ m₂ : Nat} {e₁ e₂ : Int} (h₁ : 0 < m₁) (h₂ : 0 < m₂) (hn₁ : Normal m₁ e₁)
    (hn₂ : Normal m₂ e₂) (hlo : -100 ≤ e₁ - e₂) (hhi : e₁ - e₂ ≤ 100) :
    ∃ M E h, UnpackedFloat.div Format.binary32 (.finite .positive m₁ e₁ h₁)
        (.finite .positive m₂ e₂ h₂) = .finite .positive M E h ∧ Normal M E ∧
      Nearest (value m₁ e₁ / value m₂ e₂) (value M E) := by
  obtain ⟨hlo₁, hhi₁, -, -⟩ := hn₁
  obtain ⟨hlo₂, hhi₂, -, -⟩ := hn₂
  have htarget : Format.binary32.targetExponent (totalExponent m₁ e₁ - totalExponent m₂ e₂) =
      e₁ - e₂ - 24 := by
    rw [totalExponent, totalExponent, BinaryFormat.log2_eq (k := 23) hlo₁ hhi₁,
      BinaryFormat.log2_eq (k := 23) hlo₂ hhi₂, targetExponent_eq (by omega)]
    omega
  have hcore : divCore Format.binary32 m₁ e₁ m₂ e₂ = (m₁ * 2 ^ 24 / m₂, e₁ - e₂ - 24,
      accuracyOfFraction (m₁ * 2 ^ 24 % m₂) m₂) := by
    rw [divCore, htarget, min_eq_right (by omega), Nat.shiftLeft_eq]
    have : (e₁ - e₂ - (e₁ - e₂ - 24)).toNat = 24 := by omega
    rw [this]
  have hx : value m₁ e₁ / value m₂ e₂ = ((m₁ * 2 ^ 24 : Nat) : ℚ) / m₂ * 2 ^ (e₁ - e₂ - 24) := by
    rw [value, value, zpow_sub₀ (by norm_num), zpow_sub₀ (by norm_num)]
    push_cast
    field_simp
  have hq : 2 ^ 23 ≤ m₁ * 2 ^ 24 / m₂ := by
    rw [Nat.le_div_iff_mul_le h₂]
    omega
  have hq' : m₁ * 2 ^ 24 / m₂ < 2 ^ 25 := by
    rw [Nat.div_lt_iff_lt_mul h₂]
    omega
  rw [hx, UnpackedFloat.div, hcore]
  by_cases hsmall : m₁ * 2 ^ 24 / m₂ < 2 ^ 24
  · obtain ⟨M, E, h, heq, hnormal, -, -, hval⟩ := roundWithAccuracy_eq (s := 0)
      (accuracyOfFraction (m₁ * 2 ^ 24 % m₂) m₂) hq hsmall (e := e₁ - e₂ - 24)
      (by push_cast; omega) (by push_cast; omega)
    refine ⟨M, E, h, heq, hnormal, ?_⟩
    rw [hval, Nat.cast_zero, add_zero]
    exact nearest_fraction h₂ hq
  · obtain ⟨M, E, h, heq, hnormal, -, -, hval⟩ := roundWithAccuracy_eq (s := 1)
      (accuracyOfFraction (m₁ * 2 ^ 24 % m₂) m₂) (by omega) hq' (e := e₁ - e₂ - 24)
      (by push_cast; omega) (by push_cast; omega)
    refine ⟨M, E, h, heq, hnormal, ?_⟩
    rw [hval]
    exact nearest_fraction_shift h₂ (by omega)

/-! ## Rounding up to an integer -/

/-- Below `2 ^ 24` only the grids of integers and binary fractions have other points than theirs. -/
theorem exp_nonpos {x : ℚ} {t : Nat} {e : Int} (ht : 2 ^ 23 ≤ t) (hx : x ≤ 2 ^ 24)
    (hlt : value t e < x) : ∃ k : Nat, e = -k := by
  refine Int.exists_eq_neg_ofNat (not_lt.1 fun hpos => ?_)
  have ht' : ((2 ^ 23 : Nat) : ℚ) ≤ t := Nat.cast_le.2 ht
  have he : (2 : ℚ) ^ (1 : Int) ≤ 2 ^ e := zpow_le_zpow_right₀ (by norm_num) (by omega)
  have hprod := mul_le_mul ht' he (by positivity) (by positivity)
  rw [value] at hlt
  norm_num at hprod
  linarith

section
variable {x y : ℚ} {c : Nat}

/-- Rounding does not pass an integer of at most 24 bits. -/
theorem Nearest.le_natCast (h : Nearest x y) (hx : x ≤ 2 ^ 24) (hc : x ≤ c) : y ≤ c := by
  obtain ⟨t, e, ht, hle, -, hy, hexact, -⟩ := h
  rcases eq_or_lt_of_le hle with heq | hne
  · rw [hexact heq.symm, heq]
    exact hc
  · obtain ⟨k, rfl⟩ := exp_nonpos ht hx hne
    have hck : (c : ℚ) = value (c * 2 ^ k) (-k) := value_natCast rfl
    rw [hck] at hc ⊢
    have htc : t < c * 2 ^ k := value_lt_iff.1 (hne.trans_le hc)
    rcases hy with rfl | rfl
    · exact (value_lt_iff.2 htc).le
    · exact not_lt.1 fun h => by
        have := value_lt_iff.1 h
        omega

/-- A fraction with a numerator of at most 24 bits stays above the integers below it. -/
theorem Nearest.natCast_lt {l n : Nat} (h : Nearest ((l : ℚ) / n) y) (hn : 0 < n)
    (hl : l ≤ 2 ^ 24) (hc : c * n < l) : c < y := by
  obtain ⟨t, e, ht, hle, hlt, hy, hexact, hmid⟩ := h
  have hn' : (1 : ℚ) ≤ n := Nat.one_le_cast.2 hn
  have hl' : (l : ℚ) ≤ 2 ^ 24 := by exact_mod_cast hl
  have hx : (c : ℚ) < l / n := by
    rw [lt_div_iff₀ (by linarith)]
    exact_mod_cast hc
  rcases eq_or_lt_of_le hle with heq | hne
  · rw [hexact heq.symm, heq]
    exact hx
  · obtain ⟨k, rfl⟩ := exp_nonpos ht (div_le_of_le_mul₀ (by linarith) (by norm_num)
      (by nlinarith)) hne
    have hck : (c : ℚ) = value (c * 2 ^ k) (-k) := value_natCast rfl
    have hct : c * 2 ^ k ≤ t := by
      rw [← Nat.lt_add_one_iff]
      exact value_lt_iff.1 (hck ▸ hx.trans hlt)
    rcases hct.lt_or_eq with hlow | htop
    · -- the grid point below the fraction is above the integer already
      rw [hck]
      rcases hy with rfl | rfl
      · exact value_lt_iff.2 hlow
      · exact value_lt_iff.2 (by omega)
    · -- the integer is that grid point, and the fraction is past the middle
      have hgrid : value (t + 1) (-k) = c + 2 ^ (-k : Int) := by
        rw [hck, htop, value, value]
        push_cast
        ring
      have hmiddle : value (2 * t + 1) (-k) = 2 * c + 2 ^ (-k : Int) := by
        rw [hck, htop, value, value]
        push_cast
        ring
      have hcn : (c : ℚ) * n + 1 ≤ l := by exact_mod_cast hc
      have hgap : (2 : ℚ) ^ (-k : Int) * n < 2 := by
        have ht' : ((2 ^ 23 : Nat) : ℚ) ≤ t := Nat.cast_le.2 ht
        refine not_le.1 fun hwide => ?_
        have hprod := mul_le_mul ht' hwide (by norm_num) (by positivity)
        have hnum : ((2 ^ 23 : Nat) : ℚ) * 2 = 2 ^ 24 := by norm_num
        rw [hck, htop, value, mul_assoc] at hcn
        linarith
      have hfrac : c + 1 / n ≤ (l : ℚ) / n := by
        rw [le_div_iff₀ (by linarith), add_mul, one_div, inv_mul_cancel₀ (by linarith)]
        exact hcn
      have hhalf : (2 : ℚ) ^ (-k : Int) < 2 * (1 / n) := by
        rw [mul_one_div, lt_div_iff₀ (by linarith)]
        exact hgap
      rw [hmid (by rw [hmiddle]; linarith), hgrid]
      linarith [show (0 : ℚ) < 2 ^ (-k : Int) by positivity]

end

/-! ## The rounded-up quotient -/

/-- `x.ceil() as u32`: NaN becomes `0`, a value out of range the nearest end of the range. -/
def ceilAsU32 (x : Float32) : UInt32 :=
  match x.toModel.unpack with
  | .notANumber => 0
  | .infinity .negative => 0
  | .infinity .positive => 4294967295
  | .zero _ => 0
  | .finite _ _ _ _ => UInt32.ofNatClamp ⌈toRat x⌉.toNat

theorem Holds.ceilAsU32_eq {x : Float32} {m : Nat} {e : Int} (h : Holds x m e) :
    ceilAsU32 x = UInt32.ofNatClamp ⌈value m e⌉.toNat := by
  rw [ceilAsU32, ← h.toRat_eq]
  obtain ⟨-, hpos, hunpack⟩ := h
  rw [hunpack]

/-- The quotient of two normal numbers is the nearest to the exact one. -/
theorem Holds.div {x y : Float32} {m₁ m₂ : Nat} {e₁ e₂ : Int} (hx : Holds x m₁ e₁)
    (hy : Holds y m₂ e₂) (hlo : -100 ≤ e₁ - e₂) (hhi : e₁ - e₂ ≤ 100) :
    ∃ m e, Holds (x / y) m e ∧ Nearest (value m₁ e₁ / value m₂ e₂) (value m e) := by
  obtain ⟨hn₁, h₁, hu₁⟩ := hx
  obtain ⟨hn₂, h₂, hu₂⟩ := hy
  obtain ⟨m, e, h, heq, hnormal, hnear⟩ := div_eq h₁ h₂ hn₁ hn₂ hlo hhi
  rw [← hu₁, ← hu₂] at heq
  exact ⟨m, e, holds_pack heq hnormal, hnear⟩

/-- **The rounded-up division is exact** for numerators of at most 24 bits: the `f32` quotient is
not, but it does not cross an integer. -/
theorem ceilAsU32_div {l : UInt32} {n : UInt64} (hpos : 0 < l.toNat) (hl : l.toNat ≤ 2 ^ 24)
    (hn : 0 < n.toNat) : (ceilAsU32 (l.toFloat32 / n.toFloat32)).toNat = l.toNat ⌈/⌉ n.toNat := by
  obtain ⟨m₁, e₁, hx, helo₁, hehi₁, hexact₁, -⟩ := toFloat32_u32 hpos
  obtain ⟨m₂, e₂, hy, helo₂, hehi₂, hexact₂, hlarge₂⟩ := toFloat32_u64 hn
  obtain ⟨m, e, hxy, hnear⟩ := hx.div hy (by omega) (by omega)
  obtain ⟨c, hc⟩ : ∃ c, l.toNat ⌈/⌉ n.toNat = c + 1 := by
    refine Nat.exists_eq_succ_of_ne_zero fun h => ?_
    have := (ceilDiv_le_iff_le_mul hn).1 h.le
    omega
  have hupper : l.toNat ≤ (c + 1) * n.toNat := by
    rw [mul_comm, ← hc]
    exact le_smul_ceilDiv hn
  have hlower : c * n.toNat < l.toNat := by
    rw [mul_comm, ← not_le, ← ceilDiv_le_iff_le_mul hn]
    omega
  have hn' : (0 : ℚ) < n.toNat := Nat.cast_pos.2 hn
  rw [hexact₁ hl] at hnear
  have hceil : ⌈value m e⌉ = ((c + 1 : Nat) : Int) := by
    rw [Int.ceil_eq_iff]
    by_cases hsmall : n.toNat ≤ 2 ^ 24
    · rw [hexact₂ hsmall] at hnear
      refine ⟨?_, hnear.le_natCast ?_ ?_⟩
      · have := hnear.natCast_lt hn hl hlower
        push_cast
        linarith
      · refine div_le_of_le_mul₀ hn'.le (by norm_num) ?_
        have h1 : (1 : ℚ) ≤ n.toNat := Nat.one_le_cast.2 hn
        have hl' : (l.toNat : ℚ) ≤ 2 ^ 24 := by exact_mod_cast hl
        linarith
      · rw [div_le_iff₀ hn']
        exact_mod_cast hupper
    · -- more than `2 ^ 24` parts: the quotient is at most 1
      have hc0 : c = 0 := by
        by_contra hne
        have := Nat.le_mul_of_pos_left n.toNat (Nat.pos_of_ne_zero hne)
        omega
      subst hc0
      have hle : (l.toNat : ℚ) / value m₂ e₂ ≤ (1 : Nat) := by
        have := hlarge₂ (by omega)
        have hl' : (l.toNat : ℚ) ≤ 2 ^ 24 := by exact_mod_cast hl
        rw [div_le_iff₀ hy.value_pos]
        norm_num
        linarith
      refine ⟨by simpa using hxy.value_pos, ?_⟩
      exact hnear.le_natCast (hle.trans (by norm_num)) hle
  have hc24 : c + 1 < UInt32.size := by
    have := Nat.le_mul_of_pos_right c hn
    show c + 1 < 4294967296
    omega
  rw [hxy.ceilAsU32_eq, hceil, Int.toNat_natCast, UInt32.toNat_ofNatClamp_of_lt hc24, hc]

end Binary32
