import Mathlib

/-!
# Rounding in a binary format

Lean's floats are packed words of a `Format` (`p` stored mantissa bits, an exponent range), with a
bit-exact model of their operations. For the normal numbers of any format: rounding keeps the
leading `p + 1` bits, up to one unit of the last (`roundWithAccuracy_eq`), the conversion of a
natural number rounds once (`ofNat_eq`), and packing loses nothing (`unpack_pack`).
-/

namespace BinaryFormat

open Float.Model Float.Model.UnpackedFloat

variable {f : Format}

/-- A normal number `m * 2 ^ e`: all mantissa bits in use, and an exponent in range. -/
structure Normal (f : Format) (m : Nat) (e : Int) : Prop where
  lo : 2 ^ f.mantissaBitsWithoutImplicit ≤ m
  hi : m < 2 ^ (f.mantissaBitsWithoutImplicit + 1)
  exp_lo : f.minExponent ≤ e
  exp_hi : e + f.exponentBias + f.mantissaBitsWithoutImplicit + 1 < 2 ^ f.exponentBits

theorem log2_eq {m k : Nat} (hlo : 2 ^ k ≤ m) (hhi : m < 2 ^ (k + 1)) : m.log2 = k := by
  have hm : m ≠ 0 := by have := Nat.two_pow_pos k; omega
  exact (Nat.log2_eq_iff hm).2 ⟨hlo, hhi⟩

/-! ## Rounding -/

theorem targetExponent_eq {t : Int}
    (h : f.minExponent ≤ t - f.mantissaBitsWithoutImplicit - 1) :
    f.targetExponent t = t - f.mantissaBitsWithoutImplicit - 1 := by
  rw [Format.targetExponent, Format.mantissaBits, Nat.cast_add, Nat.cast_one, ← sub_sub,
    sub_right_comm]
  exact max_eq_left h

theorem mantissa_repeat (n : Nat) (em : ExtendedMantissa) :
    (Nat.repeat ExtendedMantissa.shiftRightOne n em).mantissa = em.mantissa / 2 ^ n := by
  induction n with
  | zero => simp [Nat.repeat]
  | succ n ih =>
    rw [Nat.repeat, ExtendedMantissa.shiftRightOne, ih, Nat.div_div_eq_div_mul, ← Nat.pow_succ]

theorem roundedMantissa_cases (em : ExtendedMantissa) :
    em.roundedMantissa = em.mantissa ∨ em.roundedMantissa = em.mantissa + 1 := by
  obtain ⟨m, r, s⟩ := em
  cases r <;> cases s <;>
    simp [ExtendedMantissa.roundedMantissa, ExtendedMantissa.accuracy, Accuracy.roundToNearestEven]
  omega

theorem mantissa_of (m : Nat) (acc : Accuracy) :
    (ExtendedMantissa.ofMantissaAndAccuracy m acc).mantissa = m := by
  rcases acc with _ | _ | _ | _ <;> rfl

/-- The first shift: `s` bits too many are dropped. -/
theorem shiftToTargetExponent_eq {m s : Nat} {e : Int} (acc : Accuracy)
    (hlo : 2 ^ (f.mantissaBitsWithoutImplicit + s) ≤ m)
    (hhi : m < 2 ^ (f.mantissaBitsWithoutImplicit + s + 1)) (he : f.minExponent ≤ e + s) :
    shiftToTargetExponent f m e acc =
      (Nat.repeat ExtendedMantissa.shiftRightOne s (.ofMantissaAndAccuracy m acc), e + s) := by
  have htotal : totalExponent m e - f.mantissaBitsWithoutImplicit - 1 = e + s := by
    rw [totalExponent, log2_eq hlo hhi]
    push_cast
    omega
  rw [shiftToTargetExponent, targetExponent_eq (by rwa [htotal]), htotal, shiftToExponent]
  have hs : (e + s - e).toNat = s := by omega
  rw [hs]
  rfl

/-- **Rounding** keeps the leading bits `t`, or `t + 1`, of a mantissa with `s` bits too many. -/
theorem roundWithAccuracy_eq {m s : Nat} {e : Int} (sign : Sign) (acc : Accuracy)
    (hlo : 2 ^ (f.mantissaBitsWithoutImplicit + s) ≤ m)
    (hhi : m < 2 ^ (f.mantissaBitsWithoutImplicit + s + 1)) (he : f.minExponent ≤ e + s) :
    ∃ M h k, roundWithAccuracy f sign m e acc = .finite sign M (e + s + (k : Nat)) h ∧
      2 ^ f.mantissaBitsWithoutImplicit ≤ M ∧ M < 2 ^ (f.mantissaBitsWithoutImplicit + 1) ∧
      k ≤ 1 ∧ M * 2 ^ k = (Nat.repeat ExtendedMantissa.shiftRightOne s
        (.ofMantissaAndAccuracy m acc)).roundedMantissa := by
  have hshift := shiftToTargetExponent_eq acc hlo hhi he
  generalize hem : Nat.repeat ExtendedMantissa.shiftRightOne s (.ofMantissaAndAccuracy m acc) = em
    at hshift
  have hmant : em.mantissa = m / 2 ^ s := by rw [← hem, mantissa_repeat, mantissa_of]
  have htlo : 2 ^ f.mantissaBitsWithoutImplicit ≤ m / 2 ^ s := by
    rw [Nat.le_div_iff_mul_le (Nat.two_pow_pos s), ← Nat.pow_add]
    exact hlo
  have hthi : m / 2 ^ s < 2 ^ (f.mantissaBitsWithoutImplicit + 1) := by
    rw [Nat.div_lt_iff_lt_mul (Nat.two_pow_pos s), ← Nat.pow_add, Nat.add_right_comm]
    exact hhi
  have hrlo : 2 ^ f.mantissaBitsWithoutImplicit ≤ em.roundedMantissa := by
    rcases roundedMantissa_cases em with h | h <;> omega
  have hrhi : em.roundedMantissa ≤ 2 ^ (f.mantissaBitsWithoutImplicit + 1) := by
    rcases roundedMantissa_cases em with h | h <;> omega
  have hpos : 0 < em.roundedMantissa := (Nat.two_pow_pos _).trans_le hrlo
  rw [roundWithAccuracy, hshift]
  by_cases hover : em.roundedMantissa < 2 ^ (f.mantissaBitsWithoutImplicit + 1)
  · have hsecond := shiftToTargetExponent_eq (s := 0) .exact hrlo hover (by simpa using he)
    refine ⟨em.roundedMantissa, hpos, 0, ?_, hrlo, hover, Nat.zero_le _, Nat.mul_one _⟩
    simp only [hsecond]
    rw [dif_neg]
    · simp [Nat.repeat, mantissa_of]
    · simp only [Nat.repeat, mantissa_of]
      exact hpos.ne'
  · -- rounding up has overflowed the mantissa
    have hr : em.roundedMantissa = 2 ^ (f.mantissaBitsWithoutImplicit + 1) := by omega
    have hhalf : 2 ^ (f.mantissaBitsWithoutImplicit + 1) / 2 =
        2 ^ f.mantissaBitsWithoutImplicit := by
      rw [Nat.pow_succ, Nat.mul_div_cancel _ (by decide)]
    have hsecond := shiftToTargetExponent_eq (m := em.roundedMantissa) (s := 1) (e := e + s) .exact
      hr.ge (by rw [hr]; exact Nat.pow_lt_pow_right (by decide) (Nat.lt_succ_self _)) (by omega)
    refine ⟨2 ^ f.mantissaBitsWithoutImplicit, Nat.two_pow_pos _, 1, ?_, le_refl _,
      Nat.pow_lt_pow_right (by decide) (Nat.lt_succ_self _), le_refl _,
      by rw [hr, Nat.pow_one, Nat.pow_succ]⟩
    simp only [hsecond]
    rw [dif_neg]
    · simp [Nat.repeat, ExtendedMantissa.shiftRightOne, mantissa_of, hr, hhalf]
    · simp [Nat.repeat, ExtendedMantissa.shiftRightOne, mantissa_of, hr, hhalf]

/-- A mantissa of the right length is not rounded. -/
theorem roundWithAccuracy_exact {m : Nat} {e : Int} (sign : Sign)
    (hlo : 2 ^ f.mantissaBitsWithoutImplicit ≤ m)
    (hhi : m < 2 ^ (f.mantissaBitsWithoutImplicit + 1)) (he : f.minExponent ≤ e) :
    ∃ h, roundWithAccuracy f sign m e .exact = .finite sign m e h := by
  obtain ⟨M, h, k, heq, hMlo, -, hk, hr⟩ := roundWithAccuracy_eq (s := 0) sign .exact hlo hhi
    (by simpa using he)
  have hrm : M * 2 ^ k = m := hr
  obtain rfl : k = 0 := by
    by_contra hne
    obtain rfl : k = 1 := by omega
    rw [Nat.pow_succ] at hhi
    omega
  obtain rfl : M = m := by rwa [Nat.pow_zero, Nat.mul_one] at hrm
  exact ⟨h, by simpa using heq⟩

/-! ## The error of a rounding -/

theorem decreaseExponent_of_le {m : Nat} {e t : Int} (h : e ≤ t) :
    decreaseExponent m e t = (m, e) := by
  rw [decreaseExponent, Int.toNat_eq_zero.2 (by omega)]
  simp

theorem ofNat_eq_round {n : Nat} (hpos : 0 < n) :
    UnpackedFloat.ofNat f n = UnpackedFloat.round f .positive n 0 := by
  rw [UnpackedFloat.ofNat, UnpackedFloat.ofInt, UnpackedFloat.normalize,
    compare_gt_iff_gt.2 (Int.natCast_pos.2 hpos)]
  rfl

/-- A natural number that fits is filled up with zeros. -/
theorem ofNat_small {n k : Nat} (hpos : 0 < n)
    (hlog : n.log2 + k = f.mantissaBitsWithoutImplicit)
    (hmin : f.minExponent ≤ -f.mantissaBitsWithoutImplicit) :
    ∃ h, UnpackedFloat.ofNat f n = .finite .positive (n * 2 ^ k) (-k) h ∧
      2 ^ f.mantissaBitsWithoutImplicit ≤ n * 2 ^ k ∧
      n * 2 ^ k < 2 ^ (f.mantissaBitsWithoutImplicit + 1) := by
  have hlo : 2 ^ f.mantissaBitsWithoutImplicit ≤ n * 2 ^ k := by
    rw [← hlog, Nat.pow_add]
    exact Nat.mul_le_mul_right _ (Nat.log2_self_le hpos.ne')
  have hhi : n * 2 ^ k < 2 ^ (f.mantissaBitsWithoutImplicit + 1) := by
    rw [← hlog, Nat.add_right_comm, Nat.pow_add]
    exact Nat.mul_lt_mul_of_pos_right Nat.lt_log2_self (Nat.two_pow_pos k)
  have htarget : f.targetExponent (totalExponent n 0) = -k := by
    rw [targetExponent_eq] <;> rw [totalExponent] <;> push_cast [← hlog] at hmin ⊢ <;> omega
  obtain ⟨h, heq⟩ := roundWithAccuracy_exact .positive hlo hhi
    (show f.minExponent ≤ -(k : Int) by omega)
  refine ⟨h, ?_, hlo, hhi⟩
  have hk : (0 - -(k : Int)).toNat = k := by omega
  rw [ofNat_eq_round hpos, UnpackedFloat.round, htarget, decreaseExponent, Nat.shiftLeft_eq, hk,
    zero_sub]
  exact heq

/-- A larger one is rounded once. -/
theorem ofNat_large {n s : Nat} (hlog : n.log2 = f.mantissaBitsWithoutImplicit + s)
    (hmin : f.minExponent ≤ 0) :
    UnpackedFloat.ofNat f n = roundWithAccuracy f .positive n 0 .exact := by
  have hpos : 0 < n := by
    have := f.hm
    rcases Nat.eq_zero_or_pos n with rfl | h
    · rw [Nat.log2_zero] at hlog
      omega
    · exact h
  have htarget : f.targetExponent (totalExponent n 0) = s := by
    rw [targetExponent_eq] <;> rw [totalExponent, hlog] <;> push_cast <;> omega
  rw [ofNat_eq_round hpos, UnpackedFloat.round, htarget, decreaseExponent_of_le (by omega)]

theorem unpackSign_packComponents {sign : Sign} {exponent : BitVec f.exponentBits}
    {mantissa : BitVec f.mantissaBitsWithoutImplicit} :
    unpackSign (packComponents f sign exponent mantissa) = sign.toBitVec := by
  ext i hi
  obtain rfl : i = 0 := by omega
  simp [unpackSign, packComponents, BitVec.getLsbD_append, BitVec.getElem_append]

theorem ofBitVec_toBitVec (sign : Sign) : Sign.ofBitVec sign.toBitVec = sign := by
  cases sign <;> rfl

/-- The biased exponent of a normal number is neither of the two that are set apart. -/
theorem Normal.biased_exp {m : Nat} {e : Int} (h : Normal f m e) :
    ∃ b : Nat, (b : Int) = e + f.exponentBias + f.mantissaBitsWithoutImplicit ∧
      0 < b ∧ b + 1 < 2 ^ f.exponentBits := by
  have hlo := h.exp_lo
  have hhi := h.exp_hi
  have hbias : (f.exponentBias : Int) = 2 ^ (f.exponentBits - 1) - 1 := by
    rw [Format.exponentBias, Nat.cast_sub Nat.one_le_two_pow]
    push_cast
    rfl
  rw [Format.minExponent, Format.mantissaBits] at hlo
  push_cast at hlo
  refine ⟨(e + f.exponentBias + f.mantissaBitsWithoutImplicit).toNat, by omega, by omega, ?_⟩
  zify
  omega

theorem pack_eq {sign : Sign} {m b : Nat} {e : Int} {h : 0 < m} (hn : Normal f m e)
    (hb : (b : Int) = e + f.exponentBias + f.mantissaBitsWithoutImplicit)
    (hlt : b + 1 < 2 ^ f.exponentBits) :
    UnpackedFloat.pack f (.finite sign m e h) =
      packComponents f sign (BitVec.ofNat _ b) (BitVec.ofNat _ m) := by
  rw [UnpackedFloat.pack, ← hb, Int.toNat_natCast, log2_eq hn.lo hn.hi, if_neg (not_le.2 hlt),
    if_pos (show _ = f.mantissaBits from Nat.add_comm _ _)]

/-- **Packing** loses nothing of a normal number. -/
theorem unpack_pack {sign : Sign} {m : Nat} {e : Int} {h : 0 < m} (hn : Normal f m e) :
    UnpackedFloat.unpack f (UnpackedFloat.pack f (.finite sign m e h)) =
      .finite sign m e h := by
  obtain ⟨b, hb, hpos, hlt⟩ := hn.biased_exp
  have hexp : (BitVec.ofNat f.exponentBits b).toNat = b := by
    rw [BitVec.toNat_ofNat, Nat.mod_eq_of_lt (by omega)]
  have hones : BitVec.ofNat f.exponentBits b ≠ -1#_ := fun h => by
    have := congrArg BitVec.toNat h
    rw [hexp, BitVec.neg_one_eq_allOnes, BitVec.toNat_allOnes] at this
    omega
  have hzero : BitVec.ofNat f.exponentBits b ≠ 0#_ := fun h => by
    have := congrArg BitVec.toNat h
    rw [hexp, BitVec.toNat_ofNat, Nat.zero_mod] at this
    omega
  have hmant : (1#1 ++ BitVec.ofNat f.mantissaBitsWithoutImplicit m).toNat = m := by
    have hlo := hn.lo
    have hhi := hn.hi
    rw [BitVec.toNat_append, ← Nat.shiftLeft_add_eq_or_of_lt (BitVec.isLt _), BitVec.toNat_ofNat,
      BitVec.toNat_ofNat, Nat.shiftLeft_eq, Nat.pow_one, Nat.one_mod, Nat.one_mul,
      Nat.mod_eq_sub_mod hlo, Nat.mod_eq_of_lt (by rw [Nat.pow_succ] at hhi; omega),
      Nat.add_sub_cancel' hlo]
  rw [pack_eq hn hb hlt, UnpackedFloat.unpack]
  simp only [unpackMantissa_packComponents, unpackExponent_packComponents,
    unpackSign_packComponents]
  rw [if_neg hones, if_neg hzero]
  simp only [hmant, hexp, ofBitVec_toBitVec]
  congr 1
  omega

end BinaryFormat
