import TensorGrid.ClusterTypes
import TensorGrid.Lib.Hex

/-!
# The text of an identifier

`Uuid.hyphenated` is the text an identifier has in messages, URLs and map keys. Different
identifiers have different texts (`Uuid.hyphenated_injective`), and the text has no colon
(`Uuid.hyphenated_ne_colon`).
-/

namespace TensorGrid

/-- The sixteen bytes, most significant first. -/
def Uuid.bytes (u : Uuid) : List UInt8 :=
  (List.range 16).map fun i => UInt8.ofNat (u.val.toNat / 256 ^ (15 - i))

/-- `Uuid`'s `Display`: five groups of lower-case digits. -/
def Uuid.hyphenated (u : Uuid) : String :=
  let group (i n : Nat) := Hex.encode ((u.bytes.drop i).take n)
  group 0 4 ++ "-" ++ group 4 2 ++ "-" ++ group 6 2 ++ "-" ++ group 8 2 ++ "-" ++ group 10 6

theorem digits_ne_hyphen {bs : List UInt8} : ∀ d ∈ bs.flatMap Hex.digits, d ≠ '-' :=
  Hex.digits_ne (by decide)

theorem filter_encode (bs : List UInt8) :
    (Hex.encode bs).toList.filter (· != '-') = bs.flatMap Hex.digits := by
  rw [Hex.toList_encode, List.filter_eq_self]
  exact fun d hd => bne_iff_ne.2 (digits_ne_hyphen d hd)

/-- Without its hyphens the text of an identifier is the text of its bytes. -/
theorem Uuid.filter_hyphenated (u : Uuid) :
    u.hyphenated.toList.filter (· != '-') = u.bytes.flatMap Hex.digits := by
  have hgroups : u.bytes = (u.bytes.drop 0).take 4 ++ (u.bytes.drop 4).take 2 ++
      (u.bytes.drop 6).take 2 ++ (u.bytes.drop 8).take 2 ++ (u.bytes.drop 10).take 6 := rfl
  have hhyphen : "-".toList.filter (· != '-') = [] := rfl
  conv_rhs => rw [hgroups]
  simp only [Uuid.hyphenated, String.toList_append, List.filter_append, filter_encode, hhyphen,
    List.append_nil, List.flatMap_append]

/-- Numbers of `n` bytes with the same bytes are equal. -/
theorem eq_of_bytes {n a b : Nat} (ha : a < 256 ^ n) (hb : b < 256 ^ n)
    (h : ∀ i < n, a / 256 ^ i % 256 = b / 256 ^ i % 256) : a = b := by
  induction n generalizing a b with
  | zero => omega
  | succ n ih =>
    have hlast := h 0 (by omega)
    have hrest : a / 256 = b / 256 := by
      refine ih (by omega) (by omega) fun i hi => ?_
      have := h (i + 1) (by omega)
      rwa [Nat.pow_succ', ← Nat.div_div_eq_div_mul, ← Nat.div_div_eq_div_mul] at this
    rw [Nat.pow_zero, Nat.div_one, Nat.div_one] at hlast
    omega

theorem Uuid.bytes_injective : Function.Injective Uuid.bytes := by
  rintro ⟨u⟩ ⟨v⟩ h
  have hbytes := List.map_inj_left.1 h
  have hu : u.toNat < 256 ^ 16 := u.isLt.trans_eq (by decide)
  have hv : v.toNat < 256 ^ 16 := v.isLt.trans_eq (by decide)
  refine congrArg Uuid.mk (BitVec.toNat_inj.1 (eq_of_bytes hu hv fun i hi => ?_))
  have := congrArg UInt8.toNat (hbytes (15 - i) (List.mem_range.2 (by omega)))
  rwa [show 15 - (15 - i) = i by omega] at this

theorem Uuid.hyphenated_injective : Function.Injective Uuid.hyphenated := by
  intro u v h
  refine Uuid.bytes_injective (Hex.flatMap_digits_injective ?_)
  rw [← Uuid.filter_hyphenated, ← Uuid.filter_hyphenated, h]

/-- A character that is neither a hexadecimal digit nor the hyphen does not occur. -/
theorem Uuid.hyphenated_ne {c : Char} (hhyphen : '-' ≠ c) (hdigit : ∀ n < 16, Nat.digitChar n ≠ c)
    (u : Uuid) : ∀ d ∈ u.hyphenated.toList, d ≠ c := by
  intro d hd
  by_cases hyphen : d = '-'
  · rwa [hyphen]
  · have hmem : d ∈ u.hyphenated.toList.filter (· != '-') :=
      List.mem_filter.2 ⟨hd, bne_iff_ne.2 hyphen⟩
    rw [Uuid.filter_hyphenated] at hmem
    exact Hex.digits_ne hdigit d hmem

theorem Uuid.hyphenated_ne_colon (u : Uuid) : ∀ d ∈ u.hyphenated.toList, d ≠ ':' :=
  u.hyphenated_ne (by decide) (by decide)

end TensorGrid
