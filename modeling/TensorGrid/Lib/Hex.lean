import Mathlib

/-!
# Hexadecimal text

`Hex.encode` writes each byte as two lower-case digits. It is injective (`encode_injective`,
`flatMap_digits_injective`), and its text has no separators (`digits_ne`), so that it can be cut
out of a longer text.
-/

namespace Hex

/-- The two digits of a byte. -/
def digits (b : UInt8) : List Char :=
  [Nat.digitChar (b.toNat / 16), Nat.digitChar (b.toNat % 16)]

/-- `hex::encode`. -/
def encode (bs : List UInt8) : String := String.ofList (bs.flatMap digits)

@[simp] theorem toList_encode (bs : List UInt8) : (encode bs).toList = bs.flatMap digits :=
  String.toList_ofList

theorem digitChar_inj {a b : Nat} (ha : a < 16) (hb : b < 16)
    (h : Nat.digitChar a = Nat.digitChar b) : a = b := by
  have hall : ∀ a b : Fin 16, Nat.digitChar a = Nat.digitChar b → a = b := by decide
  exact congrArg Fin.val (hall ⟨a, ha⟩ ⟨b, hb⟩ h)

theorem digits_injective : Function.Injective digits := by
  intro a b h
  have ha := a.toNat_lt
  have hb := b.toNat_lt
  obtain ⟨hhigh, hlow⟩ := List.cons.inj h
  have hdiv := digitChar_inj (by omega) (by omega) hhigh
  have hmod := digitChar_inj (by omega) (by omega) (List.cons.inj hlow).1
  refine UInt8.toNat_inj.1 ?_
  omega

theorem flatMap_digits_injective : Function.Injective (List.flatMap digits) := by
  intro as bs h
  induction as generalizing bs with
  | nil =>
    cases bs with
    | nil => rfl
    | cons b bs => simp [digits] at h
  | cons a as ih =>
    cases bs with
    | nil => simp [digits] at h
    | cons b bs =>
      have happ : digits a ++ as.flatMap digits = digits b ++ bs.flatMap digits := h
      obtain ⟨hhead, htail⟩ := List.append_inj happ rfl
      rw [digits_injective hhead, ih htail]

theorem encode_injective : Function.Injective encode := by
  intro as bs h
  refine flatMap_digits_injective ?_
  rw [← toList_encode, ← toList_encode, h]

theorem mem_flatMap_digits {bs : List UInt8} {c : Char} (h : c ∈ bs.flatMap digits) :
    ∃ n < 16, c = Nat.digitChar n := by
  obtain ⟨b, -, hc⟩ := List.mem_flatMap.1 h
  have hb := b.toNat_lt
  rcases List.mem_cons.1 hc with rfl | hc
  · exact ⟨_, by omega, rfl⟩
  · exact ⟨_, Nat.mod_lt _ (by decide), List.mem_singleton.1 hc⟩

/-- A character that is no hexadecimal digit does not occur. -/
theorem digits_ne {c : Char} (hc : ∀ n < 16, Nat.digitChar n ≠ c) {bs : List UInt8} :
    ∀ d ∈ bs.flatMap digits, d ≠ c := by
  intro d hd
  obtain ⟨n, hn, rfl⟩ := mem_flatMap_digits hd
  exact hc n hn

theorem length_flatMap_digits (bs : List UInt8) : (bs.flatMap digits).length = 2 * bs.length := by
  induction bs with
  | nil => rfl
  | cons b bs ih =>
    simp only [List.flatMap_cons, List.length_append, List.length_cons, ih, digits]
    simp
    omega

end Hex
