import Mathlib

/-!
# Signature schemes

A deterministic signature scheme with the byte encodings of its keys and signatures. `Ideal` is the
symbolic assumption: a signature is accepted exactly if the holder of the key made it for that
message, and it determines both. `symbolic` is such a scheme (`ideal_symbolic`), with keys of 32
bytes and signatures of 64 bytes for messages of 32 bytes.
-/

/-- Keys, signatures and their encodings. -/
structure SignatureScheme where
  SecretKey : Type
  PublicKey : Type
  Signature : Type
  publicKey : SecretKey → PublicKey
  sign : SecretKey → List UInt8 → Signature
  verify : PublicKey → List UInt8 → Signature → Bool
  publicBytes : PublicKey → List UInt8
  publicOfBytes : List UInt8 → Option PublicKey
  signatureBytes : Signature → List UInt8
  signatureOfBytes : List UInt8 → Option Signature

namespace SignatureScheme

/-- Decoding inverts encoding, and a signature verifies under the key that made it. -/
structure Correct (S : SignatureScheme) : Prop where
  publicOfBytes_publicBytes : ∀ pk, S.publicOfBytes (S.publicBytes pk) = some pk
  signatureOfBytes_signatureBytes : ∀ s, S.signatureOfBytes (S.signatureBytes s) = some s
  verify_sign : ∀ sk m, S.verify (S.publicKey sk) m (S.sign sk m) = true

/-- Nobody but the holder of a key can make a signature that verifies under it. -/
structure Ideal (S : SignatureScheme) : Prop extends Correct S where
  of_verify : ∀ pk m s, S.verify pk m s = true → ∃ sk, pk = S.publicKey sk ∧ s = S.sign sk m
  publicKey_injective : Function.Injective S.publicKey
  sign_inj : ∀ sk sk' m m', S.sign sk m = S.sign sk' m' → sk = sk' ∧ m = m'

/-- A signature is the key and the message. -/
def symbolic : SignatureScheme where
  SecretKey := Vector UInt8 32
  PublicKey := Vector UInt8 32
  Signature := List UInt8
  publicKey := id
  sign sk m := sk.toList ++ m
  verify pk m s := s = pk.toList ++ m
  publicBytes := Vector.toList
  publicOfBytes bs := if h : bs.toArray.size = 32 then some ⟨bs.toArray, h⟩ else none
  signatureBytes := id
  signatureOfBytes := some

theorem symbolic_verify_iff (pk : Vector UInt8 32) (m s : List UInt8) :
    symbolic.verify pk m s = true ↔ s = pk.toList ++ m := by
  show decide (s = pk.toList ++ m) = true ↔ _
  exact decide_eq_true_iff

theorem symbolic_sign_inj {sk sk' : Vector UInt8 32} {m m' : List UInt8}
    (h : sk.toList ++ m = sk'.toList ++ m') : sk = sk' ∧ m = m' := by
  obtain ⟨hsk, hm⟩ := List.append_inj h (by simp)
  exact ⟨Vector.toList_inj.1 hsk, hm⟩

theorem ideal_symbolic : symbolic.Ideal where
  publicOfBytes_publicBytes := by
    rintro ⟨a, ha⟩
    simp [symbolic, ha]
  signatureOfBytes_signatureBytes _ := rfl
  verify_sign sk m := (symbolic_verify_iff sk m _).2 rfl
  of_verify pk m s h := ⟨pk, rfl, (symbolic_verify_iff pk m s).1 h⟩
  publicKey_injective := Function.injective_id
  sign_inj _ _ _ _ h := symbolic_sign_inj h

end SignatureScheme
