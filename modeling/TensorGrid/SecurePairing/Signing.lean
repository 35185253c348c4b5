import TensorGrid.SecurePairing.Certificates

/-!
# The challenge signer signs certificates

`sign_challenge` signs whatever bytes it is given, under the key that also signs the certificates.
The text of a certificate determines its five fields (`certificateData_inj`), so with an ideal
scheme and a collision-free hash the only certificates that are accepted without having been issued
are those whose hash was given to `sign_challenge` (`always_onlyIssued_iff`).
-/

namespace TensorGrid

open Rust

/-! ## The text of a certificate -/

/-- Text up to the first separator and after it. -/
theorem append_sep_inj {α : Type*} {c : α} {a a' b b' : List α} (ha : ∀ d ∈ a, d ≠ c)
    (ha' : ∀ d ∈ a', d ≠ c) (h : a ++ c :: b = a' ++ c :: b') : a = a' ∧ b = b' := by
  induction a generalizing a' with
  | nil =>
    cases a' with
    | nil => exact ⟨rfl, (List.cons.inj h).2⟩
    | cons d a' => exact absurd (List.cons.inj h).1.symm (ha' d (.head _))
  | cons d a ih =>
    cases a' with
    | nil => exact absurd (List.cons.inj h).1 (ha d (.head _))
    | cons d' a' =>
      obtain ⟨rfl, htail⟩ := List.cons.inj h
      obtain ⟨rfl, hb⟩ := ih (fun x hx => ha x (.tail _ hx)) (fun x hx => ha' x (.tail _ hx)) htail
      exact ⟨rfl, hb⟩

theorem natRepr_ne_colon (n : Nat) : ∀ d ∈ n.repr.toList, d ≠ ':' := by
  rintro d hd rfl
  rw [Nat.toList_repr] at hd
  have hdigit := Nat.isDigit_of_mem_toDigits (by decide) (by decide) hd
  exact absurd hdigit (by decide)

theorem intRepr_ne_colon (n : Int) : ∀ d ∈ (toString n).toList, d ≠ ':' := by
  rw [Int.toString_eq_repr, Int.repr_eq_if]
  split
  · exact natRepr_ne_colon _
  · intro d hd
    have hminus : "-".toList = ['-'] := rfl
    rw [String.toList_append, hminus] at hd
    rcases List.mem_append.1 hd with hd | hd
    · rw [List.mem_singleton.1 hd]
      decide
    · exact natRepr_ne_colon _ d hd

/-- The five fields are the texts between the colons. -/
theorem toList_certificateData (nodeId : NodeId) (clusterId : ClusterId) (publicKey : List UInt8)
    (issuedAt expiresAt : Int) :
    (certificateData nodeId clusterId publicKey issuedAt expiresAt).toList =
      nodeId.hyphenated.toList ++ ':' :: (clusterId.hyphenated.toList ++ ':' ::
        ((Hex.encode publicKey).toList ++ ':' ::
          ((toString issuedAt).toList ++ ':' :: (toString expiresAt).toList))) := by
  have hcolon : ":".toList = [':'] := rfl
  simp only [certificateData, String.toList_append, hcolon, List.append_assoc, List.cons_append,
    List.nil_append]

/-- All fields but the signature. -/
def DeviceCertificate.SameFields (certificate certificate' : DeviceCertificate) : Prop :=
  certificate.nodeId = certificate'.nodeId ∧ certificate.clusterId = certificate'.clusterId ∧
    certificate.publicKey = certificate'.publicKey ∧
    certificate.issuedAt = certificate'.issuedAt ∧ certificate.expiresAt = certificate'.expiresAt

theorem DeviceCertificate.SameFields.trans {certificate certificate' certificate'' :
    DeviceCertificate} (h : certificate.SameFields certificate')
    (h' : certificate'.SameFields certificate'') : certificate.SameFields certificate'' := by
  obtain ⟨hnode, hcluster, hkey, hissued, hexpires⟩ := h
  rwa [SameFields, hnode, hcluster, hkey, hissued, hexpires]

/-- The certificate with another signature. -/
def DeviceCertificate.signedWith (certificate : DeviceCertificate) (signature : List UInt8) :
    DeviceCertificate :=
  { certificate with coordinatorSignature := signature }

/-- **The text of a certificate determines its fields.** -/
theorem certificateData_inj {certificate certificate' : DeviceCertificate}
    (h : certificate.data = certificate'.data) : certificate.SameFields certificate' := by
  have htext := congrArg String.toList h
  rw [DeviceCertificate.data, DeviceCertificate.data, toList_certificateData,
    toList_certificateData] at htext
  obtain ⟨hnode, htext⟩ := append_sep_inj (Uuid.hyphenated_ne_colon _)
    (Uuid.hyphenated_ne_colon _) htext
  obtain ⟨hcluster, htext⟩ := append_sep_inj (Uuid.hyphenated_ne_colon _)
    (Uuid.hyphenated_ne_colon _) htext
  rw [Hex.toList_encode, Hex.toList_encode] at htext
  obtain ⟨hkey, htext⟩ := append_sep_inj (Hex.digits_ne (by decide)) (Hex.digits_ne (by decide))
    htext
  obtain ⟨hissued, hexpires⟩ := append_sep_inj (intRepr_ne_colon _) (intRepr_ne_colon _) htext
  have hint {m n : Int} (h : (toString m).toList = (toString n).toList) : m = n :=
    Int.repr_injective (String.toList_inj.1 h)
  exact ⟨Uuid.hyphenated_injective (String.toList_inj.1 hnode),
    Uuid.hyphenated_injective (String.toList_inj.1 hcluster),
    Hex.flatMap_digits_injective hkey, hint hissued, hint hexpires⟩

theorem utf8_injective {s s' : String}
    (h : s.toByteArray.data.toList = s'.toByteArray.data.toList) : s = s' :=
  String.toByteArray_inj.1 (ByteArray.ext (Array.toList_inj.1 h))

theorem DeviceCertificate.sameFields_of_hash {sha256 : List UInt8 → List UInt8}
    (hhash : Function.Injective sha256) {certificate certificate' : DeviceCertificate}
    (h : certificate.hash sha256 = certificate'.hash sha256) :
    certificate.SameFields certificate' :=
  certificateData_inj (utf8_injective (hhash h))

/-! ## Signatures in a run -/

namespace Transcript

variable {S : SignatureScheme} {sha256 : List UInt8 → List UInt8}

/-- The signatures that exist under the key of the manager: those it has returned. -/
def Returned (r : Transcript S) (signature : List UInt8) : Prop :=
  (∃ challenge ∈ r.signed, signature = r.manager.signChallenge challenge) ∨
  ∃ certificate ∈ r.issued, signature = certificate.coordinatorSignature

/-- A certificate with these fields was issued. -/
def Issued (r : Transcript S) (certificate : DeviceCertificate) : Prop :=
  ∃ issued ∈ r.issued, certificate.SameFields issued

/-- Every certificate that is accepted under the manager's key has the fields of one that was
issued. -/
def OnlyIssued (sha256 : List UInt8 → List UInt8) (r : Transcript S) : Prop :=
  ∀ certificate now, r.Returned certificate.coordinatorSignature →
    PairingManager.verifyCertificate sha256 S certificate r.manager.publicKey now = .ok true →
    r.Issued certificate

/-- `sign_challenge` is not given the hash of a certificate, unless that was issued already. -/
def SignsNoCertificate (sha256 : List UInt8 → List UInt8) (r : Transcript S) : PairingEvent → Prop
  | .signChallenge challenge => ∀ certificate : DeviceCertificate,
    challenge = certificate.hash sha256 → (r.manager.signChallenge challenge).length = 64 →
    r.Issued certificate
  | .generateChallenge _ _ _ _ | .verifyResponse _ _ _ _ | .revokeNode _ |
    .cleanupExpiredChallenges _ => True

/-- The certificates are the manager's, and it has signed no other. -/
structure Sound (sha256 : List UInt8 → List UInt8) (r : Transcript S) : Prop where
  genuine : Genuine sha256 r
  signed : ∀ certificate : DeviceCertificate, certificate.hash sha256 ∈ r.signed →
    (r.manager.signChallenge (certificate.hash sha256)).length = 64 → r.Issued certificate

theorem Sound.onlyIssued (hS : S.Ideal) (hhash : Function.Injective sha256) {r : Transcript S}
    (h : Sound sha256 r) : OnlyIssued sha256 r := by
  intro certificate now hreturned haccepted
  obtain ⟨-, hlen, signature, hof, hverify⟩ :=
    (verifyCertificate_eq_true_iff hS.toCorrect _ _ _).1 haccepted
  obtain ⟨key, hkey, rfl⟩ := hS.of_verify _ _ _ hverify
  obtain rfl := hS.publicKey_injective hkey
  -- the signature is one of the message `m`, so `m` is the hash of the certificate
  have hmessage {m : List UInt8}
      (heq : certificate.coordinatorSignature = r.manager.signChallenge m) :
      m = certificate.hash sha256 := by
    rw [heq, PairingManager.signChallenge, hS.signatureOfBytes_signatureBytes] at hof
    exact (hS.sign_inj _ _ _ _ (Option.some.inj hof)).2
  rcases hreturned with ⟨challenge, hmem, heq⟩ | ⟨issued, hmem, heq⟩
  · rw [hmessage heq] at hmem heq
    exact h.signed certificate hmem (heq ▸ hlen)
  · obtain ⟨nodeId, nodePublicKey, issuedAt, rfl⟩ := h.genuine issued hmem
    exact ⟨_, hmem, DeviceCertificate.sameFields_of_hash hhash (hmessage heq).symm⟩

/-- The challenges signed before a call, and by it. -/
theorem mem_signed_step {r t : Transcript S} {e : PairingEvent} (he : r.step sha256 e = some t)
    {challenge : List UInt8} (h : challenge ∈ t.signed) :
    challenge ∈ r.signed ∨ e = .signChallenge challenge := by
  cases e with
  | signChallenge =>
    cases he
    rcases List.mem_cons.1 h with rfl | h
    · exact .inr rfl
    · exact .inl h
  | generateChallenge | revokeNode | cleanupExpiredChallenges =>
    cases he
    exact .inl h
  | verifyResponse =>
    rw [Transcript.step] at he
    split at he
    all_goals
      cases he
      exact .inl h

theorem Sound.step {r t : Transcript S} {e : PairingEvent} (h : Sound sha256 r)
    (hno : SignsNoCertificate sha256 r e) (he : r.step sha256 e = some t) : Sound sha256 t := by
  refine ⟨h.genuine.step he, fun certificate hmem hlen => ?_⟩
  have hkey : t.manager.signChallenge = r.manager.signChallenge := by
    funext challenge
    rw [PairingManager.signChallenge, PairingManager.signChallenge, (step_spec he).2.1]
  rw [hkey] at hlen
  obtain ⟨issued, hissued, hsame⟩ : r.Issued certificate := by
    rcases mem_signed_step he hmem with hmem | rfl
    · exact h.signed certificate hmem hlen
    · exact hno certificate rfl hlen
  exact ⟨issued, mem_issued_step he hissued, hsame⟩

/-- The hash of a certificate, signed as a challenge, makes the certificate. -/
theorem signsNoCertificate_of_onlyIssued (hS : S.Correct) {r t : Transcript S} {e : PairingEvent}
    (he : r.step sha256 e = some t) (honly : OnlyIssued sha256 t) :
    SignsNoCertificate sha256 r e := by
  cases e with
  | generateChallenge | verifyResponse | revokeNode | cleanupExpiredChallenges => trivial
  | signChallenge challenge =>
    rintro certificate rfl hlen
    cases he
    -- the certificate with the signature that `sign_challenge` returned
    have hforged := honly
      (certificate.signedWith (r.manager.signChallenge (certificate.hash sha256)))
      ⟨certificate.expiresAt * 1000000000⟩ (.inl ⟨_, .head _, rfl⟩)
    refine hforged ((verifyCertificate_eq_true_iff hS _ _ _).2
      ⟨?_, hlen, _, hS.signatureOfBytes_signatureBytes _, hS.verify_sign _ _⟩)
    exact (Int.mul_ediv_cancel _ (by decide)).le

/-- **All accepted certificates were issued exactly along the runs in which `sign_challenge` is
given no hash of a certificate that was not issued before.** -/
theorem always_onlyIssued_iff (hS : S.Ideal) (hhash : Function.Injective sha256)
    (clusterId : ClusterId) (key : S.SecretKey) (es : List PairingEvent) :
    Lts.Always (step sha256) (OnlyIssued sha256) (init clusterId key) es ↔
      Lts.Meets (step sha256) (SignsNoCertificate sha256) (init clusterId key) es := by
  refine Lts.always_iff_meets_of_inv (I := Sound sha256) (fun r h => h.onlyIssued hS hhash)
    (fun r e t h hno he => h.step hno he)
    (fun r e t _ he honly => signsNoCertificate_of_onlyIssued hS.toCorrect he honly) ⟨?_, ?_⟩
  · exact genuine_init clusterId key
  · exact fun _ hmem => nomatch hmem

/-- The certificate of node 7 for the cluster 0 and the key `1…1`, without a signature. -/
def unissued : DeviceCertificate := ⟨⟨7⟩, ⟨0⟩, List.replicate 32 1, 0, 31536000, []⟩

/-- A collision-free hash that maps the text of `unissued` to 32 zeros. -/
def swapHash : List UInt8 → List UInt8 :=
  Equiv.swap unissued.data.toByteArray.data.toList (List.replicate 32 0)

theorem swapHash_injective : Function.Injective swapHash := Equiv.injective _

theorem hash_unissued : unissued.hash swapHash = List.replicate 32 0 := Equiv.swap_apply_left _ _

/-- Node 7 is paired, and the hash of its certificate signed as a challenge. -/
theorem always_onlyIssued_small : ∃ s, Lts.exec (step swapHash)
    (init (S := .symbolic) ⟨0⟩ (Coordinator.keyOf 0))
      (pairLabels ++ [.signChallenge (List.replicate 32 0)]) = some s ∧ s.Issued unissued ∧
    Lts.Always (step swapHash) (OnlyIssued swapHash)
      (init (S := .symbolic) ⟨0⟩ (Coordinator.keyOf 0))
      (pairLabels ++ [.signChallenge (List.replicate 32 0)]) := by
  obtain ⟨s, hs, hissued⟩ := exec_pair swapHash
  have hseven : s.Issued unissued := by
    rw [Issued, hissued]
    exact ⟨_, .head _, rfl, rfl, rfl, rfl, rfl⟩
  have hsign : s.step swapHash (.signChallenge (List.replicate 32 0)) =
      some { s with signed := List.replicate 32 0 :: s.signed } := rfl
  refine ⟨_, Lts.exec_append.2 ⟨s, hs, Lts.exec_cons.2 ⟨_, hsign, rfl⟩⟩, hseven,
    (always_onlyIssued_iff SignatureScheme.ideal_symbolic swapHash_injective ⟨0⟩ _ _).2
      ((Lts.meets_concat hs hsign).2 ⟨?_, ?_⟩)⟩
  · exact fun _ _ => ⟨trivial, fun _ _ => ⟨trivial, trivial⟩⟩
  · intro certificate hhash _
    obtain ⟨issued, hmem, hsame⟩ := hseven
    have hfields := DeviceCertificate.sameFields_of_hash swapHash_injective
      (hhash.symm.trans hash_unissued.symm)
    exact ⟨issued, hmem, hfields.trans hsame⟩

/-- `sign_challenge` on the hash of a certificate that nobody issued. -/
theorem signed_challenge_certifies : SignatureScheme.symbolic.Ideal ∧
    Function.Injective swapHash ∧
    ¬ Lts.Always (step swapHash) (OnlyIssued swapHash)
      (init (S := .symbolic) ⟨0⟩ (Coordinator.keyOf 0)) [.signChallenge (List.replicate 32 0)] := by
  refine ⟨SignatureScheme.ideal_symbolic, swapHash_injective, fun h => ?_⟩
  have hstep : (init (S := .symbolic) ⟨0⟩ (Coordinator.keyOf 0)).step swapHash
      (.signChallenge (List.replicate 32 0)) =
        some ⟨.newCoordinator ⟨0⟩ (Coordinator.keyOf 0), [], [List.replicate 32 0]⟩ := rfl
  have hno := signsNoCertificate_of_onlyIssued SignatureScheme.ideal_symbolic.toCorrect hstep
    (h.2 _ hstep).head
  obtain ⟨issued, hmem, -⟩ := hno unissued hash_unissued.symm (by decide)
  cases hmem

end Transcript

end TensorGrid
