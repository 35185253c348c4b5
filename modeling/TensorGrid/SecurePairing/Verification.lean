import TensorGrid.SecurePairing.Signing

/-!
# What a coordinator answers

* `certificates_verify`: a certificate is accepted under the key that issued it up to the time it
  expires and refused afterwards, and the signed text determines all its fields.
* `meets_returns_iff`: `verify_response` slices the response before anything is checked, so a run
  has no panic exactly if all its responses have the eight bytes of the slice.
-/

namespace TensorGrid

open Rust

namespace Transcript

variable {S : SignatureScheme} {sha256 : List UInt8 → List UInt8}

/-! ## Certificates -/

/-- The clock is looked at before the signature. -/
theorem verifyCertificate_expired {certificate : DeviceCertificate} {now : DateTime}
    (h : certificate.expiresAt < now.timestamp) (coordinatorPublicKey : List UInt8) :
    PairingManager.verifyCertificate sha256 S certificate coordinatorPublicKey now = .ok false := by
  rw [PairingManager.verifyCertificate, if_pos h]

/-- **Issued certificates verify until they expire, and their text is unambiguous.** -/
theorem certificates_verify (hS : S.Correct) (hsigns : SignsHashes S)
    (hhash : ∀ bs, (sha256 bs).length = 32) :
    (∀ clusterId key es t, Lts.exec (step sha256) (init (S := S) clusterId key) es = some t →
      ∀ certificate ∈ t.issued, ∀ now : DateTime,
        (now.timestamp ≤ certificate.expiresAt → PairingManager.verifyCertificate sha256 S
          certificate t.manager.publicKey now = .ok true) ∧
        (certificate.expiresAt < now.timestamp → PairingManager.verifyCertificate sha256 S
          certificate t.manager.publicKey now = .ok false)) ∧
    ∀ certificate certificate' : DeviceCertificate,
      certificate.data = certificate'.data → certificate.SameFields certificate' := by
  refine ⟨fun clusterId key es t ht certificate hc now => ⟨fun hle => ?_, fun hlt => ?_⟩,
    fun _ _ => certificateData_inj⟩
  · exact (verifyCertificate_of_issued hS hsigns hhash ht hc now).2 hle
  · exact verifyCertificate_expired hlt _

/-- The certificate of node 7 is good for a year. -/
theorem certificates_verify_pair : ∃ t certificate,
    Lts.exec (step fun _ => List.replicate 32 0) (init (S := .symbolic) ⟨0⟩ (Coordinator.keyOf 0))
      pairLabels = some t ∧
    certificate ∈ t.issued ∧ ∀ now : DateTime,
      (now.timestamp ≤ certificate.expiresAt → PairingManager.verifyCertificate
        (fun _ => List.replicate 32 0) .symbolic certificate t.manager.publicKey now = .ok true) ∧
      (certificate.expiresAt < now.timestamp → PairingManager.verifyCertificate
        (fun _ => List.replicate 32 0) .symbolic certificate t.manager.publicKey now =
          .ok false) := by
  obtain ⟨t, ht, hissued⟩ := exec_pair _
  have hmem := hissued ▸ List.mem_singleton.2 rfl
  exact ⟨t, _, ht, hmem, (certificates_verify SignatureScheme.ideal_symbolic.toCorrect
    signsHashes_symbolic fun _ => rfl).1 _ _ _ t ht _ hmem⟩

/-! ## Panics -/

/-- The call does not panic. -/
def Returns (sha256 : List UInt8 → List UInt8) (r : Transcript S) : PairingEvent → Prop
  | .verifyResponse response nodePublicKey checkedAt now =>
    (r.manager.verifyResponse sha256 response nodePublicKey checkedAt now).1 ≠ .panic
  | .generateChallenge _ _ _ _ | .signChallenge _ | .revokeNode _ | .cleanupExpiredChallenges _ =>
    True

/-- A response has the eight bytes that are sliced off. -/
def Sliceable : PairingEvent → Prop
  | .verifyResponse response _ _ _ => 8 ≤ response.challengeResponse.length
  | .generateChallenge _ _ _ _ | .signChallenge _ | .revokeNode _ | .cleanupExpiredChallenges _ =>
    True

/-- Every later check has an error of its own. -/
theorem checkResponse_ne_panic (pending : PendingChallenge) (response : PairingResponse)
    (nodePublicKey : List UInt8) (now : DateTime) :
    PairingManager.checkResponse S pending response nodePublicKey now ≠ .panic := by
  unfold PairingManager.checkResponse
  split
  · nofun
  split
  · nofun
  split
  · nofun
  split
  · nofun
  split <;> nofun

/-- **A response makes `verify_response` panic exactly if it is too short for the slice.** -/
theorem verifyResponse_ne_panic_iff (m : PairingManager S) (response : PairingResponse)
    (nodePublicKey : List UInt8) (checkedAt now : DateTime) :
    (m.verifyResponse sha256 response nodePublicKey checkedAt now).1 ≠ .panic ↔
      8 ≤ response.challengeResponse.length := by
  rw [PairingManager.verifyResponse]
  by_cases hshort : response.challengeResponse.length < 8
  · rw [if_pos hshort]
    exact iff_of_false (fun h => h rfl) (not_le.2 hshort)
  rw [if_neg hshort]
  refine iff_of_true ?_ (not_lt.1 hshort)
  dsimp only
  split
  · nofun
  next pending _ =>
    have hcheck := checkResponse_ne_panic (S := S) pending response nodePublicKey checkedAt
    split
    · nofun
    next hpanic => exact absurd hpanic hcheck
    · nofun

theorem returns_iff (r : Transcript S) (e : PairingEvent) :
    r.Returns sha256 e ↔ Sliceable e := by
  cases e with
  | verifyResponse response nodePublicKey checkedAt now =>
    exact verifyResponse_ne_panic_iff r.manager response nodePublicKey checkedAt now
  | generateChallenge | signChallenge | revokeNode | cleanupExpiredChallenges => exact Iff.rfl

theorem exists_step (r : Transcript S) (e : PairingEvent) : ∃ t, r.step sha256 e = some t := by
  cases e with
  | verifyResponse response nodePublicKey checkedAt now =>
    rw [step]
    split <;> exact ⟨_, rfl⟩
  | generateChallenge | signChallenge | revokeNode | cleanupExpiredChallenges => exact ⟨_, rfl⟩

/-- **No call of a run panics exactly if every response in it has eight bytes.** -/
theorem meets_returns_iff (sha256 : List UInt8 → List UInt8) (clusterId : ClusterId)
    (key : S.SecretKey) (es : List PairingEvent) :
    Lts.Meets (step sha256) (Returns sha256) (init clusterId key) es ↔ ∀ e ∈ es, Sliceable e :=
  Lts.meets_iff_forall exists_step returns_iff

/-- A response without bytes. -/
def emptyResponse : PairingEvent := .verifyResponse ⟨⟨7⟩, [], []⟩ [] ⟨0⟩ ⟨0⟩

theorem not_returns_emptyResponse : ¬ Lts.Meets (step fun _ => List.replicate 32 0)
    (Returns fun _ => List.replicate 32 0) (init (S := .symbolic) ⟨0⟩ (Coordinator.keyOf 0))
    [emptyResponse] := by
  intro h
  obtain ⟨hreturns, -⟩ := h _ rfl
  exact hreturns rfl

end Transcript

end TensorGrid
