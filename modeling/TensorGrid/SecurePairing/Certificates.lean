import TensorGrid.SecurePairing.SingleUse

/-!
# Certificates and revocation

`verify_certificate` looks at the certificate, the clock and the coordinator's key. It does not look
at the registered nodes, which are all that `revoke_node` changes: a certificate that was issued
once is accepted until it expires (`verifyCertificate_issued`), whatever is revoked
(`verifyCertificate_revoked_iff`).

`Transcript` is a manager with a record of what it has signed, for runs of its operations with any
arguments.
-/

namespace TensorGrid

open Rust

/-- The text of a certificate, the part that is hashed and signed. -/
def DeviceCertificate.data (certificate : DeviceCertificate) : String :=
  certificateData certificate.nodeId certificate.clusterId certificate.publicKey
    certificate.issuedAt certificate.expiresAt

/-- The hash that the coordinator signs. -/
def DeviceCertificate.hash (sha256 : List UInt8 → List UInt8) (certificate : DeviceCertificate) :
    List UInt8 := sha256 certificate.data.toByteArray.data.toList

/-! ## Runs -/

/-- A manager, the certificates it has issued and the challenges it has signed. -/
structure Transcript (S : SignatureScheme) where
  manager : PairingManager S
  issued : List DeviceCertificate
  signed : List (List UInt8)

namespace Transcript

variable {S : SignatureScheme} {sha256 : List UInt8 → List UInt8}

def init (clusterId : ClusterId) (key : S.SecretKey) : Transcript S :=
  ⟨.newCoordinator clusterId key, [], []⟩

/-- One call, with any arguments. -/
def step (sha256 : List UInt8 → List UInt8) (r : Transcript S) :
    PairingEvent → Option (Transcript S)
  | .generateChallenge request nodeId challenge now =>
    some { r with manager := (r.manager.generateChallenge request nodeId challenge now).2 }
  | .verifyResponse response nodePublicKey checkedAt now =>
    match r.manager.verifyResponse sha256 response nodePublicKey checkedAt now with
    | (.ok certificate, m) => some { r with manager := m, issued := certificate :: r.issued }
    | (.err _, m) => some { r with manager := m }
    | (.panic, m) => some { r with manager := m }
  | .signChallenge challenge => some { r with signed := challenge :: r.signed }
  | .revokeNode nodeId => some { r with manager := r.manager.revokeNode nodeId }
  | .cleanupExpiredChallenges now =>
    some { r with manager := r.manager.cleanupExpiredChallenges now }

/-! ## Verification -/

/-- All that `verify_certificate` depends on. -/
theorem verifyCertificate_eq_true_iff (hS : S.Correct) (m : PairingManager S)
    (certificate : DeviceCertificate) (now : DateTime) :
    PairingManager.verifyCertificate sha256 S certificate m.publicKey now = .ok true ↔
      now.timestamp ≤ certificate.expiresAt ∧ certificate.coordinatorSignature.length = 64 ∧
      ∃ signature, S.signatureOfBytes certificate.coordinatorSignature = some signature ∧
        S.verify (S.publicKey m.coordinatorKey) (certificate.hash sha256) signature = true := by
  rw [PairingManager.verifyCertificate]
  by_cases hexp : now.timestamp > certificate.expiresAt
  · rw [if_pos hexp]
    exact iff_of_false nofun fun h => absurd h.1 (by omega)
  rw [if_neg hexp]
  show PairingManager.verifyCoordinatorSignature S (certificate.hash sha256)
    certificate.coordinatorSignature m.publicKey = .ok true ↔ _
  rw [PairingManager.verifyCoordinatorSignature, PairingManager.publicKey,
    hS.publicOfBytes_publicBytes]
  dsimp only
  by_cases hlen : certificate.coordinatorSignature.length = 64
  · rw [if_neg (not_not.2 hlen)]
    cases S.signatureOfBytes certificate.coordinatorSignature with
    | none =>
      refine iff_of_false nofun ?_
      rintro ⟨-, -, _, ⟨⟩, -⟩
    | some signature =>
      constructor
      · intro h
        exact ⟨by omega, hlen, signature, rfl, Outcome.ok.inj h⟩
      · rintro ⟨-, -, _, ⟨⟩, h⟩
        exact congrArg Outcome.ok h
  · rw [if_pos hlen]
    exact iff_of_false nofun fun h => hlen h.2.1

/-- An issued certificate is accepted until it expires. -/
theorem verifyCertificate_issued (hS : S.Correct) (m : PairingManager S) (nodeId : NodeId)
    (nodePublicKey : List UInt8) (issuedAt now : DateTime)
    (hlen : (m.issueCertificate sha256 nodeId nodePublicKey issuedAt).coordinatorSignature.length =
      64) :
    PairingManager.verifyCertificate sha256 S
        (m.issueCertificate sha256 nodeId nodePublicKey issuedAt) m.publicKey now = .ok true ↔
      now.timestamp ≤ (m.issueCertificate sha256 nodeId nodePublicKey issuedAt).expiresAt := by
  rw [verifyCertificate_eq_true_iff hS]
  refine and_iff_left ⟨hlen, _, hS.signatureOfBytes_signatureBytes _, ?_⟩
  exact hS.verify_sign _ _

/-! ## Issued certificates -/

/-- **What a call does**: the cluster and the key stay, and a certificate issued is the
manager's. -/
theorem step_spec {r t : Transcript S} {e : PairingEvent} (he : r.step sha256 e = some t) :
    t.manager.clusterId = r.manager.clusterId ∧
    t.manager.coordinatorKey = r.manager.coordinatorKey ∧
    (t.issued = r.issued ∨ ∃ nodeId nodePublicKey now,
      t.issued = r.manager.issueCertificate sha256 nodeId nodePublicKey now :: r.issued) := by
  cases e with
  | generateChallenge | signChallenge | revokeNode | cleanupExpiredChallenges =>
    cases he
    exact ⟨rfl, rfl, .inl rfl⟩
  | verifyResponse response nodePublicKey checkedAt now =>
    obtain ⟨hok, hrefused⟩ := @Coordinator.verifyResponse_manager S sha256 r.manager
      response nodePublicKey checkedAt now
    rw [step] at he
    split at he
    next certificate m heq =>
      cases he
      rw [heq] at hok
      obtain ⟨-, rfl, rfl⟩ := hok certificate rfl
      exact ⟨rfl, rfl, .inr ⟨_, _, _, rfl⟩⟩
    next e m heq =>
      cases he
      rw [heq] at hrefused
      obtain ⟨-, hcluster, hkey⟩ := hrefused nofun
      exact ⟨hcluster, hkey, .inl rfl⟩
    next m heq =>
      cases he
      rw [heq] at hrefused
      obtain ⟨-, hcluster, hkey⟩ := hrefused nofun
      exact ⟨hcluster, hkey, .inl rfl⟩

theorem step_verified {r : Transcript S} {response : PairingResponse}
    {nodePublicKey : List UInt8} {checkedAt now : DateTime} {certificate : DeviceCertificate}
    (h : (r.manager.verifyResponse sha256 response nodePublicKey checkedAt now).1 =
      .ok certificate) :
    r.step sha256 (.verifyResponse response nodePublicKey checkedAt now) =
      some { r with
        manager := (r.manager.verifyResponse sha256 response nodePublicKey checkedAt now).2
        issued := certificate :: r.issued } := by
  rw [step]
  rcases hr : r.manager.verifyResponse sha256 response nodePublicKey checkedAt now with ⟨o, m⟩
  rw [hr] at h
  obtain rfl : o = .ok certificate := h
  rfl

/-- Every certificate was issued by the manager. -/
def Genuine (sha256 : List UInt8 → List UInt8) (r : Transcript S) : Prop :=
  ∀ certificate ∈ r.issued, ∃ nodeId nodePublicKey now,
    certificate = r.manager.issueCertificate sha256 nodeId nodePublicKey now

theorem issueCertificate_congr {m m' : PairingManager S} (hcluster : m.clusterId = m'.clusterId)
    (hkey : m.coordinatorKey = m'.coordinatorKey) :
    m.issueCertificate sha256 = m'.issueCertificate sha256 := by
  funext nodeId nodePublicKey now
  rw [PairingManager.issueCertificate, PairingManager.issueCertificate, hcluster, hkey]

theorem Genuine.step {r t : Transcript S} {e : PairingEvent} (h : Genuine sha256 r)
    (he : r.step sha256 e = some t) : Genuine sha256 t := by
  obtain ⟨hcluster, hkey, hissued⟩ := step_spec he
  rw [Genuine, issueCertificate_congr hcluster hkey]
  rcases hissued with hissued | ⟨nodeId, nodePublicKey, now, hissued⟩
  · rw [hissued]
    exact h
  · rw [hissued]
    exact List.forall_mem_cons.2 ⟨⟨nodeId, nodePublicKey, now, rfl⟩, h⟩

theorem genuine_init (clusterId : ClusterId) (key : S.SecretKey) :
    Genuine sha256 (init clusterId key) := fun _ hc => nomatch hc

theorem mem_issued_step {r t : Transcript S} {e : PairingEvent} (he : r.step sha256 e = some t)
    {certificate : DeviceCertificate} (hc : certificate ∈ r.issued) : certificate ∈ t.issued := by
  obtain ⟨-, -, hissued | ⟨_, _, _, hissued⟩⟩ := step_spec he
  · rwa [hissued]
  · rw [hissued]
    exact .tail _ hc

/-! ## Revocation -/

/-- Signatures of 32-byte hashes have 64 bytes. -/
def SignsHashes (S : SignatureScheme) : Prop :=
  ∀ key m, m.length = 32 → (S.signatureBytes (S.sign key m)).length = 64

/-- In any state after it was issued, a certificate is accepted until it expires. -/
theorem verifyCertificate_of_issued (hS : S.Correct) (hsigns : SignsHashes S)
    (hhash : ∀ bs, (sha256 bs).length = 32) {clusterId : ClusterId} {key : S.SecretKey}
    {es : List PairingEvent} {t : Transcript S}
    (h : Lts.exec (step sha256) (init clusterId key) es = some t)
    {certificate : DeviceCertificate} (hc : certificate ∈ t.issued) (now : DateTime) :
    PairingManager.verifyCertificate sha256 S certificate t.manager.publicKey now = .ok true ↔
      now.timestamp ≤ certificate.expiresAt := by
  have hgenuine : Genuine sha256 t :=
    Lts.exec_inv (fun _ _ _ hs he => Genuine.step hs he) h (genuine_init clusterId key)
  obtain ⟨nodeId, nodePublicKey, issuedAt, rfl⟩ := hgenuine certificate hc
  exact verifyCertificate_issued hS t.manager nodeId nodePublicKey issuedAt now
    (hsigns _ _ (hhash _))

/-- **A revoked certificate is refused exactly after it has expired**: for every run that revokes a
node, every certificate of the node from before and every later clock reading. -/
theorem verifyCertificate_revoked_iff (hS : S.Correct) (hsigns : SignsHashes S)
    (hhash : ∀ bs, (sha256 bs).length = 32) {clusterId : ClusterId} {key : S.SecretKey}
    {es later : List PairingEvent} {s t : Transcript S} {nodeId : NodeId}
    (hs : Lts.exec (step sha256) (init clusterId key) es = some s)
    (ht : Lts.exec (step sha256) s (.revokeNode nodeId :: later) = some t)
    {certificate : DeviceCertificate} (hc : certificate ∈ s.issued)
    (_ : certificate.nodeId = nodeId) (now : DateTime) :
    PairingManager.verifyCertificate sha256 S certificate t.manager.publicKey now ≠ .ok true ↔
      certificate.expiresAt < now.timestamp := by
  have hct : certificate ∈ t.issued :=
    Lts.exec_inv (I := fun r : Transcript S => certificate ∈ r.issued)
      (fun _ _ _ hs he => mem_issued_step he hs) ht hc
  rw [Ne, verifyCertificate_of_issued hS hsigns hhash (Lts.exec_append.2 ⟨s, hs, ht⟩) hct, not_le]

theorem signsHashes_symbolic : SignsHashes .symbolic := by
  intro key m hm
  have hkey : (Vector.toList key).length = 32 := Vector.length_toList
  show (Vector.toList key ++ m).length = 64
  rw [List.length_append, hkey, hm]

/-- The challenge for node 7, answered with the key `1…1` at time 0. -/
def pairLabels : List PairingEvent :=
  Coordinator.overhear (S := .symbolic) (Coordinator.requestFor (List.replicate 32 1)) ⟨7⟩
    (Vector.replicate 32 9) (Coordinator.keyOf 1) ⟨0⟩

theorem exec_pair (sha256 : List UInt8 → List UInt8) : ∃ s, Lts.exec (step sha256)
    (init (S := .symbolic) ⟨0⟩ (Coordinator.keyOf 0)) pairLabels = some s ∧
      s.issued = [(PairingManager.newCoordinator (S := .symbolic) ⟨0⟩
        (Coordinator.keyOf 0)).issueCertificate sha256 ⟨7⟩ (List.replicate 32 1) ⟨0⟩] := by
  have hlen : (SignatureScheme.symbolic.signatureBytes (SignatureScheme.symbolic.sign
      (Coordinator.keyOf 1) (Vector.replicate 32 9).toList)).length = 64 := by decide
  have hacc := Coordinator.accepted_drawn SignatureScheme.ideal_symbolic.toCorrect
    (.init ⟨0⟩ (Coordinator.keyOf 0)) (Coordinator.requestFor (List.replicate 32 1)) ⟨7⟩
    (Vector.replicate 32 9) ⟨0⟩ hlen
  obtain ⟨hno, -⟩ | ⟨-, certificate, hok, -⟩ := Coordinator.verifyResponse_cases
    sha256 _ _ _ ⟨0⟩ ⟨0⟩
  · exact absurd hacc hno
  obtain ⟨-, hissued, -⟩ := (Coordinator.verifyResponse_manager _ _ _ _ _).1 certificate hok
  refine ⟨_, Lts.exec_cons.2 ⟨_, rfl, Lts.exec_cons.2 ⟨_, step_verified hok, rfl⟩⟩, ?_⟩
  rw [hissued]
  rfl

theorem verifyCertificate_revoked_small : ∃ s t certificate,
    Lts.exec (step fun _ => List.replicate 32 0) (init (S := .symbolic) ⟨0⟩ (Coordinator.keyOf 0))
      pairLabels = some s ∧
    Lts.exec (step fun _ => List.replicate 32 0) s [.revokeNode ⟨7⟩] = some t ∧
    certificate ∈ s.issued ∧ certificate.nodeId = ⟨7⟩ ∧ ∀ now,
      (PairingManager.verifyCertificate (fun _ => List.replicate 32 0) .symbolic certificate
        t.manager.publicKey now ≠ .ok true ↔ certificate.expiresAt < now.timestamp) := by
  obtain ⟨s, hs, hissued⟩ := exec_pair _
  have hrevoke : Lts.exec (step fun _ => List.replicate 32 0) s [.revokeNode ⟨7⟩] =
      some { s with manager := s.manager.revokeNode ⟨7⟩ } := rfl
  refine ⟨s, _, _, hs, hrevoke, by rw [hissued]; exact .head _, rfl, fun now => ?_⟩
  exact verifyCertificate_revoked_iff SignatureScheme.ideal_symbolic.toCorrect signsHashes_symbolic
    (fun _ => rfl) hs hrevoke (by rw [hissued]; exact .head _) rfl now

/-- The certificate of node 7 is accepted after the node was revoked. -/
theorem revoked_certificate_accepted : ∃ s t certificate,
    Lts.exec (step fun _ => List.replicate 32 0) (init (S := .symbolic) ⟨0⟩ (Coordinator.keyOf 0))
      pairLabels = some s ∧
    Lts.exec (step fun _ => List.replicate 32 0) s [.revokeNode ⟨7⟩] = some t ∧
    certificate ∈ s.issued ∧ certificate.nodeId = ⟨7⟩ ∧
      PairingManager.verifyCertificate (fun _ => List.replicate 32 0) .symbolic certificate
        t.manager.publicKey ⟨0⟩ = .ok true := by
  obtain ⟨s, hs, hissued⟩ := exec_pair _
  refine ⟨s, { s with manager := s.manager.revokeNode ⟨7⟩ }, _, hs, rfl,
    by rw [hissued]; exact .head _, rfl, ?_⟩
  have hrun : Lts.exec (step fun _ => List.replicate 32 0)
      (init (S := .symbolic) ⟨0⟩ (Coordinator.keyOf 0)) (pairLabels ++ [.revokeNode ⟨7⟩]) =
        some { s with manager := s.manager.revokeNode ⟨7⟩ } :=
    Lts.exec_append.2 ⟨s, hs, rfl⟩
  refine (verifyCertificate_of_issued SignatureScheme.ideal_symbolic.toCorrect
    signsHashes_symbolic (fun _ => rfl) hrun (by rw [hissued]; exact .head _) ⟨0⟩).2 ?_
  decide

end Transcript

end TensorGrid
