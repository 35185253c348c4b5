import TensorGrid.SecurePairing.Model

/-!
# Certificates and the keys of the requests

Nothing ties a certificate to the key of the pairing request: `generate_challenge` does not keep the
request, and `verify_response` certifies whatever key its caller supplies, provided the challenge is
signed under that key.

* `challengeId_inj`: a challenge id determines the node id, so a pending challenge belongs to one
  request (`Tracked`).
* `verifyResponse_cases`: all that `verify_response` can do.
* `always_bound_iff`: a run issues only certificates with the requested keys exactly when every
  accepted response comes with the requested key.
* `overheard_certified`: a run in which the owner of another key signs an overheard challenge.
-/

namespace TensorGrid

open Rust

/-! ## Challenge ids -/

/-- The node id is the text before the first colon. -/
theorem takeWhile_challengeId (nodeId : NodeId) (challenge : List UInt8) :
    (challengeId nodeId challenge).toList.takeWhile (· != ':') = nodeId.hyphenated.toList := by
  have hcolon : ":".toList = [':'] := rfl
  rw [challengeId, String.toList_append, String.toList_append, hcolon, List.append_assoc,
    List.takeWhile_append_of_pos fun d hd => bne_iff_ne.2 (nodeId.hyphenated_ne_colon d hd)]
  simp

theorem challengeId_inj {nodeId nodeId' : NodeId} {challenge challenge' : List UInt8}
    (h : challengeId nodeId challenge = challengeId nodeId' challenge') : nodeId = nodeId' := by
  refine Uuid.hyphenated_injective (String.toList_inj.1 ?_)
  rw [← takeWhile_challengeId nodeId challenge, h, takeWhile_challengeId]

/-! ## What a response can do -/

namespace Coordinator

variable {S : SignatureScheme} {sha256 : List UInt8 → List UInt8}

/-- The response passes all checks: its challenge is pending and has not expired, and it is signed
under the supplied key. -/
def Accepted (m : PairingManager S) (response : PairingResponse) (nodePublicKey : List UInt8)
    (checkedAt : DateTime) : Prop :=
  8 ≤ response.challengeResponse.length ∧ ∃ pending,
    m.pendingChallenges.lookup (challengeId response.nodeId response.challengeResponse) =
      some pending ∧
    PairingManager.checkResponse S pending response nodePublicKey checkedAt = .ok ()

/-- All that `verify_response` can do: refuse, or issue a certificate with the supplied key. -/
theorem verifyResponse_cases (sha256 : List UInt8 → List UInt8) (m : PairingManager S)
    (response : PairingResponse) (nodePublicKey : List UInt8) (checkedAt now : DateTime) :
    (¬ Accepted m response nodePublicKey checkedAt ∧
      ∀ certificate, (m.verifyResponse sha256 response nodePublicKey checkedAt now).1 ≠
        .ok certificate) ∨
    (Accepted m response nodePublicKey checkedAt ∧ ∃ certificate,
      (m.verifyResponse sha256 response nodePublicKey checkedAt now).1 = .ok certificate ∧
      certificate.nodeId = response.nodeId ∧ certificate.publicKey = nodePublicKey) := by
  unfold PairingManager.verifyResponse
  by_cases hlen : response.challengeResponse.length < 8
  · refine .inl ⟨fun h => absurd h.1 (by omega), ?_⟩
    simp [hlen]
  simp only [if_neg hlen]
  cases hlookup : m.pendingChallenges.lookup
      (challengeId response.nodeId response.challengeResponse) with
  | none =>
    refine .inl ⟨?_, by simp⟩
    rintro ⟨-, pending, hpending, -⟩
    rw [hlookup] at hpending
    cases hpending
  | some pending =>
    have hchecks : Accepted m response nodePublicKey checkedAt ↔
        PairingManager.checkResponse S pending response nodePublicKey checkedAt = .ok () := by
      refine ⟨?_, fun h => ⟨by omega, pending, hlookup, h⟩⟩
      rintro ⟨-, pending', hpending', h⟩
      rw [hlookup] at hpending'
      cases hpending'
      exact h
    rw [hchecks]
    cases hcheck : PairingManager.checkResponse S pending response nodePublicKey checkedAt with
    | ok u =>
      simp only [hcheck]
      exact .inr ⟨trivial, _, rfl, rfl, rfl⟩
    | err e =>
      simp only [hcheck]
      exact .inl ⟨by simp, by simp⟩
    | panic =>
      simp only [hcheck]
      exact .inl ⟨by simp, by simp⟩

theorem mem_of_mem_verifyResponse {m : PairingManager S} {response : PairingResponse}
    {nodePublicKey : List UInt8} {checkedAt now : DateTime} {id : String}
    (h : id ∈ (m.verifyResponse sha256 response nodePublicKey checkedAt now).2.pendingChallenges) :
    id ∈ m.pendingChallenges := by
  unfold PairingManager.verifyResponse at h
  split at h
  · exact h
  simp only at h
  split at h
  · exact h
  · split at h
    all_goals exact (AList.mem_erase.1 h).2

/-- What `step` does with the outcome of `verify_response`. -/
theorem step_verifyResponse {c t : Coordinator S} {response : PairingResponse}
    {nodePublicKey : List UInt8} {checkedAt now : DateTime}
    (h : c.step sha256 (.verifyResponse response nodePublicKey checkedAt now) = some t) :
    t.requested = c.requested ∧
      t.manager = (c.manager.verifyResponse sha256 response nodePublicKey checkedAt now).2 ∧
      ((¬ Accepted c.manager response nodePublicKey checkedAt ∧ t.issued = c.issued) ∨
        (Accepted c.manager response nodePublicKey checkedAt ∧ ∃ certificate,
          t.issued = certificate :: c.issued ∧ certificate.nodeId = response.nodeId ∧
          certificate.publicKey = nodePublicKey)) := by
  have hcases := verifyResponse_cases sha256 c.manager response nodePublicKey checkedAt now
  rw [step] at h
  split at h
  · next certificate m heq =>
    rw [heq] at hcases
    cases h
    refine ⟨rfl, by rw [heq], ?_⟩
    obtain ⟨-, hne⟩ | ⟨hacc, _, hok, hcert⟩ := hcases
    · exact absurd rfl (hne certificate)
    · cases hok
      exact .inr ⟨hacc, certificate, rfl, hcert⟩
  · next e m heq =>
    rw [heq] at hcases
    cases h
    refine ⟨rfl, by rw [heq], ?_⟩
    obtain ⟨hrefused, -⟩ | ⟨-, _, hok, -⟩ := hcases
    · exact .inl ⟨hrefused, rfl⟩
    · cases hok
  · next m heq =>
    rw [heq] at hcases
    cases h
    refine ⟨rfl, by rw [heq], ?_⟩
    obtain ⟨hrefused, -⟩ | ⟨-, _, hok, -⟩ := hcases
    · exact .inl ⟨hrefused, rfl⟩
    · cases hok

/-! ## Runs -/

/-- Every pending challenge belongs to a node id that was drawn for a request. -/
def Tracked (c : Coordinator S) : Prop :=
  ∀ id ∈ c.manager.pendingChallenges,
    ∃ nodeId ∈ c.requested, ∃ challenge, id = challengeId nodeId challenge

theorem tracked_step (c : Coordinator S) (e : PairingEvent) (t : Coordinator S) (h : Tracked c)
    (he : c.step sha256 e = some t) : Tracked t := by
  cases e with
  | generateChallenge request nodeId challenge now =>
    rw [step] at he
    split at he
    · cases he
    cases he
    intro id hid
    rcases (AList.mem_insert _).1 hid with rfl | hid
    · exact ⟨nodeId, (AList.mem_insert _).2 (.inl rfl), _, rfl⟩
    · obtain ⟨nodeId', hmem, hchallenge⟩ := h id hid
      exact ⟨nodeId', (AList.mem_insert _).2 (.inr hmem), hchallenge⟩
  | verifyResponse response nodePublicKey checkedAt now =>
    obtain ⟨hrequested, hmanager, -⟩ := step_verifyResponse he
    intro id hid
    rw [hmanager] at hid
    rw [hrequested]
    exact h id (mem_of_mem_verifyResponse hid)
  | signChallenge challenge =>
    cases he
    exact h
  | revokeNode nodeId =>
    cases he
    exact h
  | cleanupExpiredChallenges now =>
    cases he
    exact fun id hid => h id (HashMap.mem_of_mem_retain hid)

/-- An accepted response is one to the challenge of a request. -/
theorem Tracked.requested {c : Coordinator S} (h : Tracked c) {response : PairingResponse}
    {nodePublicKey : List UInt8} {checkedAt : DateTime}
    (hacc : Accepted c.manager response nodePublicKey checkedAt) :
    ∃ request, c.requested.lookup response.nodeId = some request := by
  obtain ⟨-, pending, hlookup, -⟩ := hacc
  obtain ⟨nodeId, hmem, challenge, hid⟩ := h _ (HashMap.mem_of_lookup hlookup)
  rw [challengeId_inj hid]
  exact HashMap.lookup_of_mem hmem

/-- Every certificate carries the public key of the request its node id was drawn for. -/
def Bound (c : Coordinator S) : Prop :=
  ∀ certificate ∈ c.issued, ∃ request,
    c.requested.lookup certificate.nodeId = some request ∧
    certificate.publicKey = request.publicKey

/-- A response that passes all checks is presented with the key of the request its challenge was
generated for. -/
def KeyMatches (c : Coordinator S) : PairingEvent → Prop
  | .verifyResponse response nodePublicKey checkedAt _ =>
    Accepted c.manager response nodePublicKey checkedAt →
      ∀ request, c.requested.lookup response.nodeId = some request →
        nodePublicKey = request.publicKey
  | .generateChallenge _ _ _ _ | .signChallenge _ | .revokeNode _ |
    .cleanupExpiredChallenges _ => True

theorem bound_step_iff (c : Coordinator S) (e : PairingEvent) (t : Coordinator S) (h : Tracked c)
    (hb : Bound c) (he : c.step sha256 e = some t) : Bound t ↔ KeyMatches c e := by
  cases e with
  | generateChallenge request nodeId challenge now =>
    rw [step] at he
    split at he
    · cases he
    next hfresh =>
      cases he
      refine ⟨fun _ => trivial, fun _ certificate hc => ?_⟩
      obtain ⟨request', hlookup, hkey⟩ := hb certificate hc
      have hne : certificate.nodeId ≠ nodeId := by
        rintro rfl
        exact hfresh (HashMap.mem_of_lookup hlookup)
      exact ⟨request', by rw [← hlookup]; exact AList.lookup_insert_ne hne, hkey⟩
  | verifyResponse response nodePublicKey checkedAt now =>
    obtain ⟨hrequested, -, ⟨hrefused, hissued⟩ | ⟨hacc, certificate, hissued, hid, hkey⟩⟩ :=
      step_verifyResponse he
    · refine ⟨fun _ hacc => absurd hacc hrefused, fun _ => ?_⟩
      rw [Bound, hrequested, hissued]
      exact hb
    · rw [Bound, hrequested, hissued]
      constructor
      · intro hbound _ request hlookup
        obtain ⟨request', hlookup', hkey'⟩ := hbound certificate (.head _)
        rw [hid, hlookup] at hlookup'
        cases hlookup'
        rw [← hkey, hkey']
      · intro hmatch certificate' hc
        rcases List.mem_cons.1 hc with rfl | hc
        · obtain ⟨request, hlookup⟩ := h.requested hacc
          exact ⟨request, hid ▸ hlookup, hkey ▸ hmatch hacc request hlookup⟩
        · exact hb certificate' hc
  | signChallenge challenge =>
    cases he
    exact ⟨fun _ => trivial, fun _ => hb⟩
  | revokeNode nodeId =>
    cases he
    exact ⟨fun _ => trivial, fun _ => hb⟩
  | cleanupExpiredChallenges now =>
    cases he
    exact ⟨fun _ => trivial, fun _ => hb⟩

theorem tracked_init (clusterId : ClusterId) (key : S.SecretKey) :
    Tracked (init clusterId key) := fun id hid => absurd hid (AList.notMem_empty id)

theorem bound_init (clusterId : ClusterId) (key : S.SecretKey) :
    Bound (init clusterId key) := fun _ hc => nomatch hc

/-- **Certificates are bound to the requested keys exactly along the runs in which every accepted
response is presented with the key of its request.** -/
theorem always_bound_iff (sha256 : List UInt8 → List UInt8) (clusterId : ClusterId)
    (key : S.SecretKey) (es : List PairingEvent) :
    Lts.Always (step sha256) Bound (init clusterId key) es ↔
      Lts.Meets (step sha256) KeyMatches (init clusterId key) es :=
  Lts.always_iff_meets tracked_step bound_step_iff (tracked_init clusterId key)
    (bound_init clusterId key)

/-! ## An overheard challenge -/

/-- The challenge for `request` is answered by the owner of the key `attacker`. -/
def overhear (request : PairingRequest) (nodeId : NodeId) (challenge : Vector UInt8 32)
    (attacker : S.SecretKey) (now : DateTime) : List PairingEvent :=
  [.generateChallenge request nodeId challenge now,
    .verifyResponse
      { nodeId
        challengeResponse := challenge.toList
        challengeSignature := S.signatureBytes (S.sign attacker challenge.toList) }
      (S.publicBytes (S.publicKey attacker)) now now]

/-- The state after a challenge for `request`. -/
def drawn (c : Coordinator S) (request : PairingRequest) (nodeId : NodeId)
    (challenge : Vector UInt8 32) (now : DateTime) : Coordinator S :=
  { c with
    manager := (c.manager.generateChallenge request nodeId challenge now).2
    requested := c.requested.insert nodeId request }

theorem step_generateChallenge (sha256 : List UInt8 → List UInt8) (c : Coordinator S)
    {nodeId : NodeId} (h : nodeId ∉ c.requested) (request : PairingRequest)
    (challenge : Vector UInt8 32) (now : DateTime) :
    c.step sha256 (.generateChallenge request nodeId challenge now) =
      some (c.drawn request nodeId challenge now) :=
  if_neg h

theorem exists_step_verifyResponse (sha256 : List UInt8 → List UInt8) (c : Coordinator S)
    (response : PairingResponse) (nodePublicKey : List UInt8) (checkedAt now : DateTime) :
    ∃ t, c.step sha256 (.verifyResponse response nodePublicKey checkedAt now) = some t := by
  rw [step]
  split
  all_goals exact ⟨_, rfl⟩

/-- A challenge signed under any key, and presented with that key in time, is accepted. -/
theorem accepted_drawn (hS : S.Correct) (c : Coordinator S) (request : PairingRequest)
    (nodeId : NodeId) (challenge : Vector UInt8 32) (now : DateTime) {signer : S.SecretKey}
    (hlen : (S.signatureBytes (S.sign signer challenge.toList)).length = 64) :
    Accepted (c.drawn request nodeId challenge now).manager
      ⟨nodeId, challenge.toList, S.signatureBytes (S.sign signer challenge.toList)⟩
      (S.publicBytes (S.publicKey signer)) now := by
  refine ⟨by simp, ⟨challenge, now, 300⟩, AList.lookup_insert _, ?_⟩
  have hfresh : PendingChallenge.isExpired ⟨challenge, now, 300⟩ now = false := by
    simp [PendingChallenge.isExpired]
  simp [PairingManager.checkResponse, hfresh, hS.publicOfBytes_publicBytes, hlen,
    hS.signatureOfBytes_signatureBytes, hS.verify_sign]

/-- Whoever sees a challenge gets a certificate with a key of his own. -/
theorem not_always_bound_overhear (hS : S.Correct) (sha256 : List UInt8 → List UInt8)
    (clusterId : ClusterId) (key attacker : S.SecretKey) {request : PairingRequest}
    {nodeId : NodeId} {challenge : Vector UInt8 32} {now : DateTime}
    (hlen : (S.signatureBytes (S.sign attacker challenge.toList)).length = 64)
    (hkey : S.publicBytes (S.publicKey attacker) ≠ request.publicKey) :
    ¬ Lts.Always (step sha256) Bound (init clusterId key)
      (overhear request nodeId challenge attacker now) := by
  intro h
  have hgenerate := step_generateChallenge sha256 (init clusterId key)
    (AList.notMem_empty nodeId) request challenge now
  have htracked := tracked_step _ _ _ (tracked_init clusterId key) hgenerate
  obtain ⟨hbound, hrest⟩ := h.2 _ hgenerate
  obtain ⟨t, ht⟩ := exists_step_verifyResponse sha256
    ((init clusterId key).drawn request nodeId challenge now) _ _ _ _
  have hmatches := (bound_step_iff _ _ _ htracked hbound ht).1 (hrest t ht)
  exact hkey (hmatches (accepted_drawn hS _ request nodeId challenge now hlen) request
    (AList.lookup_insert _))

/-- A key of the symbolic scheme. -/
def keyOf (b : UInt8) : SignatureScheme.symbolic.SecretKey := Vector.replicate 32 b

/-- The request of a node with the given public key. -/
def requestFor (publicKey : List UInt8) : PairingRequest where
  nodeName := "node"
  hostname := "node.local"
  clusterId := ⟨0⟩
  publicKey := publicKey
  fingerprint := Hex.encode (publicKey.take 8)

/-- The node's key is `1…1` and the attacker's `2…2`: the ideal scheme does not help. -/
theorem overheard_certified :
    SignatureScheme.symbolic.Ideal ∧ ∀ sha256 : List UInt8 → List UInt8,
      ¬ Lts.Always (step sha256) Bound (init ⟨0⟩ (keyOf 0))
        (overhear (requestFor (List.replicate 32 1)) ⟨7⟩ (Vector.replicate 32 9) (keyOf 2) ⟨0⟩) :=
  ⟨SignatureScheme.ideal_symbolic, fun sha256 =>
    not_always_bound_overhear SignatureScheme.ideal_symbolic.toCorrect sha256 ⟨0⟩ _ _
      (by decide) (by decide)⟩

end Coordinator

end TensorGrid
