import TensorGrid.SecurePairing.Binding

/-!
# Challenges are single-use

A node id is drawn once, so it has at most one pending challenge (`Single`), and a response takes
the challenge it names out of the pending ones before anything else. So a second response for the
same node id finds none (`Spent`), whatever the responses are.

`registered_step` is what one call does to the registered nodes; `single_use` is about whole runs.
-/

namespace TensorGrid.Coordinator

open Rust

variable {S : SignatureScheme} {sha256 : List UInt8 → List UInt8}

/-- The call is a `verify_response` for the node that succeeds. -/
def Verifies (sha256 : List UInt8 → List UInt8) (nodeId : NodeId) (c : Coordinator S)
    (e : PairingEvent) : Prop :=
  ∃ response nodePublicKey checkedAt now certificate,
    e = .verifyResponse response nodePublicKey checkedAt now ∧ response.nodeId = nodeId ∧
    (c.manager.verifyResponse sha256 response nodePublicKey checkedAt now).1 = .ok certificate

/-- The call revokes the node. -/
def Revokes (nodeId : NodeId) (_ : Coordinator S) (e : PairingEvent) : Prop :=
  e = .revokeNode nodeId

/-! ## What a call does -/

/-- The manager after a response: the challenge is gone, and the node is registered if the
response was accepted. -/
theorem verifyResponse_manager (m : PairingManager S) (response : PairingResponse)
    (nodePublicKey : List UInt8) (checkedAt now : DateTime) :
    let r := m.verifyResponse sha256 response nodePublicKey checkedAt now
    (∀ certificate, r.1 = .ok certificate →
      challengeId response.nodeId response.challengeResponse ∈ m.pendingChallenges ∧
      certificate = m.issueCertificate sha256 response.nodeId nodePublicKey now ∧
      r.2 = { m with
        pendingChallenges := m.pendingChallenges.erase
          (challengeId response.nodeId response.challengeResponse)
        nodeKeys := m.nodeKeys.insert response.nodeId
          ⟨response.nodeId, nodePublicKey, certificate⟩ }) ∧
    ((∀ certificate, r.1 ≠ .ok certificate) → r.2.nodeKeys = m.nodeKeys ∧
      r.2.clusterId = m.clusterId ∧ r.2.coordinatorKey = m.coordinatorKey) := by
  dsimp only
  unfold PairingManager.verifyResponse
  split
  · exact ⟨nofun, fun _ => ⟨rfl, rfl, rfl⟩⟩
  dsimp only
  split
  · exact ⟨nofun, fun _ => ⟨rfl, rfl, rfl⟩⟩
  next pending hlookup =>
    split
    · exact ⟨nofun, fun _ => ⟨rfl, rfl, rfl⟩⟩
    · exact ⟨nofun, fun _ => ⟨rfl, rfl, rfl⟩⟩
    · refine ⟨?_, fun h => absurd rfl (h _)⟩
      rintro _ ⟨⟩
      exact ⟨HashMap.mem_of_lookup hlookup, rfl, rfl⟩

theorem mem_registeredNodes {m : PairingManager S} {nodeId : NodeId} :
    nodeId ∈ m.registeredNodes ↔ nodeId ∈ m.nodeKeys := AList.mem_keys.symm

/-- **What a call does to the registered nodes.** -/
theorem registered_step {c t : Coordinator S} {e : PairingEvent} (he : c.step sha256 e = some t)
    (nodeId : NodeId) : nodeId ∈ t.manager.registeredNodes ↔
      Verifies sha256 nodeId c e ∨ nodeId ∈ c.manager.registeredNodes ∧ ¬ Revokes nodeId c e := by
  rw [mem_registeredNodes, mem_registeredNodes]
  cases e with
  | generateChallenge request n challenge now =>
    rw [step] at he
    split at he
    · cases he
    · cases he
      simp [Verifies, Revokes, PairingManager.generateChallenge]
  | signChallenge challenge =>
    cases he
    simp [Verifies, Revokes]
  | cleanupExpiredChallenges now =>
    cases he
    simp [Verifies, Revokes, PairingManager.cleanupExpiredChallenges]
  | revokeNode n =>
    cases he
    simp [Verifies, Revokes, PairingManager.revokeNode, and_comm, eq_comm]
  | verifyResponse response nodePublicKey checkedAt now =>
    obtain ⟨-, hmanager, -⟩ := step_verifyResponse he
    obtain ⟨hok, hrefused⟩ :=
      @verifyResponse_manager S sha256 c.manager response nodePublicKey checkedAt now
    rw [hmanager]
    by_cases h : ∃ certificate,
      (c.manager.verifyResponse sha256 response nodePublicKey checkedAt now).1 = .ok certificate
    · obtain ⟨certificate, h⟩ := h
      obtain ⟨-, -, heq⟩ := hok certificate h
      rw [heq, AList.mem_insert]
      constructor
      · rintro (rfl | hreg)
        · exact .inl ⟨_, _, _, _, certificate, rfl, rfl, h⟩
        · exact .inr ⟨hreg, PairingEvent.noConfusion⟩
      · rintro (⟨_, _, _, _, _, ⟨⟩, rfl, -⟩ | ⟨hreg, -⟩)
        · exact .inl rfl
        · exact .inr hreg
    · rw [(hrefused (not_exists.1 h)).1]
      constructor
      · exact fun hreg => .inr ⟨hreg, PairingEvent.noConfusion⟩
      · rintro (⟨_, _, _, _, certificate, ⟨⟩, -, hacc⟩ | ⟨hreg, -⟩)
        · exact absurd ⟨certificate, hacc⟩ h
        · exact hreg

/-! ## Challenges -/

/-- A node id has at most one pending challenge, and that is of a node id that was drawn. -/
structure Single (c : Coordinator S) : Prop where
  tracked : Tracked c
  single : ∀ nodeId challenge challenge',
    challengeId nodeId challenge ∈ c.manager.pendingChallenges →
    challengeId nodeId challenge' ∈ c.manager.pendingChallenges →
    challengeId nodeId challenge = challengeId nodeId challenge'

/-- The node id was drawn, and its challenge is not pending any more. -/
def Spent (nodeId : NodeId) (c : Coordinator S) : Prop :=
  nodeId ∈ c.requested ∧
    ∀ challenge, challengeId nodeId challenge ∉ c.manager.pendingChallenges

/-- Only a fresh node id gets a new challenge. -/
theorem pending_step {c t : Coordinator S} {e : PairingEvent} (he : c.step sha256 e = some t) :
    (∀ nodeId ∈ c.requested, nodeId ∈ t.requested) ∧
    ∀ id ∈ t.manager.pendingChallenges, id ∈ c.manager.pendingChallenges ∨
      ∃ nodeId challenge, nodeId ∉ c.requested ∧ id = challengeId nodeId challenge ∧
        ∀ id' ∈ t.manager.pendingChallenges, id' = id ∨ id' ∈ c.manager.pendingChallenges := by
  cases e with
  | generateChallenge request n challenge now =>
    rw [step] at he
    split at he
    · cases he
    next hfresh =>
      cases he
      refine ⟨fun _ h => (AList.mem_insert _).2 (.inr h), fun id hid => ?_⟩
      rcases (AList.mem_insert _).1 hid with rfl | hid
      · exact .inr ⟨n, _, hfresh, rfl, fun id' hid' => (AList.mem_insert _).1 hid'⟩
      · exact .inl hid
  | verifyResponse response nodePublicKey checkedAt now =>
    obtain ⟨hrequested, hmanager, -⟩ := step_verifyResponse he
    rw [hrequested, hmanager]
    exact ⟨fun _ h => h, fun _ hid => .inl (mem_of_mem_verifyResponse hid)⟩
  | signChallenge challenge | revokeNode n =>
    cases he
    exact ⟨fun _ h => h, fun _ hid => .inl hid⟩
  | cleanupExpiredChallenges now =>
    cases he
    exact ⟨fun _ h => h, fun _ hid => .inl (HashMap.mem_of_mem_retain hid)⟩

theorem Single.step {c t : Coordinator S} {e : PairingEvent} (h : Single c)
    (he : c.step sha256 e = some t) : Single t := by
  refine ⟨tracked_step c e t h.tracked he, fun n challenge challenge' hmem hmem' => ?_⟩
  -- a node id that was not drawn before has no other pending challenge
  have hold {n : NodeId} {challenge : List UInt8}
      (hmem : challengeId n challenge ∈ c.manager.pendingChallenges) : n ∈ c.requested := by
    obtain ⟨n', hn', challenge', heq⟩ := h.tracked _ hmem
    rwa [challengeId_inj heq]
  obtain ⟨-, hpending⟩ := pending_step he
  rcases hpending _ hmem with hc | ⟨n', challenge₀, hfresh, heq, hother⟩
  · rcases hpending _ hmem' with hc' | ⟨n', challenge₀, hfresh, heq, -⟩
    · exact h.single n challenge challenge' hc hc'
    · exact absurd (hold hc) (challengeId_inj heq ▸ hfresh)
  · rcases hother _ hmem' with heq' | hc'
    · exact heq'.symm
    · exact absurd (hold hc') (challengeId_inj heq ▸ hfresh)

theorem single_init (clusterId : ClusterId) (key : S.SecretKey) : Single (init clusterId key) :=
  ⟨tracked_init clusterId key, fun _ _ _ h => absurd h (AList.notMem_empty _)⟩

theorem Spent.step {nodeId : NodeId} {c t : Coordinator S} {e : PairingEvent}
    (h : Spent nodeId c) (he : c.step sha256 e = some t) : Spent nodeId t := by
  obtain ⟨hrequested, hpending⟩ := pending_step he
  refine ⟨hrequested nodeId h.1, fun challenge hmem => ?_⟩
  rcases hpending _ hmem with hc | ⟨n, challenge₀, hfresh, heq, -⟩
  · exact h.2 challenge hc
  · exact hfresh (challengeId_inj heq ▸ h.1)

/-- A successful response uses up the node id. -/
theorem spent_of_verifies {nodeId : NodeId} {c t : Coordinator S} {e : PairingEvent}
    (h : Single c) (hv : Verifies sha256 nodeId c e) (he : c.step sha256 e = some t) :
    Spent nodeId t := by
  obtain ⟨response, nodePublicKey, checkedAt, now, certificate, rfl, rfl, hacc⟩ := hv
  obtain ⟨hrequested, hmanager, -⟩ := step_verifyResponse he
  obtain ⟨hmem, -, hafter⟩ := (verifyResponse_manager c.manager response nodePublicKey checkedAt
    now).1 certificate hacc
  refine ⟨?_, fun challenge hpending => ?_⟩
  · obtain ⟨n, hn, challenge, heq⟩ := h.tracked _ hmem
    rw [hrequested, challengeId_inj heq]
    exact hn
  · rw [hmanager, hafter] at hpending
    obtain ⟨hne, hold⟩ := AList.mem_erase.1 hpending
    exact hne (h.single _ _ _ hold hmem)

theorem Spent.not_verifies {nodeId : NodeId} {c : Coordinator S} (h : Spent nodeId c)
    (e : PairingEvent) : ¬ Verifies sha256 nodeId c e := by
  rintro ⟨response, nodePublicKey, checkedAt, now, certificate, rfl, rfl, hacc⟩
  obtain ⟨hmem, -⟩ := (verifyResponse_manager c.manager response nodePublicKey checkedAt now).1
    certificate hacc
  exact h.2 _ hmem

/-! ## Runs -/

theorem registered_iff_since {clusterId : ClusterId} {key : S.SecretKey} {es : List PairingEvent}
    {t : Coordinator S} (h : Lts.exec (step sha256) (init clusterId key) es = some t)
    (nodeId : NodeId) : nodeId ∈ t.manager.registeredNodes ↔
      Lts.Since (step sha256) (Verifies sha256 nodeId) (Revokes nodeId) (init clusterId key) es := by
  refine Lts.exec_induction (P := fun es (t : Coordinator S) =>
    nodeId ∈ t.manager.registeredNodes ↔ Lts.Since (step sha256) (Verifies sha256 nodeId)
      (Revokes nodeId) (init clusterId key) es) ?_ (fun es s e t hes ih he => ?_) h
  · rw [mem_registeredNodes]
    exact iff_of_false (AList.notMem_empty nodeId) id
  · rw [registered_step he, ih, Lts.since_concat hes he]

/-- A registered node has used up its id. -/
theorem spent_of_registered {clusterId : ClusterId} {key : S.SecretKey} {es : List PairingEvent}
    {t : Coordinator S} (h : Lts.exec (step sha256) (init clusterId key) es = some t)
    {nodeId : NodeId} (hreg : nodeId ∈ t.manager.registeredNodes) : Spent nodeId t := by
  have hinv : Single t ∧ ∀ n ∈ t.manager.registeredNodes, Spent n t := by
    refine Lts.exec_inv (I := fun t => Single t ∧ ∀ n ∈ t.manager.registeredNodes, Spent n t)
      (fun s e t hs he => ?_) h ⟨single_init clusterId key, fun n hn => ?_⟩
    · refine ⟨hs.1.step he, fun n hn => ?_⟩
      rcases (registered_step he n).1 hn with hv | ⟨hold, -⟩
      · exact spent_of_verifies hs.1 hv he
      · exact (hs.2 n hold).step he
    · exact absurd (mem_registeredNodes.1 hn) (AList.notMem_empty n)
  exact hinv.2 nodeId hreg

/-- A spent node id that is not registered is never registered again. -/
theorem notRegistered_of_spent {s t : Coordinator S} {es : List PairingEvent}
    (h : Lts.exec (step sha256) s es = some t) {nodeId : NodeId} (hspent : Spent nodeId s)
    (hno : nodeId ∉ s.manager.registeredNodes) : nodeId ∉ t.manager.registeredNodes := by
  refine (Lts.exec_inv (I := fun c => Spent nodeId c ∧ nodeId ∉ c.manager.registeredNodes)
    (fun c e t hc he => ⟨hc.1.step he, fun hreg => ?_⟩) h ⟨hspent, hno⟩).2
  rcases (registered_step he nodeId).1 hreg with hv | ⟨hold, -⟩
  · exact hc.1.not_verifies e hv
  · exact hc.2 hold

/-- A challenge answered in time leads to a certificate. -/
theorem exec_overhear (hS : S.Correct) (sha256 : List UInt8 → List UInt8) (clusterId : ClusterId)
    (key signer : S.SecretKey) (request : PairingRequest) (nodeId : NodeId)
    (challenge : Vector UInt8 32) (now : DateTime)
    (hlen : (S.signatureBytes (S.sign signer challenge.toList)).length = 64) :
    ∃ t, Lts.exec (step sha256) (init clusterId key)
        (overhear request nodeId challenge signer now) = some t ∧
      t.issued = [(PairingManager.newCoordinator clusterId key).issueCertificate sha256 nodeId
        (S.publicBytes (S.publicKey signer)) now] := by
  have hgenerate := step_generateChallenge sha256 (init clusterId key)
    (AList.notMem_empty nodeId) request challenge now
  generalize hc : (init clusterId key).drawn request nodeId challenge now = c at hgenerate
  have hacc := accepted_drawn hS (init clusterId key) request nodeId challenge now hlen
  rw [hc] at hacc
  obtain ⟨hno, -⟩ | ⟨-, certificate, hok, -⟩ := verifyResponse_cases sha256 c.manager _ _ now now
  · exact absurd hacc hno
  obtain ⟨-, hissued, -⟩ := (verifyResponse_manager c.manager _ _ now now).1 certificate hok
  rcases hr : c.manager.verifyResponse sha256 _ _ now now with ⟨outcome, m⟩
  rw [hr] at hok
  obtain rfl : outcome = .ok certificate := hok
  refine ⟨{ c with manager := m, issued := certificate :: c.issued },
    Lts.exec_cons.2 ⟨c, hgenerate, Lts.exec_cons.2 ⟨_, ?_, rfl⟩⟩, ?_⟩
  · rw [step, hr]
  · rw [hissued, ← hc]
    rfl

/-- **Challenges are single-use**: in every run a node id is verified at most once, the registered
nodes are those verified and not revoked since, and a node that was registered and revoked never
comes back. -/
theorem single_use {clusterId : ClusterId} {key : S.SecretKey} {es : List PairingEvent}
    {t : Coordinator S} (h : Lts.exec (step sha256) (init clusterId key) es = some t)
    (nodeId : NodeId) :
    Lts.AtMostOnce (step sha256) (Verifies sha256 nodeId) (init clusterId key) es ∧
    (nodeId ∈ t.manager.registeredNodes ↔
      Lts.Since (step sha256) (Verifies sha256 nodeId) (Revokes nodeId) (init clusterId key) es) ∧
    ∀ pre post s, es = pre ++ .revokeNode nodeId :: post →
      Lts.exec (step sha256) (init clusterId key) pre = some s →
      nodeId ∈ s.manager.registeredNodes → nodeId ∉ t.manager.registeredNodes := by
  refine ⟨?_, registered_iff_since h nodeId, ?_⟩
  · exact Lts.atMostOnce_of_spent (I := Single) (U := Spent nodeId)
      (fun _ _ _ hs he => hs.step he) (fun _ _ _ hs hv he => spent_of_verifies hs hv he)
      (fun _ _ _ hs he => hs.step he) (fun _ e hs => hs.not_verifies e) (single_init _ _) es
  · rintro pre post s rfl hpre hreg
    obtain ⟨s', hs', ht⟩ := Lts.exec_append.1 h
    obtain rfl : s = s' := Option.some.inj (hpre.symm.trans hs')
    obtain ⟨u, hu, ht⟩ := Lts.exec_cons.1 ht
    refine notRegistered_of_spent ht ((spent_of_registered hpre hreg).step hu) fun hin => ?_
    rcases (registered_step hu nodeId).1 hin with ⟨_, _, _, _, _, ⟨⟩, -⟩ | ⟨-, hno⟩
    exact hno rfl

/-- Node 7 is paired and revoked. -/
def pairAndRevoke : List PairingEvent :=
  overhear (S := .symbolic) (requestFor (List.replicate 32 1)) ⟨7⟩ (Vector.replicate 32 9) (keyOf 1)
    ⟨0⟩ ++ [.revokeNode ⟨7⟩]

theorem single_use_small : ∃ t, Lts.exec (step fun _ => List.replicate 32 0)
    (init ⟨0⟩ (keyOf 0)) pairAndRevoke = some t ∧
      Lts.AtMostOnce (step fun _ => List.replicate 32 0)
        (Verifies (fun _ => List.replicate 32 0) ⟨7⟩) (init ⟨0⟩ (keyOf 0)) pairAndRevoke ∧
      (⟨7⟩ ∈ t.manager.registeredNodes ↔ Lts.Since (step fun _ => List.replicate 32 0)
        (Verifies (fun _ => List.replicate 32 0) ⟨7⟩) (Revokes ⟨7⟩) (init ⟨0⟩ (keyOf 0))
        pairAndRevoke) ∧
      ∀ pre post s, pairAndRevoke = pre ++ .revokeNode ⟨7⟩ :: post →
        Lts.exec (step fun _ => List.replicate 32 0) (init ⟨0⟩ (keyOf 0)) pre = some s →
        ⟨7⟩ ∈ s.manager.registeredNodes → ⟨7⟩ ∉ t.manager.registeredNodes := by
  obtain ⟨s, hs, -⟩ := exec_overhear SignatureScheme.ideal_symbolic.toCorrect
    (fun _ => List.replicate 32 0) ⟨0⟩ (keyOf 0) (keyOf 1) (requestFor (List.replicate 32 1)) ⟨7⟩
    (Vector.replicate 32 9) ⟨0⟩ (by decide)
  have h : Lts.exec (step fun _ => List.replicate 32 0) (init ⟨0⟩ (keyOf 0)) pairAndRevoke =
      some { s with manager := s.manager.revokeNode ⟨7⟩ } :=
    Lts.exec_append.2 ⟨s, hs, rfl⟩
  exact ⟨_, h, single_use h ⟨7⟩⟩

end TensorGrid.Coordinator
