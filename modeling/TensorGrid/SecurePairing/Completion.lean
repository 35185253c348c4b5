import TensorGrid.SecurePairing.Cleanup
import TensorGrid.SecurePairing.SingleUse

/-!
# When a pairing completes

A node signs the challenge that was drawn for it and presents its key. In between, anybody may call
the coordinator. `completes_iff`: the node gets its certificate exactly if it answers within 300
seconds and nobody, with whatever key, has answered its challenge before. So others can neither
prolong a challenge nor, other than by answering it, stop a pairing.

`lookup_step` is what a call does to one pending challenge.
-/

namespace TensorGrid

open Rust

/-- The answer of a node to a challenge. -/
def PairingManager.respond {S : SignatureScheme} (m : PairingManager S)
    (challenge : PairingChallenge) : PairingResponse where
  nodeId := challenge.nodeId
  challengeResponse := challenge.challenge
  challengeSignature := m.signChallenge challenge.challenge

namespace Coordinator

variable {S : SignatureScheme} {sha256 : List UInt8 → List UInt8}

/-- The call answers the challenge of the node, as far as its id shows. -/
def Answers (nodeId : NodeId) (challenge : List UInt8) : PairingEvent → Prop
  | .verifyResponse response _ _ _ =>
    response.nodeId = nodeId ∧ response.challengeResponse.take 8 = challenge.take 8
  | .generateChallenge _ _ _ _ | .signChallenge _ | .revokeNode _ |
    .cleanupExpiredChallenges _ => False

theorem challengeId_eq_iff {nodeId nodeId' : NodeId} {challenge challenge' : List UInt8} :
    challengeId nodeId challenge = challengeId nodeId' challenge' ↔
      nodeId = nodeId' ∧ challenge.take 8 = challenge'.take 8 := by
  constructor
  · intro h
    obtain rfl := challengeId_inj h
    refine ⟨rfl, Hex.encode_injective (String.toList_inj.1 ?_)⟩
    have htext := congrArg String.toList h
    simp only [challengeId, String.toList_append] at htext
    exact List.append_cancel_left htext
  · rintro ⟨rfl, h⟩
    rw [challengeId, challengeId, h]

/-! ## One pending challenge -/

section
variable {c t : Coordinator S} {e : PairingEvent} {nodeId : NodeId}

/-- What a call does to the challenge of a node id that was drawn. -/
theorem lookup_step (he : c.step sha256 e = some t) (hdrawn : nodeId ∈ c.requested)
    (challenge : Vector UInt8 32) :
    nodeId ∈ t.requested ∧
      (Answers nodeId challenge.toList e →
        t.manager.pendingChallenges.lookup (challengeId nodeId challenge.toList) = none) ∧
      (¬ Answers nodeId challenge.toList e → ∀ pending,
        t.manager.pendingChallenges.lookup (challengeId nodeId challenge.toList) = some pending ↔
          c.manager.pendingChallenges.lookup (challengeId nodeId challenge.toList) =
            some pending ∧
          ∀ now, e = .cleanupExpiredChallenges now → pending.isExpired now = false) := by
  refine ⟨(pending_step he).1 nodeId hdrawn, ?_⟩
  cases e with
  | generateChallenge request n ch now =>
    rw [step] at he
    split at he
    · cases he
    next hfresh =>
      cases he
      refine ⟨False.elim, fun _ => ?_⟩
      have hne : challengeId nodeId challenge.toList ≠ challengeId n ch.toList := fun heq =>
        hfresh (challengeId_inj heq ▸ hdrawn)
      simp [Transcript.lookup_generateChallenge, hne]
  | verifyResponse response key checkedAt now =>
    obtain ⟨-, hmanager, -⟩ := step_verifyResponse he
    rw [hmanager, Transcript.lookup_verifyResponse]
    have hid : challengeId nodeId challenge.toList =
        challengeId response.nodeId response.challengeResponse ↔ nodeId = response.nodeId ∧
          challenge.toList.take 8 = response.challengeResponse.take 8 := challengeId_eq_iff
    constructor
    · rintro ⟨rfl, htake⟩
      have hlen : 8 ≤ response.challengeResponse.length := by
        have hlen := congrArg List.length htake
        simp at hlen
        omega
      exact if_pos ⟨hlen, hid.2 ⟨rfl, htake.symm⟩⟩
    · intro hno pending
      rw [if_neg]
      · simp
      · intro h
        obtain ⟨hnode, htake⟩ := hid.1 h.2
        exact hno ⟨hnode.symm, htake.symm⟩
  | signChallenge bytes | revokeNode n =>
    cases he
    exact ⟨False.elim, fun _ => by simp [PairingManager.revokeNode]⟩
  | cleanupExpiredChallenges now =>
    cases he
    refine ⟨False.elim, fun _ pending => ?_⟩
    rw [Transcript.lookup_cleanupExpiredChallenges, Option.filter_eq_some_iff]
    simp

variable {es : List PairingEvent} {challenge : Vector UInt8 32}

/-- A challenge that is gone stays so, and one that is pending stays the same while it is. -/
theorem lookup_of_exec (h : Lts.exec (step sha256) c es = some t) (hdrawn : nodeId ∈ c.requested)
    {pending : PendingChallenge}
    (ht : t.manager.pendingChallenges.lookup (challengeId nodeId challenge.toList) =
      some pending) :
    c.manager.pendingChallenges.lookup (challengeId nodeId challenge.toList) = some pending ∧
      ∀ e ∈ es, ¬ Answers nodeId challenge.toList e := by
  induction es generalizing c with
  | nil =>
    cases h
    exact ⟨ht, nofun⟩
  | cons e es ih =>
    obtain ⟨u, hu, h⟩ := Lts.exec_cons.1 h
    obtain ⟨hdrawn', hanswered, hother⟩ := lookup_step hu hdrawn challenge
    obtain ⟨hpending, hrest⟩ := ih h hdrawn'
    have hno : ¬ Answers nodeId challenge.toList e := fun hans => by
      cases (hanswered hans).symm.trans hpending
    exact ⟨((hother hno pending).1 hpending).1, List.forall_mem_cons.2 ⟨hno, hrest⟩⟩

/-- A challenge that nobody answers stays pending until it expires. -/
theorem lookup_of_unanswered (h : Lts.exec (step sha256) c es = some t)
    (hdrawn : nodeId ∈ c.requested) {pending : PendingChallenge}
    (hc : c.manager.pendingChallenges.lookup (challengeId nodeId challenge.toList) = some pending)
    (hno : ∀ e ∈ es, ¬ Answers nodeId challenge.toList e)
    (hfresh : ∀ e ∈ es, ∀ now ∈ e.readings, pending.isExpired now = false) :
    t.manager.pendingChallenges.lookup (challengeId nodeId challenge.toList) = some pending := by
  induction es generalizing c with
  | nil =>
    cases h
    exact hc
  | cons e es ih =>
    obtain ⟨u, hu, h⟩ := Lts.exec_cons.1 h
    obtain ⟨hdrawn', -, hother⟩ := lookup_step hu hdrawn challenge
    obtain ⟨hnoe, hno⟩ := List.forall_mem_cons.1 hno
    obtain ⟨hfreshe, hfresh⟩ := List.forall_mem_cons.1 hfresh
    refine ih h hdrawn' ((hother hnoe pending).2 ⟨hc, fun now hnow => ?_⟩) hno hfresh
    subst hnow
    exact hfreshe now (List.mem_singleton_self now)

end

/-! ## The answer of the node -/

/-- A challenge with its drawing time `now`. -/
def pendingAt (challenge : Vector UInt8 32) (now : DateTime) : PendingChallenge :=
  ⟨challenge, now, 300⟩

theorem isExpired_pendingAt (challenge : Vector UInt8 32) (now t : DateTime) :
    (pendingAt challenge now).isExpired t = false ↔ t.timestamp - now.timestamp ≤ 300 := by
  simp [PendingChallenge.isExpired, pendingAt]

/-- A node signs with the key that it presents. -/
theorem accepted_respond_iff (hS : S.Correct) {c : Coordinator S} (node : PairingManager S)
    {nodeId : NodeId} {challenge : Vector UInt8 32} (coordinatorKey : List UInt8)
    (checkedAt : DateTime) {now : DateTime}
    (hlen : (node.signChallenge challenge.toList).length = 64)
    (hlookup : ∀ pending, c.manager.pendingChallenges.lookup
      (challengeId nodeId challenge.toList) = some pending → pending = pendingAt challenge now) :
    Accepted c.manager (node.respond ⟨nodeId, challenge.toList, coordinatorKey⟩) node.publicKey
        checkedAt ↔
      c.manager.pendingChallenges.lookup (challengeId nodeId challenge.toList) =
        some (pendingAt challenge now) ∧ checkedAt.timestamp - now.timestamp ≤ 300 := by
  have hcheck : PairingManager.checkResponse S (pendingAt challenge now)
      (node.respond ⟨nodeId, challenge.toList, coordinatorKey⟩) node.publicKey checkedAt =
        .ok () ↔ checkedAt.timestamp - now.timestamp ≤ 300 := by
    rw [← isExpired_pendingAt challenge]
    have hsigned : (node.respond ⟨nodeId, challenge.toList, coordinatorKey⟩).challengeSignature =
        node.signChallenge challenge.toList := rfl
    cases hexpired : (pendingAt challenge now).isExpired checkedAt with
    | true => simp [PairingManager.checkResponse, hexpired]
    | false =>
      refine iff_of_true ?_ rfl
      simp only [PairingManager.checkResponse, hexpired, hsigned, hlen, PairingManager.publicKey,
        hS.publicOfBytes_publicBytes, Bool.false_eq_true, if_false, ne_eq, not_true]
      simp [PairingManager.signChallenge, hS.signatureOfBytes_signatureBytes, pendingAt,
        hS.verify_sign]
  constructor
  · rintro ⟨-, pending, hpending, hok⟩
    obtain rfl := hlookup pending hpending
    exact ⟨hpending, hcheck.1 hok⟩
  · rintro ⟨hpending, htime⟩
    exact ⟨by simp [PairingManager.respond], _, hpending, hcheck.2 htime⟩

/-- **A pairing completes** exactly if the node answers its challenge within 300 seconds, and before
anybody else: whatever calls come in between, and whatever they present. -/
theorem completes_iff (hS : S.Correct) (sha256 : List UInt8 → List UInt8)
    {c c₁ c₂ : Coordinator S} {request : PairingRequest} {nodeId : NodeId}
    {challenge : Vector UInt8 32} {now checkedAt issuedAt : DateTime} {es : List PairingEvent}
    (node : PairingManager S) (hlen : (node.signChallenge challenge.toList).length = 64)
    (h₁ : c.step sha256 (.generateChallenge request nodeId challenge now) = some c₁)
    (h₂ : Lts.exec (step sha256) c₁ es = some c₂)
    (hclock : PairingEvent.Clocked (es ++ [.verifyResponse (node.respond
      ⟨nodeId, challenge.toList, c₁.manager.publicKey⟩) node.publicKey checkedAt issuedAt])) :
    let answered := c₂.manager.verifyResponse sha256 (node.respond
      ⟨nodeId, challenge.toList, c₁.manager.publicKey⟩) node.publicKey checkedAt issuedAt
    ((∃ certificate, answered.1 = .ok certificate) ↔
      checkedAt.timestamp - now.timestamp ≤ 300 ∧ ∀ e ∈ es, ¬ Answers nodeId challenge.toList e) ∧
    ∀ certificate, answered.1 = .ok certificate →
      certificate.nodeId = nodeId ∧ certificate.publicKey = node.publicKey ∧
        answered.2.nodeKeys.lookup nodeId = some ⟨nodeId, node.publicKey, certificate⟩ := by
  obtain ⟨hdrawn, hpending⟩ : nodeId ∈ c₁.requested ∧ c₁.manager.pendingChallenges.lookup
      (challengeId nodeId challenge.toList) = some (pendingAt challenge now) := by
    rw [step] at h₁
    split at h₁
    · cases h₁
    · cases h₁
      exact ⟨(AList.mem_insert _).2 (.inl rfl), AList.lookup_insert _⟩
  have honly : ∀ pending, c₂.manager.pendingChallenges.lookup
      (challengeId nodeId challenge.toList) = some pending → pending = pendingAt challenge now := by
    intro pending hlookup
    have hsame := (lookup_of_exec h₂ hdrawn hlookup).1
    exact Option.some.inj (hsame.symm.trans hpending)
  have haccepted := accepted_respond_iff hS node c₁.manager.publicKey checkedAt hlen honly
  -- the clock has not gone back to before the answer
  have hreadings : ∀ e ∈ es, ∀ t ∈ e.readings, t.nanos ≤ checkedAt.nanos := by
    intro e he t ht
    rw [PairingEvent.Clocked, List.flatMap_append, List.pairwise_append] at hclock
    exact hclock.2.2 t (List.mem_flatMap.2 ⟨e, he, ht⟩) checkedAt (by simp [PairingEvent.readings])
  obtain ⟨hok, hrefused⟩ := @verifyResponse_manager S sha256 c₂.manager
    (node.respond ⟨nodeId, challenge.toList, c₁.manager.publicKey⟩) node.publicKey checkedAt
    issuedAt
  refine ⟨?_, fun certificate hcertificate => ?_⟩
  · have hcases := verifyResponse_cases sha256 c₂.manager
      (node.respond ⟨nodeId, challenge.toList, c₁.manager.publicKey⟩) node.publicKey checkedAt
      issuedAt
    have hiff : (∃ certificate, (c₂.manager.verifyResponse sha256 (node.respond
        ⟨nodeId, challenge.toList, c₁.manager.publicKey⟩) node.publicKey checkedAt
        issuedAt).1 = .ok certificate) ↔ Accepted c₂.manager (node.respond
          ⟨nodeId, challenge.toList, c₁.manager.publicKey⟩) node.publicKey checkedAt := by
      rcases hcases with ⟨hno, hne⟩ | ⟨hyes, certificate, hcertificate, -⟩
      · refine iff_of_false (fun hok => ?_) hno
        obtain ⟨certificate, h⟩ := hok
        exact hne certificate h
      · exact iff_of_true ⟨certificate, hcertificate⟩ hyes
    rw [hiff, haccepted]
    constructor
    · rintro ⟨hlookup, htime⟩
      exact ⟨htime, (lookup_of_exec h₂ hdrawn hlookup).2⟩
    · rintro ⟨htime, hno⟩
      refine ⟨lookup_of_unanswered h₂ hdrawn hpending hno fun e he t ht => ?_, htime⟩
      rw [isExpired_pendingAt]
      have hle := Transcript.timestamp_le (hreadings e he t ht)
      omega
  · obtain ⟨-, rfl, hafter⟩ := hok certificate hcertificate
    refine ⟨rfl, rfl, ?_⟩
    rw [hafter]
    exact AList.lookup_insert _

/-- The coordinator when it has drawn a challenge for the node 7. -/
def drawnForSeven : Coordinator .symbolic :=
  (init ⟨0⟩ (keyOf 0)).drawn (requestFor []) ⟨7⟩ (Vector.replicate 32 9) ⟨0⟩

/-- A cleanup, and an answer for the node 8. -/
def beforeSeven : List PairingEvent :=
  [.cleanupExpiredChallenges ⟨100000000000⟩,
    .verifyResponse ⟨⟨8⟩, List.replicate 32 9, []⟩ [] ⟨150000000000⟩ ⟨150000000000⟩]

/-- The node 7 answers after 200 seconds. -/
theorem completes_undisturbed : ∃ c₂,
    Lts.exec (step fun _ => List.replicate 32 0) drawnForSeven beforeSeven = some c₂ ∧
    ∃ certificate, (c₂.manager.verifyResponse (fun _ => List.replicate 32 0)
      ((PairingManager.newNode ⟨0⟩ (keyOf 1)).respond
        ⟨⟨7⟩, (Vector.replicate 32 9).toList, drawnForSeven.manager.publicKey⟩)
      (PairingManager.newNode ⟨0⟩ (keyOf 1)).publicKey ⟨200000000000⟩ ⟨200000000000⟩).1 =
        .ok certificate := by
  obtain ⟨c₂, h₂⟩ : ∃ c₂,
      Lts.exec (step fun _ => List.replicate 32 0) drawnForSeven beforeSeven = some c₂ := by
    obtain ⟨c₂, h₂⟩ := exists_step_verifyResponse (fun _ => List.replicate 32 0) _ _ _ _ _
    exact ⟨c₂, Lts.exec_cons.2 ⟨_, rfl, Lts.exec_cons.2 ⟨_, h₂, rfl⟩⟩⟩
  have h₁ := step_generateChallenge (fun _ => List.replicate 32 0) (init ⟨0⟩ (keyOf 0))
    (AList.notMem_empty ⟨7⟩) (requestFor []) (Vector.replicate 32 9) ⟨0⟩
  have hclock : PairingEvent.Clocked (beforeSeven ++ [.verifyResponse
      ((PairingManager.newNode ⟨0⟩ (keyOf 1)).respond
        ⟨⟨7⟩, (Vector.replicate 32 9).toList, drawnForSeven.manager.publicKey⟩)
      (PairingManager.newNode ⟨0⟩ (keyOf 1)).publicKey ⟨200000000000⟩ ⟨200000000000⟩]) := by
    simp [PairingEvent.Clocked, PairingEvent.readings, beforeSeven]
  have hcompletes := completes_iff SignatureScheme.ideal_symbolic.toCorrect
    (fun _ => List.replicate 32 0) (PairingManager.newNode ⟨0⟩ (keyOf 1)) (by decide) h₁ h₂ hclock
  refine ⟨c₂, h₂, hcompletes.1.2 ⟨by decide, fun e he => ?_⟩⟩
  rcases List.mem_pair.1 he with rfl | rfl
  · exact id
  · exact fun h => absurd h.1 (by decide)

end Coordinator

end TensorGrid
