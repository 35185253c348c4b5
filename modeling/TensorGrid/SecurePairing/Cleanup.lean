import TensorGrid.SecurePairing.Certificates

/-!
# Cleaning up is not noticed

`cleanup_expired_challenges` removes the challenges that `verify_response` would refuse. Whether a
challenge has expired is decided on the same seconds in both, and once it has, it stays so while the
clock goes forward. So a run with the cleanups and the run without them have the same challenges up
to expired ones (`AgreeAt`), and refuse the same responses: one of them because the challenge is
gone, the other because it has expired.

`cleanup_unnoticed`: two runs that differ in their cleanups only have the same verdicts. It holds
for any node ids, fresh or not.
-/

namespace TensorGrid

open Rust

variable {S : SignatureScheme} {sha256 : List UInt8 → List UInt8}

namespace PairingEvent

/-- The clock readings of a call, in order. -/
def readings : PairingEvent → List DateTime
  | .generateChallenge _ _ _ now => [now]
  | .verifyResponse _ _ checkedAt now => [checkedAt, now]
  | .signChallenge _ => []
  | .revokeNode _ => []
  | .cleanupExpiredChallenges now => [now]

def isCall : PairingEvent → Bool
  | .cleanupExpiredChallenges _ => false
  | _ => true

/-- The clock does not go back. -/
def Clocked (es : List PairingEvent) : Prop :=
  (es.flatMap readings).Pairwise fun t u => t.nanos ≤ u.nanos

end PairingEvent

namespace Transcript

/-- What a call of `verify_response` comes to, without the text of an error. -/
def verdict (sha256 : List UInt8 → List UInt8) (r : Transcript S) :
    PairingEvent → Option (Outcome Unit DeviceCertificate)
  | .verifyResponse response nodePublicKey checkedAt now =>
    some ((r.manager.verifyResponse sha256 response nodePublicKey checkedAt now).1.mapErr fun _ =>
      ())
  | _ => none

/-- The verdicts of a run, the latest first. -/
def verdicts (sha256 : List UInt8 → List UInt8) (r : Transcript S) (es : List PairingEvent) :
    List (Outcome Unit DeviceCertificate) :=
  Lts.observe (step sha256) (fun r e vs => (r.verdict sha256 e).toList ++ vs) r es []

/-! ## Expiry -/

theorem timestamp_le {t u : DateTime} (h : t.nanos ≤ u.nanos) : t.timestamp ≤ u.timestamp :=
  Int.ediv_le_ediv (by decide) h

/-- What has expired stays so. -/
theorem isExpired_of_le {pending : PendingChallenge} {t u : DateTime} (h : t.nanos ≤ u.nanos)
    (ht : pending.isExpired t) : pending.isExpired u := by
  have hle := timestamp_le h
  simp only [PendingChallenge.isExpired, decide_eq_true_eq] at ht ⊢
  omega

/-! ## What a call leaves of the challenges -/

theorem lookup_generateChallenge (m : PairingManager S) (request : PairingRequest)
    (nodeId : NodeId) (challenge : Vector UInt8 32) (now : DateTime) (id : String) :
    (m.generateChallenge request nodeId challenge now).2.pendingChallenges.lookup id =
      if id = challengeId nodeId challenge.toList then
        some { challenge, timestamp := now, expiresInSeconds := 300 }
      else m.pendingChallenges.lookup id :=
  HashMap.lookup_insert_eq _ id _ _

theorem lookup_cleanupExpiredChallenges (m : PairingManager S) (now : DateTime) (id : String) :
    (m.cleanupExpiredChallenges now).pendingChallenges.lookup id =
      (m.pendingChallenges.lookup id).filter fun pending => !pending.isExpired now :=
  HashMap.lookup_retain id _ _

theorem lookup_verifyResponse (m : PairingManager S) (response : PairingResponse)
    (nodePublicKey : List UInt8) (checkedAt now : DateTime) (id : String) :
    (m.verifyResponse sha256 response nodePublicKey checkedAt now).2.pendingChallenges.lookup id =
      if 8 ≤ response.challengeResponse.length ∧
          id = challengeId response.nodeId response.challengeResponse then none
      else m.pendingChallenges.lookup id := by
  unfold PairingManager.verifyResponse
  by_cases hlen : response.challengeResponse.length < 8
  · rw [if_pos hlen, if_neg fun h => absurd h.1 (by omega)]
  rw [if_neg hlen]
  simp only [show 8 ≤ response.challengeResponse.length by omega, true_and]
  split
  · next hnone =>
    split
    · next hid => rw [hid, hnone]
    · rfl
  · split <;> exact HashMap.lookup_erase_eq _ id _

theorem clusterId_verifyResponse (sha256 : List UInt8 → List UInt8) (m : PairingManager S)
    (response : PairingResponse) (nodePublicKey : List UInt8) (checkedAt now : DateTime) :
    let m' := (m.verifyResponse sha256 response nodePublicKey checkedAt now).2
    m'.clusterId = m.clusterId ∧ m'.coordinatorKey = m.coordinatorKey := by
  unfold PairingManager.verifyResponse
  dsimp only
  split
  · exact ⟨rfl, rfl⟩
  split
  · exact ⟨rfl, rfl⟩
  split <;> exact ⟨rfl, rfl⟩

/-! ## A response -/

/-- At this time the managers have the same challenges, up to expired ones that only the second one
still has. -/
def AgreeAt (m m' : PairingManager S) (t : DateTime) : Prop :=
  ∀ id, m.pendingChallenges.lookup id = m'.pendingChallenges.lookup id ∨
    m.pendingChallenges.lookup id = none ∧
      ∃ pending, m'.pendingChallenges.lookup id = some pending ∧ pending.isExpired t

/-- Managers that agree at the time of the check give the same verdict. -/
theorem mapErr_verifyResponse {m m' : PairingManager S} (hcluster : m.clusterId = m'.clusterId)
    (hkey : m.coordinatorKey = m'.coordinatorKey) {checkedAt : DateTime}
    (hagree : AgreeAt m m' checkedAt) (response : PairingResponse) (nodePublicKey : List UInt8)
    (now : DateTime) :
    (m.verifyResponse sha256 response nodePublicKey checkedAt now).1.mapErr (fun _ => ()) =
      (m'.verifyResponse sha256 response nodePublicKey checkedAt now).1.mapErr fun _ => () := by
  unfold PairingManager.verifyResponse
  dsimp only
  by_cases hlen : response.challengeResponse.length < 8
  · rw [if_pos hlen, if_pos hlen]
  rw [if_neg hlen, if_neg hlen]
  rcases hagree (challengeId response.nodeId response.challengeResponse) with
    hsame | ⟨hnone, pending, hpending, hexpired⟩
  · rw [hsame]
    cases m'.pendingChallenges.lookup _ with
    | none => rfl
    | some pending =>
      dsimp only
      cases PairingManager.checkResponse S pending response nodePublicKey checkedAt with
      | ok u =>
        dsimp only
        rw [PairingManager.issueCertificate, PairingManager.issueCertificate, hcluster, hkey]
      | err e => rfl
      | panic => rfl
  · -- one is missing, the other has expired
    rw [hnone, hpending]
    dsimp only
    rw [PairingManager.checkResponse, if_pos hexpired]
    rfl

/-! ## Runs -/

/-- Runs with `es` to come that have the same manager up to expired challenges. -/
structure Alike (es : List PairingEvent) (r r' : Transcript S) : Prop where
  clusterId : r.manager.clusterId = r'.manager.clusterId
  coordinatorKey : r.manager.coordinatorKey = r'.manager.coordinatorKey
  clock : PairingEvent.Clocked es
  agree : ∀ t ∈ es.flatMap PairingEvent.readings, AgreeAt r.manager r'.manager t

section
variable {r r' t : Transcript S} {e : PairingEvent} {es : List PairingEvent}

/-- What is later is as late as what is now. -/
theorem clocked_cons (h : PairingEvent.Clocked (e :: es)) : PairingEvent.Clocked es ∧
    ∀ t ∈ e.readings, ∀ u ∈ es.flatMap PairingEvent.readings, t.nanos ≤ u.nanos := by
  rw [PairingEvent.Clocked, List.flatMap_cons, List.pairwise_append] at h
  exact ⟨h.2.1, h.2.2⟩

theorem Alike.refl (r : Transcript S) (hclock : PairingEvent.Clocked es) : Alike es r r :=
  ⟨rfl, rfl, hclock, fun _ _ _ => .inl rfl⟩

/-- A cleanup in the first run. -/
theorem Alike.cleanup {now : DateTime} (h : Alike (.cleanupExpiredChallenges now :: es) r r') :
    Alike es { r with manager := r.manager.cleanupExpiredChallenges now } r' := by
  obtain ⟨hclock, hlater⟩ := clocked_cons h.clock
  refine ⟨h.clusterId, h.coordinatorKey, hclock, fun u hu id => ?_⟩
  have hle := hlater now (List.mem_singleton.2 rfl) u hu
  have hold := h.agree u (List.mem_append_right _ hu) id
  dsimp only
  rw [lookup_cleanupExpiredChallenges]
  rcases hold with hsame | ⟨hnone, hexpired⟩
  · rw [hsame]
    cases hpending : r'.manager.pendingChallenges.lookup id with
    | none => exact .inl rfl
    | some pending =>
      cases hnow : pending.isExpired now with
      | false => exact .inl (by simp [hnow])
      | true => exact .inr ⟨by simp [hnow], pending, rfl, isExpired_of_le hle hnow⟩
  · rw [hnone]
    exact .inr ⟨rfl, hexpired⟩

theorem exists_step_verifyResponse (sha256 : List UInt8 → List UInt8) (r : Transcript S)
    (response : PairingResponse) (nodePublicKey : List UInt8) (checkedAt now : DateTime) :
    ∃ t, r.step sha256 (.verifyResponse response nodePublicKey checkedAt now) = some t ∧
      t.manager = (r.manager.verifyResponse sha256 response nodePublicKey checkedAt now).2 := by
  rw [step]
  rcases r.manager.verifyResponse sha256 response nodePublicKey checkedAt now with ⟨o, m⟩
  cases o with
  | ok certificate => exact ⟨_, rfl, rfl⟩
  | err error => exact ⟨_, rfl, rfl⟩
  | panic => exact ⟨_, rfl, rfl⟩

/-- The same call in both runs. -/
theorem Alike.call (he : e.isCall = true) (h : Alike (e :: es) r r') : ∃ t t',
    r.step sha256 e = some t ∧ r'.step sha256 e = some t' ∧ Alike es t t' ∧
      r.verdict sha256 e = r'.verdict sha256 e := by
  obtain ⟨hclock, -⟩ := clocked_cons h.clock
  have hagree (t : DateTime) (ht : t ∈ es.flatMap PairingEvent.readings) :
      AgreeAt r.manager r'.manager t := h.agree t (List.mem_append_right _ ht)
  cases e with
  | cleanupExpiredChallenges now => cases he
  | signChallenge challenge =>
    exact ⟨_, _, rfl, rfl, ⟨h.clusterId, h.coordinatorKey, hclock, hagree⟩, rfl⟩
  | revokeNode nodeId =>
    exact ⟨_, _, rfl, rfl, ⟨h.clusterId, h.coordinatorKey, hclock, hagree⟩, rfl⟩
  | generateChallenge request nodeId challenge now =>
    refine ⟨_, _, rfl, rfl, ⟨h.clusterId, h.coordinatorKey, hclock, fun t ht id => ?_⟩, rfl⟩
    dsimp only
    rw [lookup_generateChallenge, lookup_generateChallenge]
    split
    · exact .inl rfl
    · exact hagree t ht id
  | verifyResponse response nodePublicKey checkedAt now =>
    obtain ⟨t, ht, hmanager⟩ :=
      exists_step_verifyResponse sha256 r response nodePublicKey checkedAt now
    obtain ⟨t', ht', hmanager'⟩ :=
      exists_step_verifyResponse sha256 r' response nodePublicKey checkedAt now
    have hkept (m : PairingManager S) :=
      clusterId_verifyResponse sha256 m response nodePublicKey checkedAt now
    have hcheck := h.agree checkedAt (.head _)
    refine ⟨t, t', ht, ht', ⟨?_, ?_, hclock, fun u hu id => ?_⟩, ?_⟩
    · rw [hmanager, hmanager', (hkept _).1, (hkept _).1, h.clusterId]
    · rw [hmanager, hmanager', (hkept _).2, (hkept _).2, h.coordinatorKey]
    · rw [hmanager, hmanager', lookup_verifyResponse, lookup_verifyResponse]
      split
      · exact .inl rfl
      · exact hagree u hu id
    · exact congrArg some
        (mapErr_verifyResponse h.clusterId h.coordinatorKey hcheck response nodePublicKey now)

end

/-- **Erasing the cleanups changes no verdict.** -/
theorem verdicts_filter (r : Transcript S) {es : List PairingEvent}
    (hclock : PairingEvent.Clocked es) :
    r.verdicts sha256 es = r.verdicts sha256 (es.filter PairingEvent.isCall) := by
  refine Lts.observe_filter (R := Alike) (fun e es r r' h he => ?_) (fun e es r r' h he => ?_)
    (.refl r hclock) []
  · cases e with
    | cleanupExpiredChallenges now => exact ⟨_, rfl, h.cleanup, fun _ => rfl⟩
    | generateChallenge | verifyResponse | signChallenge | revokeNode => cases he
  · obtain ⟨t, t', ht, ht', hR, hverdict⟩ := h.call he
    exact ⟨t, t', ht, ht', hR, fun k => by rw [hverdict]⟩

/-- **Cleaning up is not noticed**: runs that differ in their cleanups only have the same
verdicts. -/
theorem cleanup_unnoticed (sha256 : List UInt8 → List UInt8) (clusterId : ClusterId)
    (key : S.SecretKey) {es es' : List PairingEvent}
    (hcalls : es.filter PairingEvent.isCall = es'.filter PairingEvent.isCall)
    (hclock : PairingEvent.Clocked es) (hclock' : PairingEvent.Clocked es') :
    (init clusterId key).verdicts sha256 es = (init clusterId key).verdicts sha256 es' := by
  rw [verdicts_filter _ hclock, verdicts_filter _ hclock', hcalls]

/-- A challenge that is answered after 301 seconds, with cleanups in between. -/
def answeredLate (cleanups : List PairingEvent) : List PairingEvent :=
  .generateChallenge (Coordinator.requestFor (List.replicate 32 1)) ⟨7⟩ (Vector.replicate 32 9)
    ⟨0⟩ :: (cleanups ++ [.verifyResponse ⟨⟨7⟩, List.replicate 32 9, List.replicate 64 0⟩
      (List.replicate 32 1) ⟨301000000000⟩ ⟨301000000000⟩])

theorem cleanup_unnoticed_late :
    (init ⟨0⟩ (Coordinator.keyOf 0)).verdicts (fun _ => List.replicate 32 0)
        (answeredLate [.cleanupExpiredChallenges ⟨301000000000⟩]) =
      (init ⟨0⟩ (Coordinator.keyOf 0)).verdicts (fun _ => List.replicate 32 0) (answeredLate []) :=
  cleanup_unnoticed _ _ _ rfl
    (by simp [PairingEvent.Clocked, answeredLate, PairingEvent.readings])
    (by simp [PairingEvent.Clocked, answeredLate, PairingEvent.readings])

end Transcript

end TensorGrid
