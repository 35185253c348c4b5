import TensorGrid.Scheduler.Conservation

/-!
# Releasing a session undoes its schedule

Along a run the active sessions of a node are sessions that are stored (`Listed`), so a new session
is listed once. The other calls keep it stored and listed once (`Holding.step`), and its release
then gives back its share (`Holding.releaseSession`).
-/

namespace TensorGrid.Scheduler

open Rust

/-- The id a call is for. -/
def Call.sessionId : Call → SessionId
  | .schedule request _ _ => request.sessionId
  | .releaseSession id _ => id

/-- The scheduler is accounted, and lists only sessions that are stored. -/
def Listed (c : LogicalCluster) (s : Scheduler) : Prop :=
  ∃ k ids, Accounted c s 0 k ids ∧ ∀ id ∈ ids, id ∈ s.sessions

theorem Listed.step {c : LogicalCluster} {s t : Scheduler} {call : Call} (h : Listed c s)
    (hstep : Scheduler.step s call = some t) : Listed c t := by
  obtain ⟨k, ids, hacc, hids⟩ := h
  cases hstep
  cases call with
  | schedule request visit now =>
    obtain ⟨-, hs, -⟩ | ⟨-, -, -, hsessions, hacc⟩ := schedule_cases hacc request visit now
    · exact ⟨k, ids, by rwa [apply, hs], by rwa [apply, hs]⟩
    · refine ⟨_, _, hacc, fun id hid => ?_⟩
      rw [apply, hsessions, AList.mem_insert]
      rcases List.mem_append.1 hid with hid | hid
      · exact .inr (hids id hid)
      · exact .inl (List.mem_singleton.1 hid)
  | releaseSession id visit =>
    obtain ⟨-, hs⟩ | ⟨-, hsessions, j, -, hacc⟩ := releaseSession_cases hacc id visit
    · exact ⟨k, ids, by rwa [apply, hs], by rwa [apply, hs]⟩
    · refine ⟨_, _, hacc, fun id' hid' => ?_⟩
      obtain ⟨hmem, hne⟩ := List.mem_filter.1 hid'
      rw [apply, hsessions, AList.mem_erase]
      exact ⟨by simpa using hne, hids id' hmem⟩

theorem listed_of_reachable {c : LogicalCluster} {s : Scheduler}
    (h : Lts.Reachable step (new c) s) : Listed c s :=
  h.inv ⟨0, [], accounted_new c, by simp⟩ fun _ _ _ hs he => hs.step he

/-! ## A session that is held -/

/-- The session is stored under `id`, and listed once. -/
def Holding (c : LogicalCluster) (id : SessionId) (session : ScheduledSession) (t : Scheduler) :
    Prop :=
  ∃ k older newer, Accounted c t 0 k (older ++ id :: newer) ∧ id ∉ older ∧ id ∉ newer ∧
    t.sessions.lookup id = some session

section
variable {c : LogicalCluster} {id : SessionId} {session : ScheduledSession} {s t : Scheduler}

/-- Calls for other ids keep the session. -/
theorem Holding.step {call : Call} (h : Holding c id session s) (hother : call.sessionId ≠ id)
    (hstep : Scheduler.step s call = some t) : Holding c id session t := by
  obtain ⟨k, older, newer, hacc, holder, hnewer, hlookup⟩ := h
  cases hstep
  cases call with
  | schedule request visit now =>
    have hne : id ≠ request.sessionId := Ne.symm hother
    obtain ⟨-, hs, -⟩ | ⟨-, -, -, hsessions, hacc⟩ := schedule_cases hacc request visit now
    · rw [apply, hs]
      exact ⟨k, older, newer, hacc, holder, hnewer, hlookup⟩
    · rw [List.append_assoc, List.cons_append] at hacc
      refine ⟨_, older, _, hacc, holder, ?_, ?_⟩
      · rw [List.mem_append, List.mem_singleton, not_or]
        exact ⟨hnewer, hne⟩
      · rw [apply, hsessions, AList.lookup_insert_ne hne, hlookup]
  | releaseSession id' visit =>
    have hne : id ≠ id' := Ne.symm hother
    obtain ⟨-, hs⟩ | ⟨-, hsessions, j, -, hacc⟩ := releaseSession_cases hacc id' visit
    · rw [apply, hs]
      exact ⟨k, older, newer, hacc, holder, hnewer, hlookup⟩
    · rw [List.filter_append,
        List.filter_cons_of_pos (p := (· != id')) (bne_iff_ne.2 hne)] at hacc
      refine ⟨_, _, _, hacc, ?_, ?_, ?_⟩
      · exact fun hmem => holder (List.mem_filter.1 hmem).1
      · exact fun hmem => hnewer (List.mem_filter.1 hmem).1
      · rw [apply, hsessions, AList.lookup_erase_ne hne, hlookup]

/-- What a release does: every node's recorded amounts go down by what the session holds there, and
only its id leaves the active sessions. -/
structure GivenBack (id : SessionId) (session : ScheduledSession) (before after : Scheduler) :
    Prop where
  sessions : after.sessions = before.sessions.erase id
  cpu : ∀ n, Binary32.toRat (ledgerOf after.nodeAllocations n).allocatedCpuPercent +
      held (fun a => Binary32.toRat a.cpuPercent) n session =
    Binary32.toRat (ledgerOf before.nodeAllocations n).allocatedCpuPercent
  ram : ∀ n, (ledgerOf after.nodeAllocations n).allocatedRamBytes.toNat +
      held (fun a => a.ramBytes.toNat) n session =
    (ledgerOf before.nodeAllocations n).allocatedRamBytes.toNat
  vram : ∀ n, (ledgerOf after.nodeAllocations n).allocatedVramBytes.toNat +
      held (fun a => a.vramBytes.toNat) n session =
    (ledgerOf before.nodeAllocations n).allocatedVramBytes.toNat
  listed : ∀ n, n ∈ session.allocatedResources →
    id ∈ (ledgerOf before.nodeAllocations n).activeSessions
  active : ∀ n, (ledgerOf after.nodeAllocations n).activeSessions =
    (ledgerOf before.nodeAllocations n).activeSessions.erase id
  gone : ∀ n, id ∉ (ledgerOf after.nodeAllocations n).activeSessions
  others : ∀ n, n ∉ session.allocatedResources →
    after.nodeAllocations.lookup n = before.nodeAllocations.lookup n

/-- The ids without the one of the session. -/
theorem filter_ne_eq {older newer : List SessionId} (holder : id ∉ older) (hnewer : id ∉ newer) :
    (older ++ id :: newer).filter (· != id) = older ++ newer := by
  have hkeep {ids : List SessionId} (hno : id ∉ ids) : ids.filter (· != id) = ids :=
    List.filter_eq_self.2 fun id' hid' => bne_iff_ne.2 fun heq => hno (heq ▸ hid')
  rw [List.filter_append, List.filter_cons_of_neg (by simp), hkeep holder, hkeep hnewer]

/-- An amount that is `k` times that of one share goes down by what the session holds. -/
theorem amount_lowered {M : Type} [AddMonoid M] {f : NodeAllocation → M}
    {g : ResourceAllocation → M} {amount : M} (hg : ∀ n, g (nodeShare n) = amount)
    (hf : ∀ k ≤ 3, ∀ ids, f (entry k ids) = k • amount) {j : Nat} {ids ids' : List SessionId}
    (hs : Accounted c s 0 (j + 1) ids) (ht : Accounted c t 0 j ids')
    (hshares : Shares (selected c) session.allocatedResources) (n : NodeId) :
    f (ledgerOf t.nodeAllocations n) + held g n session = f (ledgerOf s.nodeAllocations n) := by
  rw [held_shares hshares]
  by_cases hn : n ∈ selected c
  · rw [hs.ledgerOf_eq hn, ht.ledgerOf_eq hn, hf _ hs.le_three, hf _ ht.le_three, if_pos hn, hg,
      succ_nsmul]
  · rw [hs.ledgerOf_zero hn, ht.ledgerOf_zero hn, if_neg hn, add_zero]

/-- The ledgers of `j + 1` and of `j` shares. -/
theorem givenBack_of_accounted {j : Nat} {older newer : List SessionId} (holder : id ∉ older)
    (hnewer : id ∉ newer) (hs : Accounted c s 0 (j + 1) (older ++ id :: newer))
    (ht : Accounted c t 0 j (older ++ newer))
    (hshares : Shares (selected c) session.allocatedResources)
    (hsessions : t.sessions = s.sessions.erase id) : GivenBack id session s t where
  sessions := hsessions
  cpu := amount_lowered (f := fun a => Binary32.toRat a.allocatedCpuPercent)
    (g := fun a => Binary32.toRat a.cpuPercent) toRat_nodeShare (fun _ => toRat_entry) hs ht hshares
  ram := amount_lowered (f := fun a => a.allocatedRamBytes.toNat) (g := fun a => a.ramBytes.toNat)
    (fun _ => rfl) (fun _ => ram_entry) hs ht hshares
  vram := amount_lowered (f := fun a => a.allocatedVramBytes.toNat)
    (g := fun a => a.vramBytes.toNat) (fun _ => rfl) (fun _ => vram_entry) hs ht hshares
  listed n hn := by
    rw [hs.ledgerOf_eq ((hshares.mem_iff n).1 hn)]
    exact List.mem_append_right _ (List.mem_cons_self ..)
  active n := by
    by_cases hn : n ∈ selected c
    · rw [hs.ledgerOf_eq hn, ht.ledgerOf_eq hn]
      show older ++ newer = (older ++ id :: newer).erase id
      rw [List.erase_append_right _ holder, List.erase_cons_head]
    · rw [hs.ledgerOf_zero hn, ht.ledgerOf_zero hn]
      rfl
  gone n := by
    by_cases hn : n ∈ selected c
    · rw [ht.ledgerOf_eq hn]
      exact fun h => (List.mem_append.1 h).elim holder hnewer
    · rw [ht.ledgerOf_zero hn]
      exact List.not_mem_nil
  others n hn := by
    obtain ⟨a, hu, -⟩ := hs.ledger
    obtain ⟨b, hv, -⟩ := ht.ledger
    rw [hshares.mem_iff] at hn
    rw [hu n, hv n, if_neg hn, if_neg hn]

/-- The release of a session that is held. -/
theorem Holding.releaseSession (h : Holding c id session t)
    (visit : HashMap.Visit NodeId ResourceAllocation) :
    (t.releaseSession id visit).1 = .ok () ∧
      GivenBack id session t (t.releaseSession id visit).2 := by
  obtain ⟨k, older, newer, hacc, holder, hnewer, hlookup⟩ := h
  refine ⟨by rw [Scheduler.releaseSession, hlookup], ?_⟩
  obtain ⟨hno, -⟩ | ⟨-, hsessions, j, rfl, hacc'⟩ := releaseSession_cases hacc id visit
  · exact absurd (HashMap.mem_of_lookup hlookup) hno
  · rw [filter_ne_eq holder hnewer] at hacc'
    exact givenBack_of_accounted holder hnewer hacc hacc' (hacc.shares id session hlookup) hsessions

end

/-- **Releasing a session undoes its schedule**, whatever calls for other ids come between; without
such calls, every node's entry is what it was before the schedule. -/
theorem releaseSession_undoes (c : LogicalCluster) (s : Scheduler)
    (hs : Lts.Reachable step (new c) s) (request : ScheduleRequest)
    (hfresh : request.sessionId ∉ s.sessions) (visit : HashMap.Visit NodeId ResourceAllocation)
    (now : DateTime) (session : ScheduledSession)
    (hok : (s.schedule request visit now).1 = .ok session) :
    (∀ calls t visit', (∀ call ∈ calls, call.sessionId ≠ request.sessionId) →
      Lts.exec step (s.schedule request visit now).2 calls = some t →
        (t.releaseSession request.sessionId visit').1 = .ok () ∧
          GivenBack request.sessionId session t (t.releaseSession request.sessionId visit').2) ∧
    ∀ visit' n,
      ledgerOf ((s.schedule request visit now).2.releaseSession
        request.sessionId visit').2.nodeAllocations n = ledgerOf s.nodeAllocations n := by
  obtain ⟨k, ids, hacc, hids⟩ := listed_of_reachable hs
  have hnew : request.sessionId ∉ ids := fun h => hfresh (hids _ h)
  obtain ⟨-, -, hno⟩ | ⟨-, hne, hsession, hsessions, hacc'⟩ := schedule_cases hacc request visit now
  · exact absurd hok (hno session)
  obtain rfl := Outcome.ok.inj (hsession.symm.trans hok)
  constructor
  · intro calls t visit' hother hrun
    have hheld : Holding c request.sessionId (mkSession request c (selected c) now)
        (s.schedule request visit now).2 :=
      ⟨_, ids, [], hacc', hnew, List.not_mem_nil, by rw [hsessions, AList.lookup_insert]⟩
    have hlast : Holding c request.sessionId (mkSession request c (selected c) now) t :=
      Lts.exec_inv_of_forall (D := fun call => call.sessionId ≠ request.sessionId)
        (fun _ _ _ h hd he => h.step hd he) hrun hother hheld
    exact hlast.releaseSession visit'
  · intro visit' n
    obtain ⟨hno, -⟩ | ⟨-, -, j, hj, hback⟩ := releaseSession_cases hacc' request.sessionId visit'
    · rw [hsessions] at hno
      exact absurd ((AList.mem_insert _).2 (.inl rfl)) hno
    · obtain rfl : k = j := Nat.succ.inj hj
      rw [filter_ne_eq hnew List.not_mem_nil, List.append_nil] at hback
      by_cases hn : n ∈ selected c
      · rw [hback.ledgerOf_eq hn, hacc.ledgerOf_eq hn]
      · rw [hback.ledgerOf_zero hn, hacc.ledgerOf_zero hn]

/-- A request under the session id 8. -/
def otherRequest : ScheduleRequest := { smallRequest with sessionId := ⟨8⟩ }

/-- The session 7 is scheduled, then the session 8 twice, and the session 7 is released. -/
theorem releaseSession_undoes_small :
    let s := ((new smallCluster).schedule smallRequest (.stored _ _) ⟨0⟩).2
    let t := (s.apply (.schedule otherRequest (.stored _ _) ⟨1⟩)).apply
      (.schedule otherRequest (.stored _ _) ⟨2⟩)
    (t.releaseSession ⟨7⟩ (.stored _ _)).1 = .ok () ∧
      GivenBack ⟨7⟩ (mkSession smallRequest smallCluster (selected smallCluster) ⟨0⟩) t
        (t.releaseSession ⟨7⟩ (.stored _ _)).2 := by
  intro s t
  have hadm : Admitted (new smallCluster) smallRequest :=
    ((accounted_new smallCluster).admitted_iff smallRequest).2 ⟨by decide +kernel, by decide⟩
  obtain ⟨hno, -⟩ | ⟨-, -, hok, -⟩ :=
    schedule_cases (accounted_new smallCluster) smallRequest (.stored _ _) ⟨0⟩
  · exact absurd hadm hno
  · exact (releaseSession_undoes smallCluster (new smallCluster) (.refl _) smallRequest
      (by simp [new]) (.stored _ _) ⟨0⟩ _ hok).1
        [.schedule otherRequest (.stored _ _) ⟨1⟩, .schedule otherRequest (.stored _ _) ⟨2⟩] t _
        (by decide) rfl

end TensorGrid.Scheduler
