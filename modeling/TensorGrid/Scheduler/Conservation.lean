import TensorGrid.Scheduler.Ledger
import TensorGrid.Lib.Lts

/-!
# Conservation of the ledger

* `schedule_cases`: on an accounted scheduler, `schedule` fails without a trace or adds one share
  for the session it stores; in particular a failed call changes nothing
  (`schedule_err_unchanged`).
* `Conserved`: the ledger records exactly what the stored sessions hold. A run keeps it exactly
  when no request is admitted under the id of a session that is still stored
  (`always_conserved_iff`): such a request replaces the session and its reservation is never given
  back.
-/

namespace TensorGrid.Scheduler

open Rust

/-! ## Complete calls -/

/-- The request passes admission, finds nodes, and no selected node is full: what `schedule` checks
before it stores a session. -/
def Admitted (s : Scheduler) (request : ScheduleRequest) : Prop :=
  ∃ nodes, plan request s.cluster = .ok nodes ∧
    ∀ n ∈ nodes, ¬ (ledgerOf s.nodeAllocations n).allocatedCpuPercent + 30.0 > 100.0

section
variable {c : LogicalCluster} {s : Scheduler} {m k : Nat} {ids : List SessionId}

theorem Accounted.admitted_iff (h : Accounted c s m k ids) (request : ScheduleRequest) :
    Admitted s request ↔ plan request c = .ok (selected c) ∧ k < 3 := by
  have hk := h.le_three
  have hfull := full_entry hk ids
  rw [Admitted, h.cluster]
  constructor
  · rintro ⟨nodes, hplan, hroom⟩
    obtain ⟨rfl, hne⟩ := plan_eq_ok hplan
    obtain ⟨n, hn⟩ := List.exists_mem_of_ne_nil _ hne
    have := hroom n hn
    rw [h.ledgerOf_eq hn] at this
    refine ⟨hplan, lt_of_le_of_ne hk fun h3 => this (hfull.2 h3)⟩
  · rintro ⟨hplan, hk⟩
    refine ⟨_, hplan, fun n hn => ?_⟩
    rw [h.ledgerOf_eq hn]
    exact fun hf => absurd (hfull.1 hf) (by omega)

/-- A call of `schedule` either fails and leaves the scheduler, or is admitted, reserves one share
and stores a session. -/
theorem schedule_cases (h : Accounted c s 0 k ids) (request : ScheduleRequest)
    (visit : HashMap.Visit NodeId ResourceAllocation) (now : DateTime) :
    (¬ Admitted s request ∧ (s.schedule request visit now).2 = s ∧
      ∀ session, (s.schedule request visit now).1 ≠ .ok session) ∨
    Admitted s request ∧ selected c ≠ [] ∧
      (s.schedule request visit now).1 = .ok (mkSession request c (selected c) now) ∧
      (s.schedule request visit now).2.sessions =
        s.sessions.insert request.sessionId (mkSession request c (selected c) now) ∧
      Accounted c (s.schedule request visit now).2 0 (k + 1) (ids ++ [request.sessionId]) := by
  have hadm := h.admitted_iff request
  rw [schedule, h.cluster]
  cases hp : plan request c with
  | err e => exact .inl ⟨by rw [hadm, hp]; simp, rfl, by simp⟩
  | panic => exact .inl ⟨by rw [hadm, hp]; simp, rfl, by simp⟩
  | ok nodes =>
    obtain ⟨rfl, hne⟩ := plan_eq_ok hp
    have hs := shares_calculateAllocations (selected c)
    by_cases hk : k < 3
    · obtain ⟨l, hrun, hl⟩ := h.reserve hs visit request.sessionId hk
      refine .inr ⟨hadm.2 ⟨hp, hk⟩, hne, ?_⟩
      simp only [hrun]
      rw [h.cluster] at hl
      exact ⟨trivial, rfl, hl.store hs⟩
    · obtain ⟨n, hrun⟩ := h.reserve_err hs visit request.sessionId hk hne
      refine .inl ⟨fun ha => hk (hadm.1 ha).2, ?_⟩
      simp only [hrun]
      exact ⟨by rw [← h.cluster], by simp⟩

/-- A call of `release_session` gives back one share of the session it removes, or fails. -/
theorem releaseSession_cases (h : Accounted c s 0 k ids) (id : SessionId)
    (visit : HashMap.Visit NodeId ResourceAllocation) :
    (id ∉ s.sessions ∧ (s.releaseSession id visit).2 = s) ∨
    id ∈ s.sessions ∧ (s.releaseSession id visit).2.sessions = s.sessions.erase id ∧
      ∃ j, k = j + 1 ∧
        Accounted c (s.releaseSession id visit).2 0 j (ids.filter (· != id)) := by
  cases hl : s.sessions.lookup id with
  | none => exact .inl ⟨HashMap.notMem_of_lookup hl, by rw [releaseSession, hl]⟩
  | some session =>
    refine .inr ⟨HashMap.mem_of_lookup hl, by rw [releaseSession, hl]; rfl, ?_⟩
    rw [releaseSession, hl]
    exact (h.take hl).free (h.shares id session hl) visit id rfl

end

/-- The scheduler after some complete calls is accounted. -/
theorem accounted_step (c : LogicalCluster) (s : Scheduler) (call : Call) (t : Scheduler)
    (h : ∃ k ids, Accounted c s 0 k ids) (hstep : step s call = some t) :
    ∃ k ids, Accounted c t 0 k ids := by
  obtain ⟨k, ids, h⟩ := h
  cases hstep
  cases call with
  | schedule request visit now =>
    obtain ⟨-, hs, -⟩ | ⟨-, -, -, -, hs⟩ := schedule_cases h request visit now
    · exact ⟨k, ids, by rwa [apply, hs]⟩
    · exact ⟨_, _, hs⟩
  | releaseSession id visit =>
    obtain ⟨-, hs⟩ | ⟨-, -, j, -, hs⟩ := releaseSession_cases h id visit
    · exact ⟨k, ids, by rwa [apply, hs]⟩
    · exact ⟨_, _, hs⟩

theorem accounted_of_reachable {c : LogicalCluster} {s : Scheduler}
    (h : Lts.Reachable step (new c) s) : ∃ k ids, Accounted c s 0 k ids :=
  h.inv ⟨0, [], accounted_new c⟩ (accounted_step c)

/-- **A failed `schedule` changes nothing**, whatever the calls before it were and whatever order
the reservation visits the allocations in. -/
theorem schedule_err_unchanged (c : LogicalCluster) (s : Scheduler)
    (hs : Lts.Reachable step (new c) s) (request : ScheduleRequest)
    (visit : HashMap.Visit NodeId ResourceAllocation) (now : DateTime) (e : ScheduleError)
    (herr : (s.schedule request visit now).1 = .err e) :
    (s.schedule request visit now).2.sessions = s.sessions ∧
      (s.schedule request visit now).2.nodeAllocations = s.nodeAllocations := by
  obtain ⟨k, ids, h⟩ := accounted_of_reachable hs
  obtain ⟨-, hsame, -⟩ | ⟨-, -, hok, -⟩ := schedule_cases h request visit now
  · rw [hsame]
    exact ⟨rfl, rfl⟩
  · rw [hok] at herr
    cases herr

/-- A request of 1024 tokens, under the session id 7. -/
def smallRequest : ScheduleRequest := ⟨⟨7⟩, "model", 1024, 1, .normal⟩

/-- Scheduling `smallRequest`. -/
def smallCall : Call := .schedule smallRequest (.stored _ _) ⟨0⟩

/-- The fourth request on a cluster of one node finds it full. -/
theorem schedule_err_unchanged_full :
    let s := (((new smallCluster).apply smallCall).apply smallCall).apply smallCall
    (s.schedule smallRequest (.stored _ _) ⟨0⟩).1 = .err (.insufficientResources ⟨1⟩) ∧
      (s.schedule smallRequest (.stored _ _) ⟨0⟩).2.sessions = s.sessions ∧
        (s.schedule smallRequest (.stored _ _) ⟨0⟩).2.nodeAllocations = s.nodeAllocations := by
  intro s
  have herr : (s.schedule smallRequest (.stored _ _) ⟨0⟩).1 = .err (.insufficientResources ⟨1⟩) :=
    Outcome.err?_eq_some.1 (by decide +kernel)
  exact ⟨herr, schedule_err_unchanged smallCluster s ⟨[smallCall, smallCall, smallCall], rfl⟩ _ _ _
    _ herr⟩

/-! ## Conservation -/

/-- What a session holds on a node, measured by `f`. -/
def held {M : Type} [Zero M] (f : ResourceAllocation → M) (n : NodeId)
    (session : ScheduledSession) : M :=
  (session.allocatedResources.lookup n).elim 0 f

theorem held_shares {nodes : List NodeId} {session : ScheduledSession}
    (h : Shares nodes session.allocatedResources) {M : Type} [Zero M]
    (f : ResourceAllocation → M) (n : NodeId) :
    held f n session = if n ∈ nodes then f (nodeShare n) else 0 := by
  rw [held, h n]
  split <;> rfl

/-- The amounts recorded for `n` are the sums over the stored sessions, and its active sessions
are exactly the sessions that hold resources on it. -/
structure ConservedAt (s : Scheduler) (n : NodeId) : Prop where
  cpu : Binary32.toRat (ledgerOf s.nodeAllocations n).allocatedCpuPercent =
    HashMap.total (fun _ => held (fun a => Binary32.toRat a.cpuPercent) n) s.sessions
  ram : (ledgerOf s.nodeAllocations n).allocatedRamBytes.toNat =
    HashMap.total (fun _ => held (fun a => a.ramBytes.toNat) n) s.sessions
  vram : (ledgerOf s.nodeAllocations n).allocatedVramBytes.toNat =
    HashMap.total (fun _ => held (fun a => a.vramBytes.toNat) n) s.sessions
  nodup : (ledgerOf s.nodeAllocations n).activeSessions.Nodup
  active : ∀ id, id ∈ (ledgerOf s.nodeAllocations n).activeSessions ↔
    ∃ session, s.sessions.lookup id = some session ∧ n ∈ session.allocatedResources

/-- The ledger records what the stored sessions hold, on every node. -/
def Conserved (s : Scheduler) : Prop := ∀ n, ConservedAt s n

section
variable {c : LogicalCluster} {s : Scheduler} {m k : Nat} {ids : List SessionId}

theorem Accounted.total_held (h : Accounted c s m k ids) {M : Type} [AddCommMonoid M]
    (f : ResourceAllocation → M) (n : NodeId) :
    HashMap.total (fun _ => held f n) s.sessions =
      s.sessions.entries.length • (if n ∈ selected c then f (nodeShare n) else 0) :=
  HashMap.total_const _ fun id session hl => held_shares (h.shares id session hl) f n

theorem Accounted.conservedAt_zero (h : Accounted c s m k ids) {n : NodeId}
    (hn : n ∉ selected c) : ConservedAt s n := by
  have hzero := h.ledgerOf_zero hn
  constructor
  · rw [hzero, h.total_held, if_neg hn, nsmul_zero]; decide +kernel
  · rw [hzero, h.total_held, if_neg hn, nsmul_zero]; rfl
  · rw [hzero, h.total_held, if_neg hn, nsmul_zero]; rfl
  · rw [hzero]; exact List.nodup_nil
  · refine fun id => ⟨fun hid => ?_, fun ⟨session, hl, hmem⟩ => ?_⟩
    · rw [hzero] at hid
      cases hid
    · exact absurd (((h.shares id session hl).mem_iff n).1 hmem) hn

/-- On a selected node, conservation says that every share belongs to a stored session. -/
theorem Accounted.conservedAt_iff (h : Accounted c s m k ids) {n : NodeId} (hn : n ∈ selected c) :
    ConservedAt s n ↔ k = s.sessions.entries.length ∧ ids.Nodup ∧ ∀ id, id ∈ ids ↔
      id ∈ s.sessions := by
  have hentry := h.ledgerOf_eq hn
  have hactive (id : SessionId) : (∃ session, s.sessions.lookup id = some session ∧
      n ∈ session.allocatedResources) ↔ id ∈ s.sessions := by
    refine ⟨fun ⟨_, hl, _⟩ => HashMap.mem_of_lookup hl, fun hid => ?_⟩
    obtain ⟨session, hl⟩ := HashMap.lookup_of_mem hid
    exact ⟨session, hl, ((h.shares id session hl).mem_iff n).2 hn⟩
  have hram : (nodeShare n).ramBytes.toNat = 4 * 1024 * 1024 * 1024 := rfl
  constructor
  · intro hc
    have hsum := hc.ram
    rw [hentry, ram_entry h.le_three, h.total_held, if_pos hn, hram] at hsum
    refine ⟨Nat.eq_of_mul_eq_mul_right (by decide) hsum, ?_, fun id => ?_⟩
    · exact (congrArg (·.activeSessions.Nodup) hentry).mp hc.nodup
    · rw [← hactive, ← hc.active, hentry]
      rfl
  · rintro ⟨hk, hnodup, hids⟩
    constructor
    · rw [hentry, toRat_entry h.le_three, h.total_held, if_pos hn, hk,
        toRat_nodeShare]
    · rw [hentry, ram_entry h.le_three, h.total_held, if_pos hn, hk, hram]
    · rw [hentry, vram_entry h.le_three, h.total_held, if_pos hn, hk]
      rfl
    · rw [hentry]; exact hnodup
    · intro id
      rw [hactive, ← hids, hentry]
      rfl

theorem Accounted.conserved_iff (h : Accounted c s m k ids) :
    Conserved s ↔ (selected c ≠ [] → k = s.sessions.entries.length ∧ ids.Nodup ∧
      ∀ id, id ∈ ids ↔ id ∈ s.sessions) := by
  constructor
  · intro hc hne
    obtain ⟨n, hn⟩ := List.exists_mem_of_ne_nil _ hne
    exact (h.conservedAt_iff hn).1 (hc n)
  · intro hc n
    by_cases hn : n ∈ selected c
    · exact (h.conservedAt_iff hn).2 (hc (List.ne_nil_of_mem hn))
    · exact h.conservedAt_zero hn

end

theorem conserved_new (c : LogicalCluster) : Conserved (new c) := by
  rw [(accounted_new c).conserved_iff]
  exact fun _ => ⟨rfl, List.nodup_nil, fun id => by simp [new]⟩

/-- A call that would replace a stored session is not admitted. -/
def NoReplacement (s : Scheduler) : Call → Prop
  | .schedule request _ _ => request.sessionId ∈ s.sessions → ¬ Admitted s request
  | .releaseSession _ _ => True

/-- One call keeps the ledger conserved exactly when it replaces no stored session. -/
theorem conserved_apply_iff {c : LogicalCluster} {s : Scheduler} {k : Nat} {ids : List SessionId}
    (h : Accounted c s 0 k ids) (hc : Conserved s) (call : Call) :
    Conserved (s.apply call) ↔ NoReplacement s call := by
  cases call with
  | schedule request visit now =>
    obtain ⟨hno, hs, -⟩ | ⟨hadm, hne, -, hsessions, hacc⟩ := schedule_cases h request visit now
    · rw [apply, hs]
      exact ⟨fun _ _ => hno, fun _ => hc⟩
    obtain ⟨hk, hnodup, hids⟩ := h.conserved_iff.1 hc hne
    rw [apply, hacc.conserved_iff, hsessions]
    constructor
    · -- replacing a session adds a share but no session
      intro hc' hmem
      rw [HashMap.length_insert_of_mem hmem, ← hk] at hc'
      exact absurd (hc' hne).1 (by omega)
    · intro hnew _
      have hfresh : request.sessionId ∉ s.sessions := fun hmem => hnew hmem hadm
      refine ⟨by rw [HashMap.length_insert hfresh, hk], ?_, fun id => ?_⟩
      · rw [← hids] at hfresh
        exact List.nodup_append.2 ⟨hnodup, by simp, by
          rintro id hid _ hid' rfl
          exact hfresh (List.mem_singleton.1 hid' ▸ hid)⟩
      · rw [List.mem_append, hids, List.mem_singleton, AList.mem_insert, or_comm]
  | releaseSession id visit =>
    obtain ⟨-, hs⟩ | ⟨hmem, hsessions, j, rfl, hacc⟩ := releaseSession_cases h id visit
    · rw [apply, hs]
      exact ⟨fun _ => trivial, fun _ => hc⟩
    refine ⟨fun _ => trivial, fun _ => ?_⟩
    rw [apply, hacc.conserved_iff, hsessions]
    intro hne
    obtain ⟨hk, hnodup, hids⟩ := h.conserved_iff.1 hc hne
    have hlen := HashMap.length_erase hmem
    refine ⟨by omega, hnodup.filter _, fun id' => ?_⟩
    rw [List.mem_filter, hids, AList.mem_erase]
    simp [and_comm]

/-- **The ledger stays conserved exactly along the runs in which no request is admitted under the
id of a stored session.** -/
theorem always_conserved_iff (c : LogicalCluster) (calls : List Call) :
    Lts.Always step Conserved (new c) calls ↔ Lts.Meets step NoReplacement (new c) calls := by
  refine Lts.always_iff_meets (I := fun s => ∃ k ids, Accounted c s 0 k ids) (accounted_step c)
    ?_ ⟨0, [], accounted_new c⟩ (conserved_new c)
  rintro s call t ⟨k, ids, h⟩ hc hstep
  cases hstep
  exact conserved_apply_iff h hc call

/-- Scheduling the session id 7 twice: two shares are recorded for one stored session. -/
theorem not_always_conserved :
    ¬ Lts.Always step Conserved (new smallCluster) [smallCall, smallCall] := by
  intro h
  have hc : Conserved (((new smallCluster).apply smallCall).apply smallCall) :=
    (h.2 _ rfl).2 _ rfl
  exact absurd (hc ⟨1⟩).ram (by decide +kernel)

end TensorGrid.Scheduler
