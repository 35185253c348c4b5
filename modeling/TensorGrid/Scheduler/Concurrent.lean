import TensorGrid.Scheduler.Conservation

/-!
# Concurrent calls

Any number of `schedule` and `release_session` calls in flight, each section under a held write
lock one step. A `schedule` has two sections, the reservation (`node_allocations`) and the insertion
of the session (`sessions`). A `release_session` removes the session under the lock of `sessions`
and keeps that lock while it waits for the one of `node_allocations`, under which it gives the
resources back. The cluster is only read.

* `Proc.run_accounted`: a section keeps the ledger accounted, with one outstanding reservation for
  each call that has reserved but not stored, or removed but not given back.
* `release_safe`: hence the ledger always covers the stored sessions, no subtraction of a release
  goes below zero, and no node is allocated more than 100 % CPU.
-/

namespace TensorGrid.Scheduler

open Rust

/-! ## Interleaved sections -/

/-- Where a call is: the section it enters next, or what it returned. -/
inductive Proc
  | reserving (request : ScheduleRequest) (selectedNodes : List NodeId)
  | storing (request : ScheduleRequest) (selectedNodes : List NodeId)
  | scheduled (outcome : Outcome ScheduleError ScheduledSession)
  | removing (sessionId : SessionId)
  | freeing (sessionId : SessionId) (session : ScheduledSession)
  | released (outcome : Outcome ScheduleError Unit)

/-- The scheduler, the call that holds the write lock of `sessions` between two of its sections,
and the calls made so far. -/
structure Concurrent where
  scheduler : Scheduler
  sessionsLock : Option Nat
  procs : List Proc

def Concurrent.init (cluster : LogicalCluster) : Concurrent := ⟨new cluster, none, []⟩

/-- `schedule` up to its first section. -/
def Proc.schedule (cluster : LogicalCluster) (request : ScheduleRequest) : Proc :=
  match plan request cluster with
  | .ok selectedNodes => .reserving request selectedNodes
  | .err e => .scheduled (.err e)
  | .panic => .scheduled .panic

/-- The next section of the call `pid`, if it can get its lock. -/
def Proc.run (sessionsLock : Option Nat) (pid : Nat) (visit : HashMap.Visit NodeId ResourceAllocation)
    (now : DateTime) (s : Scheduler) : Proc → Option (Proc × Scheduler × Option Nat)
  | .reserving request selectedNodes =>
    let (reserved, nodeAllocations) := reserveResources visit request.sessionId
      (calculateAllocations selectedNodes) s.nodeAllocations
    let s := { s with nodeAllocations }
    match reserved with
    | .ok () => some (.storing request selectedNodes, s, sessionsLock)
    | .err e => some (.scheduled (.err e), s, sessionsLock)
    | .panic => some (.scheduled .panic, s, sessionsLock)
  | .storing request selectedNodes =>
    if sessionsLock.isSome then none else
    let session := mkSession request s.cluster selectedNodes now
    some (.scheduled (.ok session), s.storeSession session, none)
  | .removing sessionId =>
    if sessionsLock.isSome then none else
    match s.sessions.lookup sessionId with
    | none => some (.released (.err .sessionNotFound), s, none)
    -- the guard on `sessions` lives on while the call waits for `node_allocations`
    | some session => some (.freeing sessionId session, s.takeSession sessionId, some pid)
  | .freeing sessionId session =>
    some (.released (.ok ()), s.freeSession visit sessionId session, none)
  | .scheduled _ | .released _ => none

inductive Label
  | schedule (request : ScheduleRequest)
  | releaseSession (sessionId : SessionId)
  | run (pid : Nat) (visit : HashMap.Visit NodeId ResourceAllocation) (now : DateTime)

def Concurrent.step (t : Concurrent) : Label → Option Concurrent
  | .schedule request =>
    some { t with procs := t.procs ++ [Proc.schedule t.scheduler.cluster request] }
  | .releaseSession sessionId => some { t with procs := t.procs ++ [.removing sessionId] }
  | .run pid visit now => do
    let proc ← t.procs[pid]?
    let (proc, scheduler, sessionsLock) ← proc.run t.sessionsLock pid visit now t.scheduler
    some { scheduler, sessionsLock, procs := t.procs.set pid proc }

/-! ## Outstanding reservations -/

/-- The call holds a reservation that no stored session accounts for. -/
def Proc.outstanding : Proc → Bool
  | .storing _ _ | .freeing _ _ => true
  | _ => false

/-- What a call in flight knows of the selected nodes. -/
def Proc.Fits (c : LogicalCluster) : Proc → Prop
  | .reserving _ nodes | .storing _ nodes => nodes = selected c ∧ nodes ≠ []
  | .freeing _ session => Shares (selected c) session.allocatedResources
  | _ => True

/-- The ledger accounts for the stored sessions and for the calls in flight. -/
def Concurrent.Accounted (c : LogicalCluster) (t : Concurrent) : Prop :=
  (∃ k ids, Scheduler.Accounted c t.scheduler (t.procs.countP Proc.outstanding) k ids) ∧
    ∀ p ∈ t.procs, p.Fits c

theorem Proc.schedule_fits (c : LogicalCluster) (request : ScheduleRequest) :
    (Proc.schedule c request).Fits c ∧ (Proc.schedule c request).outstanding = false := by
  rw [Proc.schedule]
  split
  next nodes hplan =>
    obtain ⟨hnodes, hne⟩ := plan_eq_ok hplan
    exact ⟨⟨hnodes, hne⟩, rfl⟩
  all_goals exact ⟨trivial, rfl⟩

/-- **One section**: it moves the outstanding reservations of the call as it moves the ledger. -/
theorem Proc.run_accounted {c : LogicalCluster} {s s' : Scheduler} {m k pid : Nat}
    {ids : List SessionId} {p p' : Proc} {lock lock' : Option Nat}
    {visit : HashMap.Visit NodeId ResourceAllocation} {now : DateTime}
    (h : Scheduler.Accounted c s (m + p.outstanding.toNat) k ids) (hfit : p.Fits c)
    (hrun : p.run lock pid visit now s = some (p', s', lock')) :
    p'.Fits c ∧ ∃ k ids, Scheduler.Accounted c s' (m + p'.outstanding.toNat) k ids := by
  cases p with
  | reserving request nodes =>
    obtain ⟨rfl, hne⟩ := hfit
    have hs := shares_calculateAllocations (selected c)
    by_cases hk : k < 3
    · obtain ⟨l, hres, hl⟩ := h.reserve hs visit request.sessionId hk
      rw [Proc.run, hres] at hrun
      cases hrun
      exact ⟨⟨rfl, hne⟩, _, _, hl⟩
    · obtain ⟨n, hres⟩ := h.reserve_err hs visit request.sessionId hk hne
      rw [Proc.run, hres] at hrun
      cases hrun
      exact ⟨trivial, _, _, h⟩
  | storing request nodes =>
    obtain ⟨rfl, -⟩ := hfit
    rw [Proc.run] at hrun
    split at hrun
    · cases hrun
    cases hrun
    exact ⟨trivial, _, _, h.store (shares_calculateAllocations _)⟩
  | removing id =>
    rw [Proc.run] at hrun
    split at hrun
    · cases hrun
    split at hrun
    next => cases hrun; exact ⟨trivial, _, _, h⟩
    next session hl => cases hrun; exact ⟨h.shares id session hl, _, _, h.take hl⟩
  | freeing id session =>
    cases hrun
    obtain ⟨j, -, hj⟩ := h.free hfit visit id rfl
    exact ⟨trivial, j, _, hj⟩
  | scheduled | released => cases hrun

theorem Concurrent.accounted_step (c : LogicalCluster) (t : Concurrent) (l : Label) (t' : Concurrent)
    (h : t.Accounted c) (hstep : t.step l = some t') : t'.Accounted c := by
  obtain ⟨⟨k, ids, hacc⟩, hfits⟩ := h
  have hnew (p : Proc) (hp : p.Fits c) (hout : p.outstanding = false) :
      Concurrent.Accounted c { t with procs := t.procs ++ [p] } :=
    ⟨⟨k, ids, by simpa [List.countP_append, hout] using hacc⟩, by
      simpa [or_imp, forall_and] using ⟨hfits, hp⟩⟩
  cases l with
  | schedule request =>
    cases hstep
    rw [hacc.cluster]
    obtain ⟨hp, hout⟩ := Proc.schedule_fits c request
    exact hnew _ hp hout
  | releaseSession id => cases hstep; exact hnew _ trivial rfl
  | run pid visit now =>
    obtain ⟨p, hp, hstep⟩ := Option.bind_eq_some_iff.1 hstep
    obtain ⟨⟨p', s', lock'⟩, hrun, hstep⟩ := Option.bind_eq_some_iff.1 hstep
    cases hstep
    obtain ⟨hpid, rfl⟩ := List.getElem?_eq_some_iff.1 hp
    have hmem := List.getElem_mem hpid
    -- the other calls' reservations
    obtain ⟨m, hm⟩ : ∃ m, t.procs.countP Proc.outstanding =
        m + t.procs[pid].outstanding.toNat := by
      refine Nat.exists_eq_add_of_le' ?_
      cases hout : t.procs[pid].outstanding with
      | false => exact Nat.zero_le _
      | true => exact List.countP_pos_iff.2 ⟨_, hmem, hout⟩
    rw [hm] at hacc
    obtain ⟨hfit, k', ids', hacc'⟩ := Proc.run_accounted hacc (hfits _ hmem) hrun
    refine ⟨⟨k', ids', ?_⟩, fun q hq => ?_⟩
    · rw [List.countP_set hpid, hm]
      convert hacc' using 1
      cases t.procs[pid].outstanding <;> cases p'.outstanding <;> rfl
    · rcases List.mem_or_eq_of_mem_set hq with hq | rfl
      · exact hfits q hq
      · exact hfit

theorem Concurrent.accounted_of_reachable {c : LogicalCluster} {t : Concurrent}
    (h : Lts.Reachable Concurrent.step (.init c) t) : t.Accounted c :=
  h.inv ⟨⟨0, [], accounted_new c⟩, fun p hp => by cases hp⟩ (accounted_step c)

/-! ## Safety of the releases -/

/-- The amounts recorded for `n` are at least the sums over the stored sessions. -/
structure Covered (s : Scheduler) (n : NodeId) : Prop where
  cpu : HashMap.total (fun _ => held (fun a => Binary32.toRat a.cpuPercent) n) s.sessions ≤
    Binary32.toRat (ledgerOf s.nodeAllocations n).allocatedCpuPercent
  ram : HashMap.total (fun _ => held (fun a => a.ramBytes.toNat) n) s.sessions ≤
    (ledgerOf s.nodeAllocations n).allocatedRamBytes.toNat
  vram : HashMap.total (fun _ => held (fun a => a.vramBytes.toNat) n) s.sessions ≤
    (ledgerOf s.nodeAllocations n).allocatedVramBytes.toNat

/-- Each subtraction of the loop of `release_session` has enough to subtract from: when the loop
reaches an allocation whose node has an entry, the entry holds at least the allocation. -/
def NoUnderflow (visit : HashMap.Visit NodeId ResourceAllocation) (id : SessionId)
    (allocations : HashMap NodeId ResourceAllocation) (ledger : HashMap NodeId NodeAllocation) :
    Prop :=
  ∀ done n a rest, visit.order allocations = done ++ ⟨n, a⟩ :: rest →
    ∀ entry, (releaseLoop id done ledger).lookup n = some entry →
      Binary32.toRat a.cpuPercent ≤ Binary32.toRat entry.allocatedCpuPercent ∧
        a.ramBytes ≤ entry.allocatedRamBytes ∧ a.vramBytes ≤ entry.allocatedVramBytes

section
variable {c : LogicalCluster} {s : Scheduler} {m k : Nat} {ids : List SessionId}

theorem Accounted.covered (h : Accounted c s m k ids) (n : NodeId) : Covered s n := by
  by_cases hn : n ∈ selected c
  · have hentry := h.ledgerOf_eq hn
    have hle : s.sessions.entries.length ≤ k := le_trans (Nat.le_add_right _ m) h.le_shares
    constructor
    · rw [hentry, toRat_entry h.le_three, h.total_held, if_pos hn, toRat_nodeShare]
      exact nsmul_le_nsmul_left (by decide +kernel) hle
    · rw [hentry, ram_entry h.le_three, h.total_held, if_pos hn]
      exact nsmul_le_nsmul_left (Nat.zero_le _) hle
    · rw [hentry, vram_entry h.le_three, h.total_held, if_pos hn]
      exact nsmul_le_nsmul_left (Nat.zero_le _) hle
  · have hc := h.conservedAt_zero hn
    exact ⟨hc.cpu.ge, hc.ram.ge, hc.vram.ge⟩

theorem Accounted.cpu_le (h : Accounted c s m k ids) (n : NodeId) :
    Binary32.toRat (ledgerOf s.nodeAllocations n).allocatedCpuPercent ≤ 100 := by
  by_cases hn : n ∈ selected c
  · rw [h.ledgerOf_eq hn, toRat_entry h.le_three]
    exact (nsmul_le_nsmul_left (by decide +kernel) h.le_three).trans (by decide +kernel)
  · rw [h.ledgerOf_zero hn]
    decide +kernel

theorem Accounted.noUnderflow (h : Accounted c s (m + 1) k ids)
    {allocations : HashMap NodeId ResourceAllocation} (hs : Shares (selected c) allocations)
    (visit : HashMap.Visit NodeId ResourceAllocation) (id : SessionId) :
    NoUnderflow visit id allocations s.nodeAllocations := by
  intro done n a rest horder e he
  obtain ⟨ks, hks, hnd, hmem⟩ := hs.visit visit
  rw [hks] at horder
  obtain ⟨done, rest, rfl, rfl, hrest⟩ := List.map_eq_append_iff.1 horder
  obtain ⟨n', rest, rfl, hn', -⟩ := List.map_eq_cons_iff.1 hrest
  cases hn'
  obtain ⟨hdone, -, hdisj⟩ := List.nodup_append.1 hnd
  -- the loop has not touched this node yet
  have hn : n ∉ done := fun hn => hdisj n hn n List.mem_cons_self rfl
  rw [lookup_releaseLoop id hdone, if_neg hn] at he
  have hsel : n ∈ selected c := (hmem n).1 (by simp)
  have hentry := h.ledgerOf_eq hsel
  rw [ledgerOf, he, Option.getD_some] at hentry
  subst hentry
  have hk : 1 ≤ k := le_trans (Nat.le_add_left 1 _) h.le_shares
  have hk3 := h.le_three
  refine ⟨?_, ?_, ?_⟩
  · rw [toRat_entry hk3, toRat_nodeShare]
    exact (one_nsmul (30 : Rat)).ge.trans (nsmul_le_nsmul_left (by decide +kernel) hk)
  · rw [UInt64.le_iff_toNat_le, ram_entry hk3]
    exact nsmul_le_nsmul_left (Nat.zero_le (4 * 1024 * 1024 * 1024)) hk
  · rw [UInt64.le_iff_toNat_le, vram_entry hk3]
    exact nsmul_le_nsmul_left (Nat.zero_le (2 * 1024 * 1024 * 1024)) hk

end

/-- **Releases never underflow**, in every state any interleaving of calls can reach: the ledger
covers the stored sessions, a call that has removed a session has enough recorded to give it back,
and no node is allocated more than 100 % CPU. -/
theorem release_safe (c : LogicalCluster) (t : Concurrent)
    (h : Lts.Reachable Concurrent.step (.init c) t) :
    (∀ n, Covered t.scheduler n) ∧
      (∀ id session, Proc.freeing id session ∈ t.procs → ∀ visit,
        NoUnderflow visit id session.allocatedResources t.scheduler.nodeAllocations) ∧
      ∀ n, Binary32.toRat (ledgerOf t.scheduler.nodeAllocations n).allocatedCpuPercent ≤ 100 := by
  obtain ⟨⟨k, ids, hacc⟩, hfits⟩ := Concurrent.accounted_of_reachable h
  refine ⟨hacc.covered, fun id session hmem visit => ?_, hacc.cpu_le⟩
  obtain ⟨m, hm⟩ : ∃ m, t.procs.countP Proc.outstanding = m + 1 :=
    Nat.exists_eq_add_of_le' (List.countP_pos_iff.2 ⟨_, hmem, rfl⟩)
  rw [hm] at hacc
  exact hacc.noUnderflow (hfits _ hmem) visit id

/-- Two calls schedule session 7, the second while the first is stored, and one releases it: the
release is about to give its share back. -/
theorem release_safe_replaced :
    ∃ t, Lts.exec Concurrent.step (.init smallCluster)
        [.schedule smallRequest, .schedule smallRequest, .run 0 (.stored _ _) ⟨0⟩,
          .run 0 (.stored _ _) ⟨0⟩, .run 1 (.stored _ _) ⟨0⟩, .releaseSession ⟨7⟩,
          .run 2 (.stored _ _) ⟨0⟩] = some t ∧
      t.sessionsLock = some 2 ∧ (∀ n, Covered t.scheduler n) ∧
      (∀ id session, Proc.freeing id session ∈ t.procs → ∀ visit,
        NoUnderflow visit id session.allocatedResources t.scheduler.nodeAllocations) ∧
      ∀ n, Binary32.toRat (ledgerOf t.scheduler.nodeAllocations n).allocatedCpuPercent ≤ 100 := by
  have hrun : ((Lts.exec Concurrent.step (.init smallCluster)
      [.schedule smallRequest, .schedule smallRequest, .run 0 (.stored _ _) ⟨0⟩,
        .run 0 (.stored _ _) ⟨0⟩, .run 1 (.stored _ _) ⟨0⟩, .releaseSession ⟨7⟩,
        .run 2 (.stored _ _) ⟨0⟩]).map (·.sessionsLock)) = some (some 2) := by decide +kernel
  obtain ⟨t, ht, hlock⟩ := Option.map_eq_some_iff.1 hrun
  exact ⟨t, ht, hlock, release_safe smallCluster t ⟨_, ht⟩⟩

/-! ## Calls run one after the other -/

theorem Concurrent.step_last {s s' : Scheduler} {lock lock' : Option Nat} {procs : List Proc}
    {p p' : Proc} (visit : HashMap.Visit NodeId ResourceAllocation) (now : DateTime)
    (h : p.run lock procs.length visit now s = some (p', s', lock')) :
    Concurrent.step ⟨s, lock, procs ++ [p]⟩ (.run procs.length visit now) =
      some ⟨s', lock', procs ++ [p']⟩ := by
  simp [Concurrent.step, h]

/-- The sections of one `schedule`, with nothing in between, make the complete call. -/
theorem reachable_schedule (s : Scheduler) (procs : List Proc) (request : ScheduleRequest)
    (visit : HashMap.Visit NodeId ResourceAllocation) (now : DateTime) :
    Lts.Reachable Concurrent.step ⟨s, none, procs⟩ ⟨(s.schedule request visit now).2, none,
      procs ++ [.scheduled (s.schedule request visit now).1]⟩ := by
  have hstart := (Lts.Reachable.refl _).next
    (show Concurrent.step ⟨s, none, procs⟩ (.schedule request) = some _ from rfl)
  rw [Proc.schedule] at hstart
  rw [schedule]
  cases hp : plan request s.cluster with
  | err e => simpa only [hp] using hstart
  | panic => simpa only [hp] using hstart
  | ok nodes =>
    simp only [hp] at hstart
    cases hr : reserveResources visit request.sessionId (calculateAllocations nodes)
      s.nodeAllocations with
    | mk reserved l =>
    simp only [hr]
    cases reserved with
    | err e =>
      exact hstart.next (Concurrent.step_last visit now (by rw [Proc.run, hr]))
    | panic =>
      exact hstart.next (Concurrent.step_last visit now (by rw [Proc.run, hr]))
    | ok =>
      have hreserved := hstart.next
        (Concurrent.step_last visit now (by rw [Proc.run, hr]))
      exact hreserved.next (Concurrent.step_last visit now rfl)

/-- The sections of one `release_session`, with nothing in between, make the complete call. -/
theorem reachable_releaseSession (s : Scheduler) (procs : List Proc) (id : SessionId)
    (visit : HashMap.Visit NodeId ResourceAllocation) :
    Lts.Reachable Concurrent.step ⟨s, none, procs⟩ ⟨(s.releaseSession id visit).2, none,
      procs ++ [.released (s.releaseSession id visit).1]⟩ := by
  have hstart := (Lts.Reachable.refl _).next
    (show Concurrent.step ⟨s, none, procs⟩ (.releaseSession id) = some _ from rfl)
  rw [releaseSession]
  cases hl : s.sessions.lookup id with
  | none =>
    exact hstart.next (Concurrent.step_last visit ⟨0⟩ (by simp [Proc.run, hl]))
  | some session =>
    have htaken := hstart.next
      (Concurrent.step_last visit ⟨0⟩ (show Proc.run none procs.length visit ⟨0⟩ s (.removing id) =
        some (.freeing id session, s.takeSession id, some procs.length) by simp [Proc.run, hl]))
    exact htaken.next (Concurrent.step_last visit ⟨0⟩ rfl)

/-- Complete calls are one way to interleave the sections. -/
theorem Concurrent.reachable_of_calls {c : LogicalCluster} {s : Scheduler}
    (h : Lts.Reachable Scheduler.step (new c) s) :
    ∃ procs, Lts.Reachable Concurrent.step (.init c) ⟨s, none, procs⟩ := by
  refine h.inv (I := fun s => ∃ procs, Lts.Reachable Concurrent.step (.init c) ⟨s, none, procs⟩)
    ⟨[], .refl _⟩ ?_
  rintro s call s' ⟨procs, hs⟩ hstep
  cases hstep
  cases call with
  | schedule request visit now =>
    exact ⟨_, hs.trans (reachable_schedule s procs request visit now)⟩
  | releaseSession id visit => exact ⟨_, hs.trans (reachable_releaseSession s procs id visit)⟩

end TensorGrid.Scheduler
