import TensorGrid.Scheduler.Concurrent

/-!
# The capacity of the nodes

Selection goes by scores, a share is a constant, and a reservation is only compared with 100 % CPU.

* `notOversubscribed_iff`: the cluster never takes more of a node than it has and allows exactly if
  no request can be admitted, or every selected node has room for three shares, which is how many
  100 % CPU leave (`reachable_shares`, `Accounted.le_three`).
* `schedule_of_room`: a selected node with room is enough for a request that passes admission, for
  all selected nodes are always equally full. A node that is not selected never helps
  (`fourNodes_insufficient`).
-/

namespace TensorGrid.Scheduler

open Rust

/-! ## Oversubscription -/

/-- The memory of the GPUs of a node. -/
def vramBytes (node : PhysicalNode) : Nat :=
  (node.capabilities.gpus.map (·.vramBytes.toNat)).sum

/-- The node has, and its permissions allow, what is allocated on it. -/
structure Covers (node : PhysicalNode) (a : NodeAllocation) : Prop where
  ram : a.allocatedRamBytes.toNat ≤ node.capabilities.memory.totalBytes.toNat
  vram : a.allocatedVramBytes.toNat ≤ vramBytes node
  cpu : Binary32.toRat a.allocatedCpuPercent ≤ node.permissions.maxCpuPercent.toNat

def NotOversubscribed (s : Scheduler) : Prop :=
  ∀ n node, s.cluster.nodes.lookup n = some node → Covers node (ledgerOf s.nodeAllocations n)

/-- Three shares: 12 GiB of memory, 6 GiB of GPU memory, 90 % CPU. -/
structure HoldsThree (node : PhysicalNode) : Prop where
  ram : 3 * (4 * 1024 * 1024 * 1024) ≤ node.capabilities.memory.totalBytes.toNat
  vram : 3 * (2 * 1024 * 1024 * 1024) ≤ vramBytes node
  cpu : 3 * 30 ≤ node.permissions.maxCpuPercent.toNat

theorem covers_entry {k : Nat} (hk : k ≤ 3) {node : PhysicalNode} {ids : List SessionId} :
    Covers node (entry k ids) ↔
      k * (4 * 1024 * 1024 * 1024) ≤ node.capabilities.memory.totalBytes.toNat ∧
      k * (2 * 1024 * 1024 * 1024) ≤ vramBytes node ∧
      k * 30 ≤ node.permissions.maxCpuPercent.toNat := by
  have hcpu : k • (30 : ℚ) ≤ node.permissions.maxCpuPercent.toNat ↔
      k * 30 ≤ node.permissions.maxCpuPercent.toNat := by
    rw [nsmul_eq_mul]
    exact_mod_cast Iff.rfl
  constructor
  · rintro ⟨hram, hvram, hpercent⟩
    rw [ram_entry hk, smul_eq_mul] at hram
    rw [vram_entry hk, smul_eq_mul] at hvram
    rw [toRat_entry hk] at hpercent
    exact ⟨hram, hvram, hcpu.1 hpercent⟩
  · rintro ⟨hram, hvram, hpercent⟩
    refine ⟨?_, ?_, ?_⟩
    · rw [ram_entry hk, smul_eq_mul]
      exact hram
    · rw [vram_entry hk, smul_eq_mul]
      exact hvram
    · rw [toRat_entry hk]
      exact hcpu.2 hpercent

theorem covers_zero (node : PhysicalNode) : Covers node NodeAllocation.zero := by
  rw [zero_eq_entry, covers_entry (Nat.zero_le 3)]
  simp

theorem HoldsThree.covers {node : PhysicalNode} (h : HoldsThree node) {k : Nat} (hk : k ≤ 3)
    (ids : List SessionId) : Covers node (entry k ids) :=
  (covers_entry hk).2 ⟨(Nat.mul_le_mul_right _ hk).trans h.ram,
    (Nat.mul_le_mul_right _ hk).trans h.vram, (Nat.mul_le_mul_right _ hk).trans h.cpu⟩

theorem plan_of_admission {request : ScheduleRequest} {c : LogicalCluster}
    (hadm : checkAdmission request c = true) (hne : selected c ≠ []) :
    plan request c = .ok (selected c) := by
  unfold selected at hne ⊢
  rw [plan, hadm]
  cases hs : selectNodes c with
  | ok nodes =>
    rw [hs] at hne
    cases nodes with
    | nil => exact absurd rfl hne
    | cons n nodes => rfl
  | err e => exact absurd (by rw [hs]) hne
  | panic => exact absurd (by rw [hs]) hne

/-- Up to three requests are scheduled one after the other. -/
theorem reachable_shares {c : LogicalCluster} {request : ScheduleRequest}
    (hplan : plan request c = .ok (selected c)) {k : Nat} (hk : k ≤ 3) :
    ∃ s ids, Lts.Reachable step (new c) s ∧ Accounted c s 0 k ids := by
  induction k with
  | zero => exact ⟨new c, [], .refl _, accounted_new c⟩
  | succ k ih =>
    obtain ⟨s, ids, hs, hacc⟩ := ih (Nat.le_of_succ_le hk)
    have hadm := (hacc.admitted_iff request).2 ⟨hplan, hk⟩
    obtain ⟨hno, -⟩ | ⟨-, -, -, -, hacc'⟩ := schedule_cases hacc request (.stored _ _) ⟨0⟩
    · exact absurd hadm hno
    · exact ⟨_, _, hs.next (show step s (.schedule request (.stored _ _) ⟨0⟩) = some _ from rfl),
        hacc'⟩

/-! ## Clusters that admit nothing -/

/-- The call holds nothing and will not reserve anything. -/
def Proc.Idle : Proc → Prop
  | .reserving _ _ | .storing _ _ | .freeing _ _ => False
  | .scheduled _ | .removing _ | .released _ => True

structure Concurrent.Idle (c : LogicalCluster) (t : Concurrent) : Prop where
  cluster : t.scheduler.cluster = c
  sessions : t.scheduler.sessions = ∅
  ledger : t.scheduler.nodeAllocations = ∅
  procs : ∀ p ∈ t.procs, p.Idle

theorem Concurrent.idle_step {c : LogicalCluster}
    (hplan : ∀ request nodes, plan request c ≠ .ok nodes)
    (t : Concurrent) (l : Label) (t' : Concurrent) (h : t.Idle c) (hstep : t.step l = some t') :
    t'.Idle c := by
  have hnew (p : Proc) (hp : p.Idle) : Concurrent.Idle c { t with procs := t.procs ++ [p] } :=
    ⟨h.cluster, h.sessions, h.ledger, by simpa [or_imp, forall_and] using ⟨h.procs, hp⟩⟩
  cases l with
  | schedule request =>
    cases hstep
    refine hnew _ ?_
    rw [h.cluster, Proc.schedule]
    split
    · next nodes hok => exact absurd hok (hplan request nodes)
    · trivial
    · trivial
  | releaseSession id =>
    cases hstep
    exact hnew _ trivial
  | run pid visit now =>
    obtain ⟨p, hp, hstep⟩ := Option.bind_eq_some_iff.1 hstep
    obtain ⟨⟨p', s', lock'⟩, hrun, hstep⟩ := Option.bind_eq_some_iff.1 hstep
    cases hstep
    have hidle := h.procs p (List.mem_of_getElem? hp)
    cases p with
    | removing id =>
      rw [Proc.run, h.sessions] at hrun
      split at hrun
      · cases hrun
      -- no session is stored
      cases hrun
      refine ⟨h.cluster, h.sessions, h.ledger, fun q hq => ?_⟩
      obtain hq | rfl := List.mem_or_eq_of_mem_set hq
      · exact h.procs q hq
      · trivial
    | scheduled | released => cases hrun
    | reserving | storing | freeing => exact absurd hidle id

theorem Concurrent.idle_of_reachable {c : LogicalCluster} {t : Concurrent}
    (hplan : ∀ request nodes, plan request c ≠ .ok nodes)
    (h : Lts.Reachable Concurrent.step (.init c) t) : t.Idle c :=
  h.inv ⟨rfl, rfl, rfl, fun p hp => by cases hp⟩ (idle_step hplan)

/-- A request for an empty context is admitted unless a total is zero, and then none is. -/
theorem plan_ne_ok {c : LogicalCluster} (h : c.logicalResources.hostMemoryBytes = 0 ∨
    c.logicalResources.deviceMemoryBytes = 0) (request : ScheduleRequest) (nodes : List NodeId) :
    plan request c ≠ .ok nodes := by
  have hadm : checkAdmission request c = false := by
    obtain h | h := h <;> simp [checkAdmission, h]
  simp [plan, hadm]

/-! ## The theorem -/

/-- **No node is ever oversubscribed** exactly if nothing can be admitted or three shares fit on
every selected node. -/
theorem notOversubscribed_iff (c : LogicalCluster) :
    (∀ t, Lts.Reachable Concurrent.step (.init c) t → NotOversubscribed t.scheduler) ↔
      c.logicalResources.hostMemoryBytes = 0 ∨ c.logicalResources.deviceMemoryBytes = 0 ∨
        ∀ n ∈ selected c, ∀ node, c.nodes.lookup n = some node → HoldsThree node := by
  constructor
  · intro h
    refine or_iff_not_imp_left.2 fun hram => or_iff_not_imp_left.2 fun hvram n hn node hnode => ?_
    have hadm : checkAdmission ⟨⟨0⟩, "", 0, 0, .normal⟩ c = true := by
      have hram' := UInt64.pos_iff_ne_zero.2 hram
      have hvram' := UInt64.pos_iff_ne_zero.2 hvram
      simp [checkAdmission, hram', hvram']
    have hplan := plan_of_admission hadm (List.ne_nil_of_mem hn)
    obtain ⟨s, ids, hs, hacc⟩ := reachable_shares hplan le_rfl
    obtain ⟨procs, ht⟩ := Concurrent.reachable_of_calls hs
    have hcovers := h _ ht n node (by rw [hacc.cluster, hnode])
    rw [hacc.ledgerOf_eq hn, covers_entry le_rfl] at hcovers
    exact ⟨hcovers.1, hcovers.2.1, hcovers.2.2⟩
  · intro h t ht n node hnode
    obtain ⟨⟨k, ids, hacc⟩, -⟩ := Concurrent.accounted_of_reachable ht
    by_cases hn : n ∈ selected c
    · obtain hzero | hzero | hholds := h
      · rw [(Concurrent.idle_of_reachable (plan_ne_ok (.inl hzero)) ht).ledger]
        exact covers_zero node
      · rw [(Concurrent.idle_of_reachable (plan_ne_ok (.inr hzero)) ht).ledger]
        exact covers_zero node
      · rw [hacc.ledgerOf_eq hn]
        rw [hacc.cluster] at hnode
        exact (hholds n hn node hnode).covers hacc.le_three ids
    · rw [hacc.ledgerOf_zero hn]
      exact covers_zero node

/-- One session on a node without a GPU. -/
theorem smallCluster_oversubscribed :
    ¬ ∀ t, Lts.Reachable Concurrent.step (.init smallCluster) t →
      NotOversubscribed t.scheduler := by
  intro h
  obtain ⟨procs, ht⟩ := Concurrent.reachable_of_calls (c := smallCluster)
    (s := (new smallCluster).apply smallCall) ⟨[smallCall], rfl⟩
  have hcovers : Covers (smallNode ⟨1⟩ ⟨0⟩)
      (ledgerOf ((new smallCluster).apply smallCall).nodeAllocations ⟨1⟩) := h _ ht ⟨1⟩ _ rfl
  exact absurd hcovers.vram (by decide +kernel)

/-! ## Idle capacity -/

/-- **A selected node with room is enough**: then a request that passes admission is scheduled, in
every state any interleaving of calls can reach. -/
theorem schedule_of_room (c : LogicalCluster) (t : Concurrent)
    (ht : Lts.Reachable Concurrent.step (.init c) t) (request : ScheduleRequest)
    (hadm : checkAdmission request c = true) (n : NodeId) (hn : n ∈ selected c)
    (hroom : ¬ (ledgerOf t.scheduler.nodeAllocations n).allocatedCpuPercent + 30.0 > 100.0)
    (visit : HashMap.Visit NodeId ResourceAllocation) (now : DateTime) :
    (∃ session, (t.scheduler.schedule request visit now).1 = .ok session) ∧
      ∀ m, (t.scheduler.schedule request visit now).1 ≠ .err (.insufficientResources m) := by
  obtain ⟨⟨k, ids, hacc⟩, -⟩ := Concurrent.accounted_of_reachable ht
  have hplan := plan_of_admission hadm (List.ne_nil_of_mem hn)
  have hk : k < 3 := by
    rw [hacc.ledgerOf_eq hn] at hroom
    exact lt_of_le_of_ne hacc.le_three fun h3 => hroom ((full_entry hacc.le_three ids).2 h3)
  obtain ⟨l, hres, -⟩ := hacc.reserve (shares_calculateAllocations _) visit request.sessionId hk
  have hok : (t.scheduler.schedule request visit now).1 =
      .ok (mkSession request c (selected c) now) := by
    rw [schedule, hacc.cluster, hplan]
    simp only [hres]
  refine ⟨⟨_, hok⟩, fun m hinsufficient => ?_⟩
  cases hok.symm.trans hinsufficient

/-- The third request on a cluster of one node. -/
theorem schedule_of_room_small :
    let s := ((new smallCluster).apply smallCall).apply smallCall
    (∃ session, (s.schedule smallRequest (.stored _ _) ⟨0⟩).1 = .ok session) ∧
      ∀ m, (s.schedule smallRequest (.stored _ _) ⟨0⟩).1 ≠ .err (.insufficientResources m) := by
  intro s
  obtain ⟨procs, ht⟩ := Concurrent.reachable_of_calls (c := smallCluster) (s := s)
    ⟨[smallCall, smallCall], rfl⟩
  have hroom : ¬ (ledgerOf s.nodeAllocations ⟨1⟩).allocatedCpuPercent + 30.0 > 100.0 := by
    decide +kernel
  exact schedule_of_room smallCluster _ ht smallRequest (by decide +kernel) ⟨1⟩ (by decide +kernel)
    hroom _ _

/-- Four nodes like the one of `smallCluster`. -/
def fourNodes : LogicalCluster :=
  { smallCluster with
    nodes := [⟨4⟩, ⟨3⟩, ⟨2⟩].foldl (fun nodes n => nodes.insert n (smallNode n ⟨0⟩))
      smallCluster.nodes }

/-- The fourth request: three nodes are full, the node that is not among the three best is empty. -/
theorem fourNodes_insufficient :
    let s := (((new fourNodes).apply smallCall).apply smallCall).apply smallCall
    Lts.Reachable step (new fourNodes) s ∧ checkAdmission smallRequest fourNodes = true ∧
      (∃ n node, fourNodes.nodes.lookup n = some node ∧ node.status = .healthy ∧
        ¬ (ledgerOf s.nodeAllocations n).allocatedCpuPercent + 30.0 > 100.0) ∧
      ∃ m, (s.schedule smallRequest (.stored _ _) ⟨0⟩).1 = .err (.insufficientResources m) := by
  intro s
  refine ⟨⟨[smallCall, smallCall, smallCall], rfl⟩, by decide +kernel,
    ⟨⟨1⟩, smallNode ⟨1⟩ ⟨0⟩, rfl, rfl, ?_⟩, ⟨4⟩, Outcome.err?_eq_some.1 ?_⟩
  · decide +kernel
  · decide +kernel

end TensorGrid.Scheduler
