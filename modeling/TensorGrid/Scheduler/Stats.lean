import TensorGrid.Scheduler.Concurrent

/-!
# Statistics

`get_stats` adds up the ledger. Whatever the interleaving, the sums are those of a number of equal
shares on every selected node, enough for the stored sessions and for the calls between two of their
sections, and three at most (`getStats_of_reachable`); no addition is rounded and none wraps. The
sums are what the stored sessions hold exactly along the runs in which no request is admitted under
the id of a stored session (`always_statsExact_iff`).

`get_stats` reads `sessions` and then, under both locks, the ledger. Meanwhile no session can come
or go, so what it returns is that of the state in which it reads the ledger.
-/

namespace TensorGrid

open Rust

structure SchedulerStats where
  activeSessions : Nat
  totalAllocatedCpu : Float32
  totalAllocatedRam : UInt64
  totalAllocatedVram : UInt64
deriving DecidableEq, Repr

namespace Scheduler

/-- A sum of `f32` starts from `-0.0`; the sums of `u64` wrap, as in a release build. -/
def getStats (s : Scheduler) : SchedulerStats :=
  let nodeAllocations := s.nodeAllocations.entries.map (·.2)
  { activeSessions := s.sessions.entries.length
    totalAllocatedCpu := (nodeAllocations.map (·.allocatedCpuPercent)).foldl (· + ·) (-0.0)
    totalAllocatedRam := (nodeAllocations.map (·.allocatedRamBytes)).sum
    totalAllocatedVram := (nodeAllocations.map (·.allocatedVramBytes)).sum }

/-- The sums are those of `n` shares. -/
structure OfShares (stats : SchedulerStats) (n : Nat) : Prop where
  cpu : Binary32.toRat stats.totalAllocatedCpu = n • (30 : Rat)
  ram : stats.totalAllocatedRam.toNat = n • (4 * 1024 * 1024 * 1024)
  vram : stats.totalAllocatedVram.toNat = n • (2 * 1024 * 1024 * 1024)

/-- What the stored sessions hold on all nodes, measured by `f`. -/
def heldTotal {M : Type} [AddCommMonoid M] (f : ResourceAllocation → M) (s : Scheduler) : M :=
  HashMap.total (fun _ session => HashMap.total (fun _ a => f a) session.allocatedResources)
    s.sessions

/-- The sums are what the stored sessions hold. -/
structure StatsExact (s : Scheduler) : Prop where
  cpu : Binary32.toRat s.getStats.totalAllocatedCpu =
    heldTotal (fun a => Binary32.toRat a.cpuPercent) s
  ram : s.getStats.totalAllocatedRam.toNat = heldTotal (fun a => a.ramBytes.toNat) s
  vram : s.getStats.totalAllocatedVram.toNat = heldTotal (fun a => a.vramBytes.toNat) s

/-! ## Selected nodes -/

theorem nodup_nodeScores (c : LogicalCluster) : ((nodeScores c).map (·.1)).Nodup := by
  unfold nodeScores
  rw [List.map_map]
  exact (List.filter_sublist.map _).nodup c.nodes.keys_nodup

/-- At most three nodes are selected, each once. -/
theorem selected_spec (c : LogicalCluster) : (selected c).Nodup ∧ (selected c).length ≤ 3 := by
  unfold selected selectNodes
  split
  · rename_i nodes hnodes
    simp only at hnodes
    split at hnodes
    · cases hnodes
    · cases hnodes
      constructor
      · refine ((List.take_sublist _ _).map _).nodup ?_
        exact ((List.perm_insertionSort _ _).map _).nodup_iff.2 (nodup_nodeScores c)
      · rw [List.length_map]
        exact List.length_take_le _ _
  · exact ⟨List.nodup_nil, by simp⟩

/-! ## The ledger as a list -/

theorem length_entries {K V : Type} [DecidableEq K] {m : HashMap K V} (ks : List K)
    (hks : ks.Nodup) (h : ∀ k, k ∈ m ↔ k ∈ ks) : m.entries.length = ks.length := by
  have hperm := (List.perm_ext_iff_of_nodup m.keys_nodup hks).2 fun k => h k
  exact (List.length_map _).symm.trans hperm.length_eq

theorem getStats_replicate {s : Scheduler} {n k : Nat} {ids : List SessionId} (hn : n ≤ 3)
    (hk : k ≤ 3) (h : s.nodeAllocations.entries.map (·.2) = List.replicate n (entry k ids)) :
    OfShares s.getStats (n * k) := by
  have hcpu : ∀ n < 4, ∀ k < 4, Binary32.toRat ((List.replicate n (Float32.ofNat (30 * k))).foldl
      (· + ·) (-0.0)) = (n * k) • (30 : Rat) := by decide +kernel
  have hram : ∀ n < 4, ∀ k < 4, (List.replicate n (UInt64.ofNat k *
      (4 * 1024 * 1024 * 1024))).sum.toNat = (n * k) • (4 * 1024 * 1024 * 1024) := by
    decide +kernel
  have hvram : ∀ n < 4, ∀ k < 4, (List.replicate n (UInt64.ofNat k *
      (2 * 1024 * 1024 * 1024))).sum.toNat = (n * k) • (2 * 1024 * 1024 * 1024) := by
    decide +kernel
  constructor
  · simp only [getStats, h, List.map_replicate]
    exact hcpu n (by omega) k (by omega)
  · simp only [getStats, h, List.map_replicate]
    exact hram n (by omega) k (by omega)
  · simp only [getStats, h, List.map_replicate]
    exact hvram n (by omega) k (by omega)

namespace Accounted

variable {c : LogicalCluster} {s : Scheduler} {m k : Nat} {ids : List SessionId}

/-- The ledger has an entry for each selected node, or no shares at all. -/
theorem ledger_replicate (h : Accounted c s m k ids) : ∃ n ≤ 3,
    s.nodeAllocations.entries.map (·.2) = List.replicate n (entry k ids) ∧
      n * k = (selected c).length * k := by
  obtain ⟨hnodup, hlen⟩ := selected_spec c
  obtain ⟨a, hu, ha⟩ := h.ledger
  have hreplicate : ∀ e ∈ s.nodeAllocations.entries, e.2 = entry k ids := by
    intro e he
    have hlookup := HashMap.mem_entries_iff.1 he
    rw [hu e.1] at hlookup
    split at hlookup
    · rw [← ha, hlookup, Option.getD_some]
    · cases hlookup
  have hmap : s.nodeAllocations.entries.map (·.2) =
      List.replicate s.nodeAllocations.entries.length (entry k ids) := by
    rw [List.map_congr_left hreplicate, List.map_const']
  cases a with
  | none =>
    have hempty : s.nodeAllocations.entries.length = 0 := by
      refine length_entries [] List.nodup_nil fun n => ?_
      rw [← AList.lookup_isSome, hu n]
      simp
    have hram := congrArg (fun a => a.allocatedRamBytes.toNat) (zero_eq_entry.symm.trans ha)
    simp only [ram_entry (Nat.zero_le 3), ram_entry h.le_three] at hram
    have hk : 0 = k := Nat.eq_of_mul_eq_mul_right (by decide) hram
    refine ⟨0, Nat.zero_le 3, ?_, by rw [← hk, Nat.mul_zero, Nat.mul_zero]⟩
    rw [hmap, hempty]
  | some a =>
    have hlength : s.nodeAllocations.entries.length = (selected c).length := by
      refine length_entries _ hnodup fun n => ?_
      rw [← AList.lookup_isSome, hu n]
      split <;> simp_all
    exact ⟨(selected c).length, hlen, hlength ▸ hmap, rfl⟩

/-- **The sums are those of equal shares on the selected nodes.** -/
theorem ofShares (h : Accounted c s m k ids) : OfShares s.getStats ((selected c).length * k) := by
  obtain ⟨n, hn, hledger, hnk⟩ := h.ledger_replicate
  rw [← hnk]
  exact getStats_replicate hn h.le_three hledger

theorem heldTotal_eq (h : Accounted c s m k ids) {M : Type} [AddCommMonoid M]
    (f : ResourceAllocation → M) (amount : M) (hf : ∀ n, f (nodeShare n) = amount) :
    heldTotal f s = ((selected c).length * s.sessions.entries.length) • amount := by
  obtain ⟨hnodup, -⟩ := selected_spec c
  have hsession : ∀ id session, s.sessions.lookup id = some session →
      HashMap.total (fun _ a => f a) session.allocatedResources =
        (selected c).length • amount := by
    intro id session hl
    have hs := h.shares id session hl
    rw [← length_entries _ hnodup hs.mem_iff]
    refine HashMap.total_const _ fun n a ha => ?_
    rw [hs n] at ha
    split at ha
    · cases ha
      exact hf n
    · cases ha
  rw [heldTotal, HashMap.total_const _ hsession, ← mul_nsmul]

theorem statsExact_iff (h : Accounted c s m k ids) :
    StatsExact s ↔ (selected c ≠ [] → k = s.sessions.entries.length) := by
  have hstats := h.ofShares
  have hcpu := h.heldTotal_eq (fun a => Binary32.toRat a.cpuPercent) _ toRat_nodeShare
  have hram := h.heldTotal_eq (fun a => a.ramBytes.toNat) (4 * 1024 * 1024 * 1024) fun n => rfl
  have hvram := h.heldTotal_eq (fun a => a.vramBytes.toNat) (2 * 1024 * 1024 * 1024) fun n => rfl
  constructor
  · intro hexact hne
    have hsum := hexact.ram
    rw [hstats.ram, hram, smul_eq_mul, smul_eq_mul] at hsum
    have hpos := List.length_pos_of_ne_nil hne
    exact Nat.eq_of_mul_eq_mul_left hpos (Nat.eq_of_mul_eq_mul_right (by decide) hsum)
  · intro hk
    have hshares : (selected c).length * k =
        (selected c).length * s.sessions.entries.length := by
      by_cases hne : selected c = []
      · simp [hne]
      · rw [hk hne]
    exact ⟨by rw [hstats.cpu, hcpu, hshares], by rw [hstats.ram, hram, hshares],
      by rw [hstats.vram, hvram, hshares]⟩

end Accounted

/-! ## Interleavings -/

/-- **The statistics in every state that calls can reach, however they interleave.** -/
theorem getStats_of_reachable (c : LogicalCluster) (t : Concurrent)
    (h : Lts.Reachable Concurrent.step (.init c) t) : ∃ k ≤ 3,
    t.scheduler.getStats.activeSessions + t.procs.countP Proc.outstanding ≤ k ∧
      OfShares t.scheduler.getStats ((selected c).length * k) ∧
      heldTotal (fun a => a.ramBytes.toNat) t.scheduler ≤
        t.scheduler.getStats.totalAllocatedRam.toNat := by
  obtain ⟨⟨k, ids, hacc⟩, -⟩ := Concurrent.accounted_of_reachable h
  have hshares := hacc.le_shares
  refine ⟨k, hacc.le_three, hshares, hacc.ofShares, ?_⟩
  rw [hacc.ofShares.ram, hacc.heldTotal_eq _ (4 * 1024 * 1024 * 1024) fun n => rfl]
  refine nsmul_le_nsmul_left (Nat.zero_le _) (Nat.mul_le_mul_left _ ?_)
  omega

/-- Two calls schedule session 7, and the second waits for the sessions when the first has returned:
two shares for one session. -/
theorem getStats_of_waiting : ∃ t, Lts.exec Concurrent.step (.init smallCluster)
      [.schedule smallRequest, .schedule smallRequest, .run 0 (.stored _ _) ⟨0⟩,
        .run 1 (.stored _ _) ⟨0⟩, .run 0 (.stored _ _) ⟨0⟩] = some t ∧
    t.scheduler.getStats.activeSessions = 1 ∧ ∃ k ≤ 3,
    t.scheduler.getStats.activeSessions + t.procs.countP Proc.outstanding ≤ k ∧
      OfShares t.scheduler.getStats ((selected smallCluster).length * k) ∧
      heldTotal (fun a => a.ramBytes.toNat) t.scheduler ≤
        t.scheduler.getStats.totalAllocatedRam.toNat := by
  have hrun : ((Lts.exec Concurrent.step (.init smallCluster)
      [.schedule smallRequest, .schedule smallRequest, .run 0 (.stored _ _) ⟨0⟩,
        .run 1 (.stored _ _) ⟨0⟩, .run 0 (.stored _ _) ⟨0⟩]).map
      (·.scheduler.getStats.activeSessions)) = some 1 := by decide +kernel
  obtain ⟨t, ht, hactive⟩ := Option.map_eq_some_iff.1 hrun
  exact ⟨t, ht, hactive, getStats_of_reachable smallCluster t ⟨_, ht⟩⟩

/-! ## Runs of complete calls -/

theorem statsExact_apply_iff {c : LogicalCluster} {s : Scheduler} {k : Nat} {ids : List SessionId}
    (h : Accounted c s 0 k ids) (hexact : StatsExact s) (call : Call) :
    StatsExact (s.apply call) ↔ NoReplacement s call := by
  rw [h.statsExact_iff] at hexact
  cases call with
  | schedule request visit now =>
    obtain ⟨hno, hs, -⟩ | ⟨hadm, hne, -, hsessions, hacc⟩ := schedule_cases h request visit now
    · rw [apply, hs, h.statsExact_iff]
      exact ⟨fun _ _ => hno, fun _ => hexact⟩
    have hk := hexact hne
    rw [apply, hacc.statsExact_iff, hsessions]
    constructor
    · -- replacing a session adds a share but no session
      intro hk' hmem
      have hlen := HashMap.length_insert_of_mem hmem (mkSession request c (selected c) now)
      have := hk' hne
      omega
    · intro hnew _
      have hfresh : request.sessionId ∉ s.sessions := fun hmem => hnew hmem hadm
      rw [HashMap.length_insert hfresh, hk]
  | releaseSession id visit =>
    obtain ⟨-, hs⟩ | ⟨hmem, hsessions, j, rfl, hacc⟩ := releaseSession_cases h id visit
    · rw [apply, hs, h.statsExact_iff]
      exact ⟨fun _ => trivial, fun _ => hexact⟩
    · rw [apply, hacc.statsExact_iff, hsessions]
      have hlen := HashMap.length_erase hmem
      refine ⟨fun _ => trivial, fun _ hne => ?_⟩
      have := hexact hne
      omega

/-- **The statistics are what the stored sessions hold exactly along the runs in which no request is
admitted under the id of a stored session.** -/
theorem always_statsExact_iff (c : LogicalCluster) (calls : List Call) :
    Lts.Always step StatsExact (new c) calls ↔ Lts.Meets step NoReplacement (new c) calls := by
  refine Lts.always_iff_meets (I := fun s => ∃ k ids, Accounted c s 0 k ids) (accounted_step c)
    (fun s call t h hexact hstep => ?_) ⟨0, [], accounted_new c⟩
    ((accounted_new c).statsExact_iff.2 fun _ => rfl)
  obtain ⟨k, ids, h⟩ := h
  cases hstep
  exact statsExact_apply_iff h hexact call

end Scheduler

end TensorGrid
