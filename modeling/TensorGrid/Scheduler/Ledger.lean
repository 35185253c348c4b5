import TensorGrid.Scheduler.Model
import TensorGrid.Lib.Binary32

/-!
# What the ledger records

The cluster never changes, so every reservation takes the same share on the same nodes
(`selected`). Hence all selected nodes always have the same ledger entry: the entry of some number
`k ≤ 3` of shares (`Accounted`). The lemmas of this file say what each locked section of `schedule`
and `release_session` does to an accounted scheduler, with `m` the reservations that belong to no
stored session (made but not yet stored, or taken out but not yet given back).
-/

namespace TensorGrid.Scheduler

open Rust

/-! ## Selected nodes -/

/-- The nodes every successful call reserves on. -/
def selected (cluster : LogicalCluster) : List NodeId :=
  match selectNodes cluster with
  | .ok nodes => nodes
  | _ => []

theorem plan_eq_ok {request : ScheduleRequest} {cluster : LogicalCluster} {nodes : List NodeId}
    (h : plan request cluster = .ok nodes) : nodes = selected cluster ∧ nodes ≠ [] := by
  unfold plan at h
  split at h
  · cases h
  · obtain ⟨ns, hns, h⟩ := Outcome.bind_ok.1 h
    split at h
    · cases h
    next hne =>
      cases h
      exact ⟨by simp [selected, hns], by simpa using hne⟩

/-- The allocations map that gives each of `nodes` its share. -/
def Shares (nodes : List NodeId) (allocations : HashMap NodeId ResourceAllocation) : Prop :=
  ∀ n, allocations.lookup n = if n ∈ nodes then some (nodeShare n) else none

theorem shares_calculateAllocations (nodes : List NodeId) :
    Shares nodes (calculateAllocations nodes) := by
  have hfold : ∀ (ns : List NodeId) (m : HashMap NodeId ResourceAllocation) (n : NodeId),
      (ns.foldl (fun m id => m.insert id (nodeShare id)) m).lookup n =
        if n ∈ ns then some (nodeShare n) else m.lookup n := by
    intro ns
    induction ns with
    | nil => simp
    | cons id ns ih =>
      intro m n
      rw [List.foldl_cons, ih]
      by_cases hn : n ∈ ns
      · simp [hn]
      · by_cases hid : n = id
        · subst hid; simp [hn]
        · simp [hn, hid]
  intro n
  simpa [calculateAllocations] using hfold nodes ∅ n

theorem Shares.mem_iff {nodes : List NodeId} {allocations : HashMap NodeId ResourceAllocation}
    (h : Shares nodes allocations) (n : NodeId) : n ∈ allocations ↔ n ∈ nodes := by
  rw [← AList.lookup_isSome, h n]
  split <;> simp [*]

/-- A loop over shares visits each of the nodes once, in some order. -/
theorem Shares.visit {nodes : List NodeId} {allocations : HashMap NodeId ResourceAllocation}
    (h : Shares nodes allocations) (visit : HashMap.Visit NodeId ResourceAllocation) :
    ∃ ks : List NodeId, visit.order allocations = ks.map (fun n => ⟨n, nodeShare n⟩) ∧ ks.Nodup ∧
      ∀ n, n ∈ ks ↔ n ∈ nodes := by
  have hperm := visit.perm allocations
  refine ⟨(visit.order allocations).map (·.1), ?_, ?_, fun n => ?_⟩
  · rw [List.map_map]
    refine (List.map_id _).symm.trans (List.map_congr_left fun e he => ?_)
    obtain ⟨n, a⟩ := e
    have ha := HashMap.mem_entries_iff.1 (hperm.mem_iff.1 he)
    rw [h n] at ha
    split at ha
    · cases ha; rfl
    · cases ha
  · exact (hperm.map _).nodup_iff.2 allocations.keys_nodup
  · rw [(hperm.map _).mem_iff]
    exact h.mem_iff n

/-! ## Uniform ledgers -/

/-- The entry after reserving, respectively releasing, one share; it is the same on every node. -/
def addShare (id : SessionId) (a : NodeAllocation) : NodeAllocation := a.reserve id (nodeShare ⟨0⟩)
def dropShare (id : SessionId) (a : NodeAllocation) : NodeAllocation := a.release id (nodeShare ⟨0⟩)

theorem reserve_nodeShare (id : SessionId) (n : NodeId) :
    NodeAllocation.reserve id (nodeShare n) = addShare id := rfl

theorem release_nodeShare (id : SessionId) (n : NodeId) :
    NodeAllocation.release id (nodeShare n) = dropShare id := rfl

/-- There is no room for one more share. -/
def Full (a : NodeAllocation) : Prop :=
  a.allocatedCpuPercent + (30.0 : Float32) > 100.0

instance (a : NodeAllocation) : Decidable (Full a) := inferInstanceAs (Decidable (_ > _))

/-- All of `nodes` have the entry `a` (or none), the other nodes have no entry. -/
def Uniform (nodes : List NodeId) (ledger : HashMap NodeId NodeAllocation)
    (a : Option NodeAllocation) : Prop :=
  ∀ n, ledger.lookup n = if n ∈ nodes then a else none

theorem Uniform.lookup {nodes : List NodeId} {ledger : HashMap NodeId NodeAllocation}
    {a : Option NodeAllocation} (h : Uniform nodes ledger a) {n : NodeId} (hn : n ∈ nodes) :
    ledger.lookup n = a := by
  rw [h n, if_pos hn]

theorem Uniform.ledgerOf {nodes : List NodeId} {ledger : HashMap NodeId NodeAllocation}
    {a : Option NodeAllocation} (h : Uniform nodes ledger a) (n : NodeId) :
    ledgerOf ledger n = if n ∈ nodes then a.getD NodeAllocation.zero else NodeAllocation.zero := by
  rw [Scheduler.ledgerOf, h n]
  split <;> rfl

/-- Nodes with the same entry: the loop reserves on all of them. -/
theorem reserveLoop_room (id : SessionId) {a : Option NodeAllocation}
    (hroom : ¬ Full (a.getD NodeAllocation.zero)) {ks : List NodeId} (hnd : ks.Nodup)
    {ledger : HashMap NodeId NodeAllocation} (hl : ∀ k ∈ ks, ledger.lookup k = a) :
    ∃ ledger', reserveLoop id (ks.map fun n => ⟨n, nodeShare n⟩) ledger = (.ok (), ledger') ∧
      ∀ n, ledger'.lookup n = if n ∈ ks then some (addShare id (a.getD NodeAllocation.zero))
        else ledger.lookup n := by
  induction ks generalizing ledger with
  | nil => exact ⟨ledger, rfl, by simp⟩
  | cons k ks ih =>
    obtain ⟨hk, hnd⟩ := List.nodup_cons.1 hnd
    have hlk := hl k List.mem_cons_self
    have hrest : ∀ j ∈ ks, (ledger.upsert k NodeAllocation.zero
        (NodeAllocation.reserve id (nodeShare k))).lookup j = a := fun j hj => by
      rw [HashMap.lookup_upsert_ne (by rintro rfl; exact hk hj)]
      exact hl j (List.mem_cons_of_mem _ hj)
    obtain ⟨ledger', hrun, hlook⟩ := ih hnd hrest
    refine ⟨ledger', ?_, fun n => ?_⟩
    · rw [List.map_cons, reserveLoop, if_neg, hrun]
      rwa [Scheduler.ledgerOf, hlk]
    · rw [hlook]
      by_cases hn : n = k
      · subst hn
        simp [hk, hlk, reserve_nodeShare]
      · simp [hn]

/-- Nodes with the same full entry: the loop fails at the first and changes nothing. -/
theorem reserveLoop_full (id : SessionId) {a : NodeAllocation} (hfull : Full a) {ks : List NodeId}
    (hne : ks ≠ []) {ledger : HashMap NodeId NodeAllocation}
    (hl : ∀ k ∈ ks, ledger.lookup k = some a) :
    ∃ k, reserveLoop id (ks.map fun n => ⟨n, nodeShare n⟩) ledger =
      (.err (.insufficientResources k), ledger) := by
  cases ks with
  | nil => exact absurd rfl hne
  | cons k ks =>
    have hlk := hl k List.mem_cons_self
    refine ⟨k, ?_⟩
    rw [List.map_cons, reserveLoop, if_pos (by rwa [Scheduler.ledgerOf, hlk]),
      HashMap.upsert, if_pos (HashMap.mem_of_lookup hlk), HashMap.modify_id]

theorem lookup_releaseLoop (id : SessionId) {ks : List NodeId} (hnd : ks.Nodup)
    (ledger : HashMap NodeId NodeAllocation) (n : NodeId) :
    (releaseLoop id (ks.map fun n => ⟨n, nodeShare n⟩) ledger).lookup n =
      if n ∈ ks then (ledger.lookup n).map (dropShare id) else ledger.lookup n := by
  induction ks generalizing ledger with
  | nil => simp [releaseLoop]
  | cons k ks ih =>
    obtain ⟨hk, hnd⟩ := List.nodup_cons.1 hnd
    rw [List.map_cons, releaseLoop, List.foldl_cons, ← releaseLoop, ih hnd]
    by_cases hn : n = k
    · subst hn
      simp [hk, release_nodeShare]
    · simp [hn]

theorem not_full_zero : ¬ Full NodeAllocation.zero := by decide +kernel

section
variable {nodes : List NodeId} {ledger : HashMap NodeId NodeAllocation} {a : Option NodeAllocation}
  (hu : Uniform nodes ledger a) {allocations : HashMap NodeId ResourceAllocation}
  (hs : Shares nodes allocations) (visit : HashMap.Visit NodeId ResourceAllocation)
  (id : SessionId)
include hu hs

theorem Uniform.reserve_room (hroom : ¬ Full (a.getD NodeAllocation.zero)) :
    ∃ ledger', reserveResources visit id allocations ledger = (.ok (), ledger') ∧
      Uniform nodes ledger' (some (addShare id (a.getD NodeAllocation.zero))) := by
  obtain ⟨ks, horder, hnd, hmem⟩ := hs.visit visit
  obtain ⟨ledger', hrun, hlook⟩ :=
    reserveLoop_room id hroom hnd fun k hk => hu.lookup ((hmem k).1 hk)
  refine ⟨ledger', by rw [reserveResources, horder, hrun], fun n => ?_⟩
  rw [hlook, hu n]
  simp only [hmem]
  split <;> rfl

theorem Uniform.reserve_full (hne : nodes ≠ []) (hfull : Full (a.getD NodeAllocation.zero)) :
    ∃ k, reserveResources visit id allocations ledger =
      (.err (.insufficientResources k), ledger) := by
  obtain ⟨ks, horder, -, hmem⟩ := hs.visit visit
  -- the zero entry is not full, so the nodes do have an entry
  cases a with
  | none => exact absurd hfull not_full_zero
  | some a =>
    obtain ⟨n, hn⟩ := List.exists_mem_of_ne_nil _ hne
    rw [reserveResources, horder]
    exact reserveLoop_full id hfull (List.ne_nil_of_mem ((hmem n).2 hn))
      fun k hk => hu.lookup ((hmem k).1 hk)

theorem Uniform.release :
    Uniform nodes (releaseResources visit id allocations ledger) (a.map (dropShare id)) := by
  obtain ⟨ks, horder, hnd, hmem⟩ := hs.visit visit
  intro n
  rw [releaseResources, horder, lookup_releaseLoop id hnd, hu n]
  simp only [hmem]
  split <;> simp [*]

end

/-! ## The entry of `k` shares -/

/-- The entry after reserving `k` shares. -/
def entry (k : Nat) (ids : List SessionId) : NodeAllocation :=
  { allocatedCpuPercent := Float32.ofNat (30 * k)
    allocatedRamBytes := UInt64.ofNat k * (4 * 1024 * 1024 * 1024)
    allocatedVramBytes := UInt64.ofNat k * (2 * 1024 * 1024 * 1024)
    activeSessions := ids }

theorem zero_eq_entry : NodeAllocation.zero = entry 0 [] := by decide +kernel

/-- The fourth share would take the node over 100 %. -/
theorem full_entry {k : Nat} (hk : k ≤ 3) (ids : List SessionId) :
    Full (entry k ids) ↔ k = 3 := by
  have hfull : ∀ k < 4, Float32.ofNat (30 * k) + 30.0 > 100.0 ↔ k = 3 := by decide +kernel
  exact hfull k (by omega)

theorem addShare_entry {k : Nat} (hk : k < 3) (id : SessionId) (ids : List SessionId) :
    addShare id (entry k ids) = entry (k + 1) (ids ++ [id]) := by
  have hadd : ∀ k < 3, (entry k []).reserve ⟨0⟩ (nodeShare ⟨0⟩) = entry (k + 1) [⟨0⟩] := by
    decide +kernel
  obtain ⟨hcpu, hram, hvram, -⟩ := NodeAllocation.mk.inj (hadd k hk)
  exact NodeAllocation.mk.injEq .. ▸ ⟨hcpu, hram, hvram, rfl⟩

theorem dropShare_entry {k : Nat} (hk : k < 3) (id : SessionId) (ids : List SessionId) :
    dropShare id (entry (k + 1) ids) = entry k (ids.filter (· != id)) := by
  have hsub : ∀ k < 3, (entry (k + 1) []).release ⟨0⟩ (nodeShare ⟨0⟩) = entry k [] := by
    decide +kernel
  obtain ⟨hcpu, hram, hvram, -⟩ := NodeAllocation.mk.inj (hsub k hk)
  exact NodeAllocation.mk.injEq .. ▸ ⟨hcpu, hram, hvram, rfl⟩

theorem toRat_entry {k : Nat} (hk : k ≤ 3) (ids : List SessionId) :
    Binary32.toRat (entry k ids).allocatedCpuPercent = k • (30 : Rat) := by
  have hval : ∀ k < 4, Binary32.toRat (Float32.ofNat (30 * k)) = k • (30 : Rat) := by
    decide +kernel
  exact hval k (by omega)

theorem toRat_nodeShare (n : NodeId) : Binary32.toRat (nodeShare n).cpuPercent = 30 :=
  show Binary32.toRat 30.0 = 30 by decide +kernel

theorem ram_entry {k : Nat} (hk : k ≤ 3) (ids : List SessionId) :
    (entry k ids).allocatedRamBytes.toNat = k • (4 * 1024 * 1024 * 1024) := by
  have hval : ∀ k < 4, (entry k []).allocatedRamBytes.toNat = k • (4 * 1024 * 1024 * 1024) := by
    decide +kernel
  exact hval k (by omega)

theorem vram_entry {k : Nat} (hk : k ≤ 3) (ids : List SessionId) :
    (entry k ids).allocatedVramBytes.toNat = k • (2 * 1024 * 1024 * 1024) := by
  have hval : ∀ k < 4, (entry k []).allocatedVramBytes.toNat = k • (2 * 1024 * 1024 * 1024) := by
    decide +kernel
  exact hval k (by omega)

/-! ## Accounted schedulers -/

/-- The ledger of `s` is the one of `k` shares, made for `ids`, and `k` covers the stored sessions
and `m` further reservations. -/
structure Accounted (c : LogicalCluster) (s : Scheduler) (m k : Nat) (ids : List SessionId) :
    Prop where
  cluster : s.cluster = c
  shares : ∀ id session, s.sessions.lookup id = some session →
    Shares (selected c) session.allocatedResources
  ledger : ∃ a, Uniform (selected c) s.nodeAllocations a ∧ a.getD NodeAllocation.zero = entry k ids
  le_three : k ≤ 3
  le_shares : s.sessions.entries.length + m ≤ k

theorem accounted_new (c : LogicalCluster) : Accounted c (new c) 0 0 [] where
  cluster := rfl
  shares _ _ h := by simp [new] at h
  ledger := ⟨none, fun n => by simp [new], zero_eq_entry⟩
  le_three := by omega
  le_shares := by simp [new]

namespace Accounted

variable {c : LogicalCluster} {s : Scheduler} {m k : Nat} {ids : List SessionId}

theorem ledgerOf_eq (h : Accounted c s m k ids) {n : NodeId} (hn : n ∈ selected c) :
    ledgerOf s.nodeAllocations n = entry k ids := by
  obtain ⟨a, hu, ha⟩ := h.ledger
  rw [hu.ledgerOf, if_pos hn, ha]

theorem ledgerOf_zero (h : Accounted c s m k ids) {n : NodeId} (hn : n ∉ selected c) :
    ledgerOf s.nodeAllocations n = NodeAllocation.zero := by
  obtain ⟨a, hu, -⟩ := h.ledger
  rw [hu.ledgerOf, if_neg hn]

section
variable {allocations : HashMap NodeId ResourceAllocation}
  (hs : Shares (selected c) allocations) (visit : HashMap.Visit NodeId ResourceAllocation)
  (id : SessionId)
include hs

theorem reserve (h : Accounted c s m k ids) (hk : k < 3) :
    ∃ nodeAllocations, reserveResources visit id allocations s.nodeAllocations =
      (.ok (), nodeAllocations) ∧
        Accounted c { s with nodeAllocations } (m + 1) (k + 1) (ids ++ [id]) := by
  obtain ⟨a, hu, ha⟩ := h.ledger
  have hroom : ¬ Full (a.getD NodeAllocation.zero) := by
    rw [ha, full_entry h.le_three]
    omega
  obtain ⟨l, hrun, hl⟩ := hu.reserve_room hs visit id hroom
  refine ⟨l, hrun, h.cluster, h.shares, ⟨_, hl, ?_⟩, hk, Nat.succ_le_succ h.le_shares⟩
  rw [Option.getD_some, ha, addShare_entry hk]

/-- A reservation that fails stops at the first node it visits and leaves the ledger. -/
theorem reserve_err (h : Accounted c s m k ids) (hk : ¬ k < 3) (hne : selected c ≠ []) :
    ∃ n, reserveResources visit id allocations s.nodeAllocations =
      (.err (.insufficientResources n), s.nodeAllocations) := by
  obtain ⟨a, hu, ha⟩ := h.ledger
  refine hu.reserve_full hs visit id hne ?_
  rw [ha, full_entry h.le_three]
  have := h.le_three
  omega

theorem free (h : Accounted c s (m + 1) k ids) {session : ScheduledSession}
    (hsession : session.allocatedResources = allocations) :
    ∃ j, k = j + 1 ∧
      Accounted c (s.freeSession visit id session) m j (ids.filter (· != id)) := by
  obtain ⟨j, rfl⟩ : ∃ j, k = j + 1 := ⟨k - 1, by have := h.le_shares; omega⟩
  obtain ⟨a, hu, ha⟩ := h.ledger
  have hj : j < 3 := h.le_three
  refine ⟨j, rfl, h.cluster, h.shares, ⟨a.map (dropShare id), ?_, ?_⟩, hj.le,
    Nat.le_of_succ_le_succ h.le_shares⟩
  · simpa only [freeSession, hsession] using hu.release hs visit id
  · -- the zero entry holds no share
    cases a with
    | none =>
      rw [Option.getD_none, zero_eq_entry] at ha
      have hram := congrArg (fun a => a.allocatedRamBytes.toNat) ha
      simp only [ram_entry (Nat.zero_le 3), ram_entry h.le_three] at hram
      simp at hram
    | some a =>
      rw [Option.getD_some] at ha
      rw [Option.map_some, Option.getD_some, ha, dropShare_entry hj]

end

theorem store (h : Accounted c s (m + 1) k ids) {session : ScheduledSession}
    (hs : Shares (selected c) session.allocatedResources) :
    Accounted c (s.storeSession session) m k ids where
  cluster := h.cluster
  shares id session' hl := by
    by_cases hid : id = session.sessionId
    · subst hid
      rw [storeSession, AList.lookup_insert] at hl
      cases hl
      exact hs
    · rw [storeSession, AList.lookup_insert_ne hid] at hl
      exact h.shares id session' hl
  ledger := h.ledger
  le_three := h.le_three
  le_shares := by
    have := HashMap.length_insert_le session.sessionId session s.sessions
    have := h.le_shares
    show (s.sessions.insert session.sessionId session).entries.length + m ≤ k
    omega

theorem take (h : Accounted c s m k ids) {id : SessionId} {session : ScheduledSession}
    (hl : s.sessions.lookup id = some session) :
    Accounted c (s.takeSession id) (m + 1) k ids where
  cluster := h.cluster
  shares id' session' hl' := by
    by_cases hid : id' = id
    · subst hid
      simp [takeSession] at hl'
    · rw [takeSession, AList.lookup_erase_ne hid] at hl'
      exact h.shares id' session' hl'
  ledger := h.ledger
  le_three := h.le_three
  le_shares := by
    have := HashMap.length_erase (HashMap.mem_of_lookup hl)
    have := h.le_shares
    show (s.sessions.erase id).entries.length + (m + 1) ≤ k
    omega

end Accounted

end TensorGrid.Scheduler
