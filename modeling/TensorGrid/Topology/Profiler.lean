import TensorGrid.Lib.Pairs
import TensorGrid.Planner.Averages
import TensorGrid.Planner.Capacity

/-!
# The topology profiler

`profile_cluster` of `crates/topology` measures the link between any two nodes and collects what
could be measured. What `measure_latency` returns is an argument, call by call, as are the drawn ids
of a measurement; the bandwidth is the constant 1000. A call that never returns is left out.

* `profile`: each pair of different nodes is measured once, in one direction (`pairs`), and no
  measured link counts as better than acceptable.
* `selectStrategy_profiled`: without a preference the planner takes `PipelineHybrid` on a profiled
  cluster, whatever the latencies, until the sum of the bandwidths wraps.
-/

namespace TensorGrid

open Rust

inductive LinkQuality
  | excellent | good | acceptable | poor
deriving DecidableEq, Repr

/-- What the measurement of a link between two nodes meets: the outcomes of the calls of
`measure_latency`, in order, and the two drawn ids. -/
structure LinkOutcome where
  latency : Nat → Except String UInt32
  source : NodeId
  target : NodeId

namespace TopologyProfiler

/-! ## A link -/

def measureBandwidth : UInt32 := 1000

/-- The standard deviation of the latencies. -/
def jitter (latencies : List UInt32) : UInt32 :=
  let count := (UInt64.ofNat latencies.length).toFloat
  let mean := (latencies.map UInt32.toFloat).foldl (· + ·) (-0.0) / count
  let squares := latencies.map fun x => (x.toFloat - mean) * (x.toFloat - mean)
  (squares.foldl (· + ·) (-0.0) / count).sqrt.toUInt32

def measureJitter (latency : Nat → Except String UInt32) : Except String UInt32 := do
  let latencies ← (List.range 10).mapM latency
  pure (jitter latencies)

def measureLink (o : LinkOutcome) : Except String LinkMeasurement := do
  let latencyUs ← o.latency 0
  let jitterUs ← measureJitter fun k => o.latency (k + 1)
  pure
    { source := o.source
      target := o.target
      transport := "tcp"
      latencyUs
      bandwidthMbps := measureBandwidth
      jitterUs
      packetLossPercent := 0 }

def estimateLinkQuality (m : LinkMeasurement) : LinkQuality :=
  if m.bandwidthMbps ≥ 10000 ∧ m.latencyUs < 100 then .excellent
  else if m.bandwidthMbps ≥ 2500 ∧ m.latencyUs < 500 then .good
  else if m.bandwidthMbps ≥ 1000 ∧ m.latencyUs < 2000 then .acceptable
  else .poor

/-! ## The cluster -/

def nodeTopology : NodeTopology where
  cpuScore := 100
  ramUsableBytes := 16 * 1024 * 1024 * 1024
  devices := ["cpu:0"]

/-- The body of the inner loop; `network` is what the measurements meet. -/
def link (network : NodeId → NodeId → LinkOutcome) (nodeAddresses : HashMap NodeId String)
    (fromId toId : NodeId) : Option LinkMeasurement :=
  match nodeAddresses.lookup fromId, nodeAddresses.lookup toId with
  | some _, some _ => (measureLink (network fromId toId)).toOption
  | _, _ => none

/-- The body of the outer loop. -/
def visit (network : NodeId → NodeId → LinkOutcome) (nodeAddresses : HashMap NodeId String)
    (topology : ClusterTopology) (e : NodeId × Nat) : ClusterTopology where
  nodes := topology.nodes.insert e.1 nodeTopology
  links := topology.links ++
    (nodeAddresses.keys.drop (e.2 + 1)).filterMap (link network nodeAddresses e.1)

def profileCluster (network : NodeId → NodeId → LinkOutcome)
    (nodeAddresses : HashMap NodeId String) : ClusterTopology :=
  nodeAddresses.keys.zipIdx.foldl (visit network nodeAddresses) ⟨∅, []⟩

/-! ## The profile -/

section
variable (network : NodeId → NodeId → LinkOutcome) (nodeAddresses : HashMap NodeId String)

/-- The loop from `after` on. -/
theorem foldl_visit {before after : List NodeId} (h : nodeAddresses.keys = before ++ after)
    (topology : ClusterTopology) :
    (after.zipIdx before.length).foldl (visit network nodeAddresses) topology =
      { nodes := after.foldl (fun nodes id => nodes.insert id nodeTopology) topology.nodes
        links := topology.links ++
          (pairs after).filterMap fun p => link network nodeAddresses p.1 p.2 } := by
  induction after generalizing before topology with
  | nil => simp [pairs]
  | cons id after ih =>
    have hdrop : nodeAddresses.keys.drop (before.length + 1) = after := by
      rw [h, List.drop_append]
      simp
    have hsplit : nodeAddresses.keys = (before ++ [id]) ++ after := by
      rw [h, List.append_assoc]
      rfl
    have hrest := ih hsplit
    rw [List.length_append, List.length_singleton] at hrest
    rw [List.zipIdx_cons, List.foldl_cons, visit, hdrop, hrest]
    rw [pairs, List.filterMap_append, List.filterMap_map, List.append_assoc]
    rfl

theorem profileCluster_eq : profileCluster network nodeAddresses =
    { nodes := nodeAddresses.keys.foldl (fun nodes id => nodes.insert id nodeTopology) ∅
      links := (pairs nodeAddresses.keys).filterMap fun p =>
        (measureLink (network p.1 p.2)).toOption } := by
  refine (@foldl_visit network nodeAddresses [] nodeAddresses.keys rfl ⟨∅, []⟩).trans ?_
  rw [List.nil_append, List.filterMap_congr fun p hp => ?_]
  obtain ⟨h₁, h₂⟩ := mem_of_mem_pairs hp
  obtain ⟨_, hfrom⟩ := HashMap.lookup_of_mem (AList.mem_keys.1 h₁)
  obtain ⟨_, hto⟩ := HashMap.lookup_of_mem (AList.mem_keys.1 h₂)
  rw [link, hfrom, hto]

theorem mem_profileCluster_nodes (id : NodeId) :
    id ∈ (profileCluster network nodeAddresses).nodes ↔ id ∈ nodeAddresses := by
  have hinsert (ids : List NodeId) (nodes : HashMap NodeId NodeTopology) :
      id ∈ ids.foldl (fun nodes id => nodes.insert id nodeTopology) nodes ↔
        id ∈ ids ∨ id ∈ nodes := by
    induction ids generalizing nodes with
    | nil => simp
    | cons id' ids ih =>
      rw [List.foldl_cons, ih, AList.mem_insert, List.mem_cons]
      tauto
  rw [profileCluster_eq, hinsert]
  exact or_iff_left (AList.notMem_empty id)

end

/-- What a measured link can be. -/
theorem of_measureLink {o : LinkOutcome} {m : LinkMeasurement} (h : measureLink o = .ok m) :
    o.latency 0 = .ok m.latencyUs ∧ m.bandwidthMbps = 1000 := by
  unfold measureLink at h
  cases hlatency : o.latency 0 with
  | error e =>
    rw [hlatency] at h
    cases h
  | ok latencyUs =>
    rw [hlatency] at h
    cases hjitter : measureJitter fun k => o.latency (k + 1) with
    | error e =>
      simp only [hjitter] at h
      cases h
    | ok jitterUs =>
      simp only [hjitter] at h
      cases h
      exact ⟨rfl, rfl⟩

/-- The bandwidth of a measured link is that of the third class. -/
theorem estimateLinkQuality_measured {m : LinkMeasurement} (h : m.bandwidthMbps = 1000) :
    estimateLinkQuality m = if m.latencyUs < 2000 then .acceptable else .poor := by
  unfold estimateLinkQuality
  rw [h, if_neg fun hexcellent => absurd hexcellent.1 (by decide),
    if_neg fun hgood => absurd hgood.1 (by decide)]
  simp

/-- What a profile of these nodes contains. -/
structure Profile (network : NodeId → NodeId → LinkOutcome) (nodeAddresses : HashMap NodeId String)
    (topology : ClusterTopology) : Prop where
  nodes : ∀ id, id ∈ topology.nodes ↔ id ∈ nodeAddresses
  links : ∃ measured : List (NodeId × NodeId),
    (measured.map unordered).Nodup ∧
    (∀ a b, s(a, b) ∈ measured.map unordered ↔ a ≠ b ∧ a ∈ nodeAddresses ∧ b ∈ nodeAddresses) ∧
    topology.links = measured.filterMap fun p => (measureLink (network p.1 p.2)).toOption
  length_links : topology.links.length ≤ nodeAddresses.keys.length.choose 2
  quality : ∀ m ∈ topology.links, m.bandwidthMbps = 1000 ∧
    estimateLinkQuality m = if m.latencyUs < 2000 then .acceptable else .poor

theorem bandwidth_of_mem {network : NodeId → NodeId → LinkOutcome}
    {nodeAddresses : HashMap NodeId String} {m : LinkMeasurement}
    (h : m ∈ (profileCluster network nodeAddresses).links) : m.bandwidthMbps = 1000 := by
  rw [profileCluster_eq] at h
  obtain ⟨p, -, hp⟩ := List.mem_filterMap.1 h
  cases hlink : measureLink (network p.1 p.2) with
  | error e =>
    rw [hlink] at hp
    cases hp
  | ok m' =>
    rw [hlink] at hp
    cases hp
    exact (of_measureLink hlink).2

section
variable (network : NodeId → NodeId → LinkOutcome) (nodeAddresses : HashMap NodeId String)

theorem length_links_le : (profileCluster network nodeAddresses).links.length ≤
    nodeAddresses.keys.length.choose 2 := by
  rw [profileCluster_eq, ← length_pairs]
  exact List.length_filterMap_le _ _

/-- **Any two nodes are measured once**, whatever the measurements return. -/
theorem profile : Profile network nodeAddresses (profileCluster network nodeAddresses) where
  nodes := mem_profileCluster_nodes network nodeAddresses
  links := by
    refine ⟨pairs nodeAddresses.keys, nodup_pairs nodeAddresses.keys_nodup, fun a b => ?_, ?_⟩
    · exact mem_pairs nodeAddresses.keys_nodup a b
    · rw [profileCluster_eq]
  length_links := length_links_le network nodeAddresses
  quality := by
    intro m hm
    have hbandwidth := bandwidth_of_mem hm
    exact ⟨hbandwidth, estimateLinkQuality_measured hbandwidth⟩

end

/-! ## The strategy on a profiled cluster -/

open Planner

/-- An average over links that all measure the same, in exact numbers. -/
theorem averageOver_const {measure : LinkMeasurement → UInt32} {topology : ClusterTopology}
    {b : UInt32} (h : ∀ l ∈ topology.links, measure l = b) (hlinks : topology.links ≠ [])
    (hcount : topology.links.length % 2 ^ 32 ≠ 0) :
    ∃ average, averageOver measure topology = .ok average ∧
      average.toNat =
        b.toNat * (topology.links.length % 2 ^ 32) % 2 ^ 32 / (topology.links.length % 2 ^ 32) := by
  have hsum (ls : List LinkMeasurement) (total : UInt32) (hls : ∀ l ∈ ls, measure l = b) :
      (ls.foldl (fun total l => total + measure l) total).toNat =
        (total.toNat + b.toNat * ls.length) % 2 ^ 32 := by
    induction ls generalizing total with
    | nil => simp
    | cons l ls ih =>
      rw [List.foldl_cons, ih _ fun l' hl' => hls l' (.tail _ hl'), hls l (.head _),
        UInt32.toNat_add, Nat.mod_add_mod, List.length_cons, Nat.mul_succ]
      congr 1
      omega
  have hne : UInt32.ofNat topology.links.length ≠ 0 := by
    intro hzero
    exact hcount (by simpa using congrArg UInt32.toNat hzero)
  refine ⟨topology.links.foldl (fun total l => total + measure l) 0 /
    UInt32.ofNat topology.links.length, ?_, ?_⟩
  · rw [averageOver, if_neg (by simpa using hlinks)]
    exact if_neg hne
  · rw [UInt32.toNat_div, hsum _ _ h, UInt32.toNat_ofNat', UInt32.toNat_zero, Nat.zero_add,
      Nat.mul_mod_mod]

/-- What the bandwidths come to: at most 1000, and 1000 if their sum fits. -/
theorem thousands_div (k : Nat) (h : k ≠ 0) :
    1000 * k % 2 ^ 32 / k ≤ 1000 ∧ (1000 ≤ 1000 * k % 2 ^ 32 / k ↔ 1000 * k < 2 ^ 32) := by
  have hle : 1000 * k % 2 ^ 32 ≤ 1000 * k := Nat.mod_le _ _
  have hpos := Nat.pos_of_ne_zero h
  refine ⟨Nat.div_le_of_le_mul (Nat.mul_comm k 1000 ▸ hle), ?_⟩
  rw [Nat.le_div_iff_mul_le hpos]
  refine ⟨fun hge => ?_, fun hlt => (Nat.mod_eq_of_lt hlt).ge⟩
  exact hge.trans_lt (Nat.mod_lt _ (by decide))

/-- Once the averages are there, the latency does not matter below 2500 Mbps. -/
theorem selectStrategy_slow {request : PlanningRequest} {cluster : LogicalCluster}
    {bandwidth latency : UInt32}
    (hbandwidth : calculateAverageBandwidth cluster.topology = .ok bandwidth)
    (hlatency : calculateAverageLatency cluster.topology = .ok latency)
    (hnone : request.preferredStrategy = none) (hslow : bandwidth.toNat ≤ 1000) :
    selectStrategy request cluster =
      .ok (if 1000 ≤ bandwidth.toNat then .pipelineHybrid else .pipeline) := by
  simp only [selectStrategy, hnone, hbandwidth, hlatency, Outcome.ok_bind, ge_iff_le,
    UInt32.le_iff_toNat_le, UInt32.reduceToNat]
  rw [if_neg (by omega), if_neg (by omega)]
  split_ifs <;> rfl

/-- The choice for a profiled cluster, by the number of its links cut to 32 bits. -/
def profiledStrategy (links : List LinkMeasurement) : Outcome PlanningError ParallelismStrategy :=
  if links ≠ [] ∧ links.length % 2 ^ 32 = 0 then .panic
  else if 1000 * (links.length % 2 ^ 32) < 2 ^ 32 then .ok .pipelineHybrid
  else .ok .pipeline

theorem selectStrategy_of_bandwidth {request : PlanningRequest} {cluster : LogicalCluster}
    (h : ∀ l ∈ cluster.topology.links, l.bandwidthMbps = 1000)
    (hnone : request.preferredStrategy = none) :
    selectStrategy request cluster = profiledStrategy cluster.topology.links := by
  unfold profiledStrategy
  by_cases hlinks : cluster.topology.links = []
  · have havg (measure) : averageOver measure cluster.topology = .ok 1000 := by
      rw [averageOver, hlinks]
      rfl
    rw [selectStrategy_slow (havg _) (havg _) hnone (by decide), hlinks]
    rfl
  by_cases hcount : cluster.topology.links.length % 2 ^ 32 = 0
  · have hpanic : calculateAverageBandwidth cluster.topology = .panic := by
      rcases averageOver_cases (·.bandwidthMbps) cluster.topology with ⟨hok, -⟩ | ⟨-, hpanic⟩
      · exact absurd hcount (hok.resolve_left hlinks)
      · exact hpanic
    rw [if_pos ⟨hlinks, hcount⟩]
    simp only [selectStrategy, hnone, hpanic, Outcome.panic_bind]
  · obtain ⟨bandwidth, hbandwidth, htoNat⟩ := averageOver_const h hlinks hcount
    obtain ⟨hle, hfits⟩ := thousands_div _ hcount
    change bandwidth.toNat = 1000 * _ % 2 ^ 32 / _ at htoNat
    rw [← htoNat] at hle hfits
    rcases averageOver_cases (·.latencyUs) cluster.topology with ⟨-, latency, hlatency⟩ | ⟨hno, -⟩
    · rw [selectStrategy_slow hbandwidth hlatency hnone hle,
        if_neg (fun hz => hcount hz.2 : ¬ (_ ∧ _))]
      simp only [hfits]
      split_ifs <;> rfl
    · exact absurd (.inr hcount) hno

section
variable (network : NodeId → NodeId → LinkOutcome) (nodeAddresses : HashMap NodeId String)
  (request : PlanningRequest) (cluster : LogicalCluster)

/-- **Which strategy a profiled cluster gets** does not depend on what was measured, only on how
many links could be; up to 2931 nodes it is always the same. -/
theorem selectStrategy_profiled :
    selectStrategy { request with preferredStrategy := none }
        { cluster with topology := profileCluster network nodeAddresses } =
      profiledStrategy (profileCluster network nodeAddresses).links ∧
    (nodeAddresses.keys.length ≤ 2931 →
      selectStrategy { request with preferredStrategy := none }
        { cluster with topology := profileCluster network nodeAddresses } =
        .ok .pipelineHybrid) := by
  have heq := @selectStrategy_of_bandwidth { request with preferredStrategy := none }
    { cluster with topology := profileCluster network nodeAddresses }
    (fun _ hl => bandwidth_of_mem hl) rfl
  refine ⟨heq, fun hnodes => heq.trans ?_⟩
  have hlength : (profileCluster network nodeAddresses).links.length ≤ 4293915 := by
    calc (profileCluster network nodeAddresses).links.length
      _ ≤ nodeAddresses.keys.length.choose 2 := length_links_le network nodeAddresses
      _ ≤ Nat.choose 2931 2 := Nat.choose_le_choose 2 hnodes
      _ = 4293915 := by rw [Nat.choose_two_right]
  have hcut := Nat.mod_eq_of_lt (show
    (profileCluster network nodeAddresses).links.length < 2 ^ 32 by omega)
  rw [profiledStrategy, hcut, if_neg fun ⟨hne, hzero⟩ => hne (List.length_eq_zero_iff.1 hzero),
    if_pos (by omega)]

end

end TopologyProfiler

end TensorGrid
