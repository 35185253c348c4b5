import TensorGrid.Lib.Overflow
import TensorGrid.Planner.Model

/-!
# The averages over the links

`calculate_average_bandwidth` and `calculate_average_latency` add up the measurements as `u32`s and
divide by the number of links cut to 32 bits; the sum wraps, as in a release build. Nothing is lost
(`TrueMean`) exactly if the sum and the number fit: `trueMean_iff`. Then the averages are the means
rounded down, which lie between the measurements, and the strategy is chosen by them:
`linksTrue_iff`.
-/

namespace TensorGrid.Planner

open Rust

/-! ## Means -/

/-- Some number is at most the mean, rounded down. -/
theorem exists_le_mean {ns : List Nat} (h : ns ≠ []) : ∃ n ∈ ns, n ≤ ns.sum / ns.length := by
  have hlength := List.length_pos_iff.2 h
  have hlt : (ns.map id).sum < (ns.map fun _ => ns.sum / ns.length + 1).sum := by
    rw [List.map_id, List.map_const', List.sum_replicate, smul_eq_mul]
    exact Nat.lt_mul_div_succ _ hlength
  obtain ⟨n, hn, hle⟩ := List.exists_lt_of_sum_lt _ _ hlt
  exact ⟨n, hn, Nat.le_of_lt_succ hle⟩

/-- And some number is at least that. -/
theorem exists_mean_le {ns : List Nat} (h : ns ≠ []) : ∃ n ∈ ns, ns.sum / ns.length ≤ n := by
  have hle : (ns.map fun _ => ns.sum / ns.length).sum ≤ (ns.map id).sum := by
    rw [List.map_id, List.map_const', List.sum_replicate, smul_eq_mul]
    exact Nat.mul_div_le _ _
  exact List.exists_le_of_sum_le h _ _ hle

/-! ## One measurement -/

variable {measure : LinkMeasurement → UInt32} {topology : ClusterTopology}

def measurements (measure : LinkMeasurement → UInt32) (topology : ClusterTopology) : List Nat :=
  topology.links.map fun l => (measure l).toNat

def exactSum (measure : LinkMeasurement → UInt32) (topology : ClusterTopology) : Nat :=
  (measurements measure topology).sum

/-- The mean, rounded down. -/
def mean (measure : LinkMeasurement → UInt32) (topology : ClusterTopology) : Nat :=
  exactSum measure topology / topology.links.length

/-- The average is the mean, and neither the sum nor the number of links wraps. -/
structure TrueMean (result : Outcome PlanningError UInt32) (measure : LinkMeasurement → UInt32)
    (topology : ClusterTopology) : Prop where
  average : ∃ m, result = .ok m ∧ m.toNat = mean measure topology ∧
    (∃ l ∈ topology.links, measure l ≤ m) ∧ ∃ l ∈ topology.links, m ≤ measure l
  sum : (topology.links.foldl (fun total l => total + measure l) 0).toNat =
    exactSum measure topology
  count : (UInt32.ofNat topology.links.length).toNat = topology.links.length

theorem toNat_total_eq_iff :
    (topology.links.foldl (fun total l => total + measure l) 0).toNat =
        exactSum measure topology ↔ exactSum measure topology < 2 ^ 32 := by
  rw [← List.foldl_map, ← List.sum_eq_foldl]
  exact wraps_uInt32.sum_map_eq_iff topology.links

theorem toNat_count_eq_iff {n : Nat} : (UInt32.ofNat n).toNat = n ↔ n < 2 ^ 32 := by
  refine ⟨fun h => ?_, fun h => UInt32.toNat_ofNat_of_lt' h⟩
  rw [← h]
  exact UInt32.toNat_lt _

/-- The mean lies between the measurements. -/
theorem mean_between (measure : LinkMeasurement → UInt32) (h : topology.links ≠ []) :
    (∃ l ∈ topology.links, (measure l).toNat ≤ mean measure topology) ∧
      ∃ l ∈ topology.links, mean measure topology ≤ (measure l).toNat := by
  have hne : measurements measure topology ≠ [] := fun hnil => h (List.map_eq_nil_iff.1 hnil)
  have hmean : (measurements measure topology).sum / (measurements measure topology).length =
      mean measure topology := by
    rw [mean, exactSum, measurements, List.length_map]
  constructor
  · obtain ⟨n, hn, hle⟩ := exists_le_mean hne
    obtain ⟨l, hl, rfl⟩ := List.mem_map.1 hn
    exact ⟨l, hl, hmean ▸ hle⟩
  · obtain ⟨n, hn, hle⟩ := exists_mean_le hne
    obtain ⟨l, hl, rfl⟩ := List.mem_map.1 hn
    exact ⟨l, hl, hmean ▸ hle⟩

/-- **An average is the mean** if the sum and the number of links fit, and only then. -/
theorem trueMean_iff (h : topology.links ≠ []) :
    TrueMean (averageOver measure topology) measure topology ↔
      exactSum measure topology < 2 ^ 32 ∧ topology.links.length < 2 ^ 32 := by
  rw [← toNat_total_eq_iff, ← toNat_count_eq_iff]
  refine ⟨fun hmean => ⟨hmean.sum, hmean.count⟩, fun ⟨hsum, hcount⟩ => ⟨?_, hsum, hcount⟩⟩
  have hzero : UInt32.ofNat topology.links.length ≠ 0 := by
    intro hzero
    rw [hzero] at hcount
    exact h (List.length_eq_zero_iff.1 hcount.symm)
  refine ⟨topology.links.foldl (fun total l => total + measure l) 0 /
    UInt32.ofNat topology.links.length, ?_, ?_⟩
  · rw [averageOver, if_neg (by simpa using h)]
    exact if_neg hzero
  · have hm : ((topology.links.foldl (fun total l => total + measure l) 0) /
        UInt32.ofNat topology.links.length).toNat = mean measure topology := by
      rw [UInt32.toNat_div, hsum, hcount, mean]
    obtain ⟨hle, hge⟩ := mean_between measure h
    simp only [UInt32.le_iff_toNat_le, hm]
    exact ⟨trivial, hle, hge⟩

/-! ## The strategy -/

/-- The choice by exact averages. -/
def strategyFor (bandwidth latency : Nat) : ParallelismStrategy :=
  if 10000 ≤ bandwidth ∧ latency < 100 then .pipelineHybrid
  else if 2500 ≤ bandwidth ∧ latency < 500 then .pipeline
  else if 1000 ≤ bandwidth then .pipelineHybrid
  else .pipeline

/-- Both averages are the means, and what is chosen is chosen by them. -/
structure LinksTrue (topology : ClusterTopology) : Prop where
  bandwidth : TrueMean (calculateAverageBandwidth topology) (·.bandwidthMbps) topology
  latency : TrueMean (calculateAverageLatency topology) (·.latencyUs) topology
  strategy : ∀ (request : PlanningRequest) (cluster : LogicalCluster),
    cluster.topology = topology → request.preferredStrategy = none →
    selectStrategy request cluster =
      .ok (strategyFor (mean (·.bandwidthMbps) topology) (mean (·.latencyUs) topology))

/-- The sums and the number of links are `u32`s. -/
structure LinksFit (topology : ClusterTopology) : Prop where
  bandwidth : exactSum (·.bandwidthMbps) topology < 2 ^ 32
  latency : exactSum (·.latencyUs) topology < 2 ^ 32
  count : topology.links.length < 2 ^ 32

theorem selectStrategy_of_trueMean {request : PlanningRequest} {cluster : LogicalCluster}
    (hbandwidth : TrueMean (calculateAverageBandwidth cluster.topology) (·.bandwidthMbps)
      cluster.topology)
    (hlatency : TrueMean (calculateAverageLatency cluster.topology) (·.latencyUs)
      cluster.topology)
    (hnone : request.preferredStrategy = none) :
    selectStrategy request cluster = .ok (strategyFor (mean (·.bandwidthMbps) cluster.topology)
      (mean (·.latencyUs) cluster.topology)) := by
  obtain ⟨bandwidth, hb, hbmean, -⟩ := hbandwidth.average
  obtain ⟨latency, hl, hlmean, -⟩ := hlatency.average
  simp only [selectStrategy, hnone, hb, hl, Outcome.ok_bind, strategyFor, ← hbmean, ← hlmean,
    ge_iff_le, UInt32.le_iff_toNat_le, UInt32.lt_iff_toNat_lt, UInt32.reduceToNat]
  split_ifs <;> rfl

/-- **The averages over the links are true** if the two sums and the number of links fit into
`u32`s, and only then. -/
theorem linksTrue_iff (h : topology.links ≠ []) : LinksTrue topology ↔ LinksFit topology := by
  constructor
  · intro htrue
    obtain ⟨hbandwidth, hcount⟩ := (trueMean_iff h).1 htrue.bandwidth
    exact ⟨hbandwidth, ((trueMean_iff h).1 htrue.latency).1, hcount⟩
  · intro hfit
    have hbandwidth : TrueMean (calculateAverageBandwidth topology) (·.bandwidthMbps) topology :=
      (trueMean_iff h).2 ⟨hfit.bandwidth, hfit.count⟩
    have hlatency : TrueMean (calculateAverageLatency topology) (·.latencyUs) topology :=
      (trueMean_iff h).2 ⟨hfit.latency, hfit.count⟩
    refine ⟨hbandwidth, hlatency, fun request cluster htopology hnone => ?_⟩
    subst htopology
    exact selectStrategy_of_trueMean hbandwidth hlatency hnone

/-- Links with these bandwidths, 50 µs apart. -/
def linksOf (bandwidths : List UInt32) : ClusterTopology :=
  ⟨∅, bandwidths.map fun bandwidth => ⟨⟨1⟩, ⟨2⟩, "tcp", 50, bandwidth, 0, 0⟩⟩

theorem linksTrue_iff_two : LinksTrue (linksOf [1000, 2000]) ↔ LinksFit (linksOf [1000, 2000]) :=
  linksTrue_iff (by simp [linksOf])

/-- The mean of these bandwidths is 2147483648, their average 0. -/
theorem not_linksTrue_wrapping :
    calculateAverageBandwidth (linksOf [4294967295, 1]) = .ok 0 ∧
      ¬ LinksTrue (linksOf [4294967295, 1]) := by
  have hzero : calculateAverageBandwidth (linksOf [4294967295, 1]) = .ok 0 := by decide
  refine ⟨hzero, fun h => ?_⟩
  obtain ⟨m, hm, hmean, -⟩ := h.bandwidth.average
  cases hzero.symm.trans hm
  exact absurd hmean (by decide)

end TensorGrid.Planner
