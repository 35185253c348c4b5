import TensorGrid.Planner.Partition

/-!
# Models that do not fit

No step of `createPlan` looks at the size of the model or of the nodes. It makes a plan if some node
is healthy, and its only error is that none is (`createPlan_eq`), so a model that does not fit is
refused only where every model is: `refusesUnfit_iff`.
-/

namespace TensorGrid.Planner

open Rust

/-- What a node can hold: the memory it has left and the memory of its GPUs. -/
def nodeBytes (node : PhysicalNode) : Nat :=
  node.capabilities.memory.availableBytes.toNat +
    (node.capabilities.gpus.map (·.vramBytes.toNat)).sum

/-- What the healthy nodes can hold. -/
def capacityBytes (cluster : LogicalCluster) : Nat :=
  HashMap.total (fun _ node => if node.status = .healthy then nodeBytes node else 0) cluster.nodes

/-- A model that does not fit is refused, and for that reason if some node is healthy. -/
def RefusesUnfit (request : PlanningRequest) (cluster : LogicalCluster) : Prop :=
  capacityBytes cluster < request.modelMetadata.estimatedWeightBytes.toNat →
    (∃ e, createPlan request cluster = .err e) ∧
      (availableNodes cluster ≠ [] → createPlan request cluster = .err .modelTooLarge)

/-- The number of links, cut to 32 bits, is no zero to divide by. -/
def LinksCount (topology : ClusterTopology) : Prop :=
  topology.links = [] ∨ topology.links.length % 2 ^ 32 ≠ 0

section
variable {request : PlanningRequest} {cluster : LogicalCluster} {topology : ClusterTopology}

theorem averageOver_cases (measure : LinkMeasurement → UInt32) (topology : ClusterTopology) :
    (LinksCount topology ∧ ∃ average, averageOver measure topology = .ok average) ∨
      (¬ LinksCount topology ∧ averageOver measure topology = .panic) := by
  have hcount : UInt32.ofNat topology.links.length = 0 ↔ topology.links.length % 2 ^ 32 = 0 := by
    rw [← UInt32.toNat_inj, UInt32.toNat_ofNat']
    rfl
  unfold LinksCount averageOver
  by_cases hlinks : topology.links = []
  · simp [hlinks]
  · simp only [List.isEmpty_iff, hlinks, hcount, false_or, if_false]
    by_cases hzero : topology.links.length % 2 ^ 32 = 0
    · exact .inr ⟨not_not.2 hzero, if_pos hzero⟩
    · exact .inl ⟨hzero, _, if_neg hzero⟩

theorem selectStrategy_cases (request : PlanningRequest) (cluster : LogicalCluster) :
    ((request.preferredStrategy = none → LinksCount cluster.topology) ∧
      ∃ strategy, selectStrategy request cluster = .ok strategy) ∨
      (¬ (request.preferredStrategy = none → LinksCount cluster.topology) ∧
        selectStrategy request cluster = .panic) := by
  unfold selectStrategy calculateAverageBandwidth calculateAverageLatency
  cases request.preferredStrategy with
  | some strategy => exact .inl ⟨nofun, strategy, rfl⟩
  | none =>
    rcases averageOver_cases (·.bandwidthMbps) cluster.topology with
      ⟨hlinks, bandwidth, hbandwidth⟩ | ⟨hlinks, hpanic⟩
    · rcases averageOver_cases (·.latencyUs) cluster.topology with
        ⟨-, latency, hlatency⟩ | ⟨hno, -⟩
      · simp only [hbandwidth, hlatency, Outcome.ok_bind]
        refine .inl ⟨fun _ => hlinks, ?_⟩
        split_ifs <;> exact ⟨_, rfl⟩
      · exact absurd hlinks hno
    · exact .inr ⟨fun h => hlinks (h rfl), by simp only [hpanic, Outcome.panic_bind]⟩

/-- A partition fails only without healthy nodes. -/
theorem partitionModel_ok (h : availableNodes cluster ≠ []) (strategy : ParallelismStrategy) :
    ∃ stages, partitionModel request cluster strategy = .ok stages := by
  rcases partitionModel_cases request cluster strategy with ⟨-, heq⟩ | ⟨-, heq⟩
  · exact ⟨_, heq.trans (partitionPipeline_eq h request)⟩
  · exact ⟨_, heq⟩

/-- **All that can come of a request**: a panic, a plan, or an error, by the links and the nodes. -/
theorem createPlan_cases (request : PlanningRequest) (cluster : LogicalCluster) :
    (¬ (request.preferredStrategy = none → LinksCount cluster.topology) ∧
      createPlan request cluster = .panic) ∨
    (availableNodes cluster ≠ [] ∧ ∃ plan, createPlan request cluster = .ok plan) ∨
    ((request.preferredStrategy = none → LinksCount cluster.topology) ∧
      availableNodes cluster = [] ∧ createPlan request cluster = .err .noAvailableNodes) := by
  unfold createPlan
  rcases selectStrategy_cases request cluster with ⟨hstrategy, strategy, hselect⟩ | ⟨hno, hpanic⟩
  · by_cases hnodes : availableNodes cluster = []
    · refine .inr (.inr ⟨hstrategy, hnodes, ?_⟩)
      simp only [hselect, Outcome.ok_bind, partitionModel, hnodes]
      rfl
    · obtain ⟨stages, hstages⟩ := @partitionModel_ok request cluster hnodes strategy
      refine .inr (.inl ⟨hnodes, ?_⟩)
      simp only [hselect, hstages, Outcome.ok_bind]
      exact ⟨_, rfl⟩
  · exact .inl ⟨hno, by simp only [hpanic, Outcome.panic_bind]⟩

end

/-- **When models that do not fit are refused**: where no node is healthy. -/
theorem refusesUnfit_iff (request : PlanningRequest) (cluster : LogicalCluster) :
    RefusesUnfit request cluster ↔
      (capacityBytes cluster < request.modelMetadata.estimatedWeightBytes.toNat →
        (∀ id node, cluster.nodes.lookup id = some node → node.status ≠ .healthy) ∧
          (request.preferredStrategy = none → LinksCount cluster.topology)) := by
  have hnodes : availableNodes cluster = [] ↔
      ∀ id node, cluster.nodes.lookup id = some node → node.status ≠ .healthy := by
    constructor
    · intro hnone id node hid hhealthy
      have hmem := mem_availableNodes.2 ⟨hid, hhealthy⟩
      simp [hnone] at hmem
    · intro hall
      refine List.eq_nil_iff_forall_not_mem.2 fun ⟨id, node⟩ hmem => ?_
      obtain ⟨hid, hhealthy⟩ := mem_availableNodes.1 hmem
      exact hall id node hid hhealthy
  unfold RefusesUnfit
  refine imp_congr_right fun _ => ?_
  rw [← hnodes]
  rcases createPlan_cases request cluster with ⟨hno, hpanic⟩ | ⟨hsome, plan, hplan⟩ |
    ⟨hlinks, hnone, herr⟩
  · simp [hpanic, hno]
  · simp [hplan, hsome]
  · simpa [herr, hnone] using hlinks

/-- A model of `2 ^ 40` bytes on one node of 16 GiB. -/
theorem not_refusesUnfit : ¬ RefusesUnfit
    ⟨"model", ⟨0, 32, "llama", "q4_k_m", 2 ^ 40⟩, 2048, 1, none⟩ smallCluster := by
  intro h
  obtain ⟨⟨e, he⟩, -⟩ := h (by decide)
  cases he

end TensorGrid.Planner
