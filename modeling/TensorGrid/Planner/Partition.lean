import TensorGrid.Planner.Model

/-!
# Every layer is placed exactly once

`Placement cluster layerCount stages` is what a partition has to be. The loop over the nodes keeps
`Progress`: the stages so far are one for each node visited until the layers ran out, and their
layers are the first `current` layers (`Progress.step`, `Progress.stageLoop`). The share of a node
is the exact ceiling of the quotient (`layersPerNode_spec`), so that the last node visited finds no
layer left over (`stageLoop_placement`).

* `partitionModel_cases`: what a call does, by strategy.
* `partitionModel_eq`: the result is that of the loop over the available nodes, or over those with a
  GPU; the CPU stage of the hybrid strategy is never needed.
* `partitionModel_places`: for 1 to `2 ^ 24` layers the partition is a `Placement`, unless no node
  is healthy (`createPlan_placement` for the plan).
-/

namespace TensorGrid

open Rust

namespace Planner

/-- A partition of the layers `0, …, layerCount - 1` into stages on healthy nodes of the cluster. -/
structure Placement (cluster : LogicalCluster) (layerCount : Nat) (stages : List StagePlan) :
    Prop where
  nonempty : stages ≠ []
  ids : stages.map (·.id.toNat) = List.range stages.length
  nodup : (stages.map (·.nodeId)).Nodup
  healthy : ∀ s ∈ stages, ∃ node, cluster.nodes.lookup s.nodeId = some node ∧
    node.status = .healthy
  runs : ∀ s ∈ stages, ∃ a k, s.layers.map (·.toNat) = List.range' a (k + 1)
  covers : (stages.flatMap (·.layers)).map (·.toNat) = List.range layerCount

/-! ## The nodes -/

theorem mem_availableNodes {cluster : LogicalCluster} {nodeId : NodeId} {node : PhysicalNode} :
    (nodeId, node) ∈ availableNodes cluster ↔
      cluster.nodes.lookup nodeId = some node ∧ node.status = .healthy := by
  rw [← HashMap.mem_entries_iff]
  simp [availableNodes]

theorem nodup_availableNodes (cluster : LogicalCluster) :
    ((availableNodes cluster).map Prod.fst).Nodup := by
  have hkeys : (cluster.nodes.entries.map Sigma.fst).Nodup := cluster.nodes.nodupKeys
  rw [availableNodes, List.map_map]
  exact hkeys.sublist (List.filter_sublist.map _)

/-! ## The share of a node -/

/-- The share is enough for all layers, and no more than them. -/
theorem layersPerNode_spec {layerCount : UInt32} {nodes : List (NodeId × PhysicalNode)}
    (hpos : 1 ≤ layerCount.toNat) (hle : layerCount.toNat ≤ 2 ^ 24) (hne : nodes ≠ []) :
    layerCount.toNat ≤ nodes.length * (layersPerNode layerCount nodes).toNat ∧
      (layersPerNode layerCount nodes).toNat ≤ layerCount.toNat := by
  have hlen : 0 < nodes.length := List.length_pos_iff.2 hne
  have hcount : 0 < (UInt64.ofNatClamp nodes.length).toNat ∧
      (UInt64.ofNatClamp nodes.length).toNat ≤ nodes.length := by
    rcases Nat.lt_or_ge nodes.length UInt64.size with hlt | hge
    · rw [UInt64.toNat_ofNatClamp_of_lt hlt]
      exact ⟨hlen, le_refl _⟩
    · rw [UInt64.toNat_ofNatClamp_of_le hge]
      exact ⟨by decide, (Nat.sub_le _ _).trans hge⟩
  rw [layersPerNode, Binary32.ceilAsU32_div hpos hle hcount.1]
  refine ⟨(le_smul_ceilDiv hcount.1).trans (Nat.mul_le_mul_right _ hcount.2), ?_⟩
  rw [ceilDiv_le_iff_le_mul hcount.1]
  exact Nat.le_mul_of_pos_left _ hcount.1

/-! ## The loop -/

@[simp] theorem map_toNat_layerRange (first last : UInt32) :
    (layerRange first last).map (·.toNat) =
      List.range' first.toNat (last.toNat - first.toNat) := by
  rw [layerRange, List.map_map]
  refine (List.map_congr_left fun n hn => ?_).trans (List.map_id _)
  have hlast := last.toNat_lt
  rw [List.mem_range'_1] at hn
  exact Nat.mod_eq_of_lt (by omega)

theorem layerRange_isEmpty {first last : UInt32} :
    (layerRange first last).isEmpty ↔ last.toNat ≤ first.toNat := by
  simp [layerRange, Nat.sub_eq_zero_iff_le]

theorem toNat_min (a b : UInt32) : (min a b).toNat = min a.toNat b.toNat := by
  show (if a ≤ b then a else b).toNat = _
  by_cases h : a ≤ b
  · rw [if_pos h, min_eq_left (UInt32.le_iff_toNat_le.1 h)]
  · have hba : b.toNat ≤ a.toNat := by
      rw [UInt32.le_iff_toNat_le] at h
      omega
    rw [if_neg h, min_eq_right hba]

/-- The state of the loop after the nodes `seen`. -/
structure Progress (layerCount perNode : Nat) (seen : List (NodeId × PhysicalNode))
    (current : Nat) (stages : List StagePlan) : Prop where
  current_eq : current = min (seen.length * perNode) layerCount
  busy : current < layerCount → stages.length = seen.length
  short : stages.length ≤ current
  nodes : stages.map (·.nodeId) <+: seen.map Prod.fst
  ids : stages.map (·.id.toNat) = List.range stages.length
  runs : ∀ s ∈ stages, ∃ a k, s.layers.map (·.toNat) = List.range' a (k + 1)
  covers : (stages.flatMap (·.layers)).map (·.toNat) = List.range current

theorem Progress.start (layerCount perNode : Nat) : Progress layerCount perNode [] 0 [] where
  current_eq := by simp
  busy _ := rfl
  short := le_refl _
  nodes := List.prefix_refl _
  ids := rfl
  runs := by simp
  covers := rfl

section
variable {layerCount perNode current : Nat} {seen : List (NodeId × PhysicalNode)}
  {stages : List StagePlan}

theorem Progress.current_le (h : Progress layerCount perNode seen current stages) :
    current ≤ layerCount :=
  h.current_eq.le.trans (min_le_right _ _)

/-- A node that finds no layer left gets no stage. -/
theorem Progress.idle (h : Progress layerCount perNode seen current stages)
    (hdone : layerCount ≤ current) (e : NodeId × PhysicalNode) :
    Progress layerCount perNode (seen ++ [e]) current stages where
  current_eq := by
    have := h.current_eq
    rw [List.length_append, Nat.add_mul]
    omega
  busy hlt := by omega
  short := h.short
  nodes := by
    rw [List.map_append]
    exact h.nodes.trans (List.prefix_append _ _)
  ids := h.ids
  runs := h.runs
  covers := h.covers

/-- A node that finds layers left gets the next `perNode` of them. -/
theorem Progress.place (h : Progress layerCount perNode seen current stages)
    (hlt : current < layerCount) (hper : 0 < perNode) {e : NodeId × PhysicalNode}
    {stage : StagePlan} {next : Nat} (hnext : next = min (current + perNode) layerCount)
    (hid : stage.id.toNat = stages.length) (hnode : stage.nodeId = e.1)
    (hlayers : stage.layers.map (·.toNat) = List.range' current (next - current)) :
    Progress layerCount perNode (seen ++ [e]) next (stages ++ [stage]) where
  current_eq := by
    have := h.current_eq
    rw [List.length_append, Nat.add_mul, List.length_singleton]
    omega
  busy _ := by rw [List.length_append, List.length_append, h.busy hlt]; rfl
  short := by
    have := h.short
    rw [List.length_append, List.length_singleton]
    omega
  nodes := by
    have hall := h.nodes.eq_of_length (by rw [List.length_map, List.length_map, h.busy hlt])
    rw [List.map_append, List.map_append, hall, List.map_singleton, hnode]
    exact List.prefix_refl _
  ids := by
    rw [List.map_append, h.ids, List.length_append, List.length_singleton, List.range_succ,
      List.map_singleton, hid]
  runs s hs := by
    rcases List.mem_append.1 hs with hs | hs
    · exact h.runs s hs
    · obtain rfl := List.mem_singleton.1 hs
      exact ⟨current, next - current - 1, by rw [hlayers]; congr 1; omega⟩
  covers := by
    have hsplit : List.range' 0 current ++ List.range' (0 + current) (next - current) =
        List.range' 0 next := by
      rw [List.range'_append_1]
      congr 1
      omega
    rw [List.flatMap_append, List.map_append, h.covers, List.flatMap_singleton, hlayers,
      List.range_eq_range', List.range_eq_range', ← hsplit, Nat.zero_add]

end

/-- **The loop**: it visits all nodes, and the sum of `current` and the share never overflows. -/
theorem Progress.stageLoop {metadata : ModelMetadata} {perNode : UInt32}
    (hper : 0 < perNode.toNat) (hle : perNode.toNat ≤ metadata.layerCount.toNat)
    (hcount : metadata.layerCount.toNat ≤ 2 ^ 24) (nodes seen : List (NodeId × PhysicalNode))
    (current : UInt32) (stages : List StagePlan)
    (h : Progress metadata.layerCount.toNat perNode.toNat seen current.toNat stages) :
    Progress metadata.layerCount.toNat perNode.toNat (seen ++ nodes)
      (Planner.stageLoop metadata perNode nodes seen.length current stages).2.toNat
      (Planner.stageLoop metadata perNode nodes seen.length current stages).1 := by
  induction nodes generalizing seen current stages with
  | nil => simpa [Planner.stageLoop] using h
  | cons e rest ih =>
    have hcurrent := h.current_le
    have hend : (min (current + perNode) metadata.layerCount).toNat =
        min (current.toNat + perNode.toNat) metadata.layerCount.toNat := by
      have hadd : (current + perNode).toNat = current.toNat + perNode.toNat :=
        (UInt32.toNat_add _ _).trans (Nat.mod_eq_of_lt (by omega))
      rw [toNat_min, hadd]
    have hlen : seen.length + 1 = (seen ++ [e]).length := by simp
    rw [List.append_cons, Planner.stageLoop, hlen]
    simp only
    split
    · next hempty =>
      rw [layerRange_isEmpty, hend] at hempty
      exact ih (seen ++ [e]) current stages (h.idle (by omega) e)
    · next hsome =>
      rw [layerRange_isEmpty, hend] at hsome
      have hlt : current.toNat < metadata.layerCount.toNat := by omega
      have hid : (UInt32.ofNat seen.length).toNat = stages.length := by
        have := h.short
        rw [← h.busy hlt]
        exact Nat.mod_eq_of_lt (by omega)
      refine ih (seen ++ [e]) _ _ (h.place hlt hper hend hid rfl ?_)
      rw [map_toNat_layerRange, hend]

/-- The loop over some of the available nodes places all layers. -/
theorem stageLoop_placement {cluster : LogicalCluster} {metadata : ModelMetadata}
    {nodes : List (NodeId × PhysicalNode)} (hpos : 1 ≤ metadata.layerCount.toNat)
    (hle : metadata.layerCount.toNat ≤ 2 ^ 24) (hne : nodes ≠ [])
    (hsub : nodes.Sublist (availableNodes cluster)) :
    Placement cluster metadata.layerCount.toNat
        (stageLoop metadata (layersPerNode metadata.layerCount nodes) nodes 0 0 []).1 ∧
      (stageLoop metadata (layersPerNode metadata.layerCount nodes) nodes 0 0 []).2 =
        metadata.layerCount := by
  obtain ⟨henough, hshare⟩ := layersPerNode_spec hpos hle hne
  have hper : 0 < (layersPerNode metadata.layerCount nodes).toNat := by
    refine Nat.pos_of_ne_zero fun h => ?_
    rw [h] at henough
    omega
  have h := (Progress.start _ _).stageLoop hper hshare hle nodes [] 0 []
  simp only [List.nil_append, List.length_nil] at h
  generalize stageLoop metadata (layersPerNode metadata.layerCount nodes) nodes 0 0 [] = r at h ⊢
  have hall : r.2.toNat = metadata.layerCount.toNat := by
    rw [h.current_eq]
    omega
  refine ⟨⟨?_, h.ids, ?_, ?_, h.runs, hall ▸ h.covers⟩, UInt32.toNat_inj.1 hall⟩
  · -- without stages there would be no layer
    intro hnil
    have hcovers := congrArg List.length h.covers
    rw [hnil, hall] at hcovers
    simp at hcovers
    omega
  · exact h.nodes.sublist.nodup ((hsub.map _).nodup (nodup_availableNodes cluster))
  · intro s hs
    have hmem := h.nodes.subset (List.mem_map_of_mem hs)
    obtain ⟨e, he, hnode⟩ := List.mem_map.1 hmem
    obtain ⟨hlookup, hhealthy⟩ := mem_availableNodes.1 (hsub.subset he)
    exact ⟨e.2, hnode ▸ hlookup, hhealthy⟩

/-! ## The partition -/

/-- The nodes the stages of a strategy are placed on. -/
def stageNodes (cluster : LogicalCluster) (strategy : ParallelismStrategy) :
    List (NodeId × PhysicalNode) :=
  if strategy = .pipelineHybrid ∧ gpuNodes (availableNodes cluster) ≠ [] then
    gpuNodes (availableNodes cluster)
  else availableNodes cluster

theorem stageNodes_sublist (cluster : LogicalCluster) (strategy : ParallelismStrategy) :
    (stageNodes cluster strategy).Sublist (availableNodes cluster) := by
  unfold stageNodes
  split
  · exact List.filter_sublist
  · exact List.Sublist.refl _

theorem stageNodes_ne_nil {cluster : LogicalCluster} (h : availableNodes cluster ≠ [])
    (strategy : ParallelismStrategy) : stageNodes cluster strategy ≠ [] := by
  unfold stageNodes
  split
  · next hgpu => exact hgpu.2
  · exact h

theorem partitionPipeline_eq {cluster : LogicalCluster} (h : availableNodes cluster ≠ [])
    (request : PlanningRequest) : partitionPipeline request cluster =
      .ok (stageLoop request.modelMetadata
        (layersPerNode request.modelMetadata.layerCount (availableNodes cluster))
        (availableNodes cluster) 0 0 []).1 :=
  if_neg (by rwa [List.isEmpty_iff])

/-- A call with the hybrid strategy on a cluster with a GPU, and any other call. -/
theorem partitionModel_cases (request : PlanningRequest) (cluster : LogicalCluster)
    (strategy : ParallelismStrategy) :
    ¬ (strategy = .pipelineHybrid ∧ gpuNodes (availableNodes cluster) ≠ []) ∧
        partitionModel request cluster strategy = partitionPipeline request cluster ∨
      (strategy = .pipelineHybrid ∧ gpuNodes (availableNodes cluster) ≠ []) ∧
        let r := stageLoop request.modelMetadata
          (layersPerNode request.modelMetadata.layerCount (gpuNodes (availableNodes cluster)))
          (gpuNodes (availableNodes cluster)) 0 0 []
        partitionModel request cluster strategy =
          .ok (cpuStage request.modelMetadata (availableNodes cluster) r.1 r.2) := by
  by_cases hempty : (availableNodes cluster).isEmpty
  · have hgpu : gpuNodes (availableNodes cluster) = [] := by
      rw [List.isEmpty_iff.1 hempty]
      rfl
    exact .inl ⟨fun h => h.2 hgpu, (if_pos hempty).trans (if_pos hempty).symm⟩
  unfold partitionModel
  rw [if_neg hempty]
  cases strategy with
  | pipelineHybrid =>
    by_cases hgpu : gpuNodes (availableNodes cluster) = []
    · exact .inl ⟨fun h => h.2 hgpu, if_pos (List.isEmpty_iff.2 hgpu)⟩
    · exact .inr ⟨⟨rfl, hgpu⟩, if_neg (by rwa [List.isEmpty_iff])⟩
  | pipeline | tensor | expert | data => exact .inl ⟨by simp, rfl⟩

/-- Whatever the strategy, the stages are those of the loop over `stageNodes`. -/
theorem partitionModel_eq {request : PlanningRequest} {cluster : LogicalCluster}
    (hpos : 1 ≤ request.modelMetadata.layerCount.toNat)
    (hle : request.modelMetadata.layerCount.toNat ≤ 2 ^ 24) (h : availableNodes cluster ≠ [])
    (strategy : ParallelismStrategy) : partitionModel request cluster strategy =
      .ok (stageLoop request.modelMetadata
        (layersPerNode request.modelMetadata.layerCount (stageNodes cluster strategy))
        (stageNodes cluster strategy) 0 0 []).1 := by
  have hplaced := (stageLoop_placement hpos hle (stageNodes_ne_nil h strategy)
    (stageNodes_sublist cluster strategy)).2
  rcases partitionModel_cases request cluster strategy with ⟨hno, heq⟩ | ⟨hhybrid, heq⟩
  · have hnodes : stageNodes cluster strategy = availableNodes cluster := if_neg hno
    rw [heq, hnodes, partitionPipeline_eq h]
  · have hnodes : stageNodes cluster strategy = gpuNodes (availableNodes cluster) :=
      if_pos hhybrid
    rw [hnodes] at hplaced ⊢
    rw [heq, cpuStage, hplaced, if_neg (UInt32.lt_irrefl _)]

theorem partitionModel_of_nil {cluster : LogicalCluster} (h : availableNodes cluster = [])
    (request : PlanningRequest) (strategy : ParallelismStrategy) :
    partitionModel request cluster strategy = .err .noAvailableNodes :=
  if_pos (List.isEmpty_iff.2 h)

theorem placement_of_partitionModel {request : PlanningRequest} {cluster : LogicalCluster}
    {strategy : ParallelismStrategy} {stages : List StagePlan}
    (hpos : 1 ≤ request.modelMetadata.layerCount.toNat)
    (hle : request.modelMetadata.layerCount.toNat ≤ 2 ^ 24)
    (h : partitionModel request cluster strategy = .ok stages) :
    Placement cluster request.modelMetadata.layerCount.toNat stages := by
  by_cases hempty : availableNodes cluster = []
  · rw [partitionModel_of_nil hempty] at h
    cases h
  · rw [partitionModel_eq hpos hle hempty] at h
    cases h
    exact (stageLoop_placement hpos hle (stageNodes_ne_nil hempty strategy)
      (stageNodes_sublist cluster strategy)).1

/-- The stages of a plan are a partition of the request's layers. -/
theorem createPlan_placement {request : PlanningRequest} {cluster : LogicalCluster}
    {plan : ExecutionPlan} (hpos : 1 ≤ request.modelMetadata.layerCount.toNat)
    (hle : request.modelMetadata.layerCount.toNat ≤ 2 ^ 24)
    (h : createPlan request cluster = .ok plan) :
    Placement cluster request.modelMetadata.layerCount.toNat plan.stages := by
  obtain ⟨strategy, -, hrest⟩ := Outcome.bind_ok.1 h
  obtain ⟨stages, hstages, hplan⟩ := Outcome.bind_ok.1 hrest
  cases hplan
  exact placement_of_partitionModel hpos hle hstages

/-- **Every layer is placed exactly once**: the partition fails exactly when no node is healthy, and
is a `Placement` otherwise. -/
theorem partitionModel_places (request : PlanningRequest) (cluster : LogicalCluster)
    (strategy : ParallelismStrategy) (hpos : 1 ≤ request.modelMetadata.layerCount.toNat)
    (hle : request.modelMetadata.layerCount.toNat ≤ 2 ^ 24) :
    (partitionModel request cluster strategy = .err .noAvailableNodes ↔
      ∀ nodeId node, cluster.nodes.lookup nodeId = some node → node.status ≠ .healthy) ∧
    ((∃ nodeId node, cluster.nodes.lookup nodeId = some node ∧ node.status = .healthy) →
      ∃ stages, partitionModel request cluster strategy = .ok stages ∧
        Placement cluster request.modelMetadata.layerCount.toNat stages) := by
  have hnone : availableNodes cluster = [] ↔
      ∀ nodeId node, cluster.nodes.lookup nodeId = some node → node.status ≠ .healthy := by
    rw [List.eq_nil_iff_forall_not_mem]
    refine ⟨fun h nodeId node hlookup hhealthy =>
      h (nodeId, node) (mem_availableNodes.2 ⟨hlookup, hhealthy⟩), fun h e he => ?_⟩
    obtain ⟨hlookup, hhealthy⟩ := mem_availableNodes.1 he
    exact h e.1 e.2 hlookup hhealthy
  by_cases hempty : availableNodes cluster = []
  · refine ⟨⟨fun _ => hnone.1 hempty, fun _ => ?_⟩, ?_⟩
    · exact partitionModel_of_nil hempty request strategy
    · rintro ⟨nodeId, node, hlookup, hhealthy⟩
      exact absurd hhealthy (hnone.1 hempty nodeId node hlookup)
  · have heq := partitionModel_eq hpos hle hempty strategy
    refine ⟨⟨fun h => ?_, fun h => absurd (hnone.2 h) hempty⟩, fun _ =>
      ⟨_, heq, placement_of_partitionModel hpos hle heq⟩⟩
    rw [heq] at h
    cases h

/-- A model of 32 layers. -/
def smallRequest : PlanningRequest where
  modelId := "llama-2-7b"
  modelMetadata := ⟨7000000000, 32, "llama2", "q4_k_m", 4294967296⟩
  contextLength := 4096
  batchSize := 1
  preferredStrategy := none

/-- The 32 layers go to the only node of the small cluster. -/
theorem partitionModel_places_small :
    ∃ stages, partitionModel smallRequest smallCluster .pipelineHybrid = .ok stages ∧
      Placement smallCluster 32 stages :=
  (partitionModel_places smallRequest smallCluster .pipelineHybrid (by decide) (by decide)).2
    ⟨⟨1⟩, smallNode ⟨1⟩ ⟨0⟩, by decide, rfl⟩

end Planner

end TensorGrid
