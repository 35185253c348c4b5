import TensorGrid.Lib.Shares
import TensorGrid.Planner.Balance
import TensorGrid.Planner.Capacity

/-!
# What the weights of the stages add up to

`estimate_stage_weight` gives a stage its part of the weight, rounded down. `exactWeight` is that
part in exact arithmetic. The stages of a partition never hold more layers than the model has
(`placed_le_of_partitionModel`), so their weights add up to at most the weight of the model, and
fall short of it by less than the number of stages if all layers are placed
(`partitionModel_weights`).
-/

namespace TensorGrid.Planner

open Rust

/-- The number of layers of the stages. -/
def placed (stages : List StagePlan) : Nat := (stages.map (·.layers.length)).sum

/-- The weight of a stage: `total_weight_bytes * layers / total_layers`, truncated. -/
def exactWeight (metadata : ModelMetadata) (stage : StagePlan) : Nat :=
  metadata.estimatedWeightBytes.toNat * stage.layers.length / metadata.layerCount.toNat

/-- The sum of the weights of the stages. -/
def totalWeight (metadata : ModelMetadata) (stages : List StagePlan) : Nat :=
  (stages.map (exactWeight metadata)).sum

theorem totalWeight_eq (metadata : ModelMetadata) (stages : List StagePlan) :
    totalWeight metadata stages = ((stages.map (·.layers.length)).map
      (Shares.share metadata.estimatedWeightBytes.toNat metadata.layerCount.toNat)).sum := by
  rw [totalWeight, List.map_map]
  rfl

theorem placed_append_singleton (stages : List StagePlan) (stage : StagePlan) :
    placed (stages ++ [stage]) = placed stages + stage.layers.length := by
  simp [placed]

/-! ## The number of layers placed -/

section
variable {metadata : ModelMetadata} {perNode : UInt32}

/-- **The loop**: the layers placed are those `current` has passed. This needs no bound on the
number of layers: where the sum with the share overflows, the node gets no stage. -/
theorem placed_stageLoop {nodes : List (NodeId × PhysicalNode)} {current : UInt32}
    {stages : List StagePlan} (i : Nat) (hplaced : placed stages = current.toNat)
    (hle : current.toNat ≤ metadata.layerCount.toNat) :
    placed (stageLoop metadata perNode nodes i current stages).1 =
        (stageLoop metadata perNode nodes i current stages).2.toNat ∧
      (stageLoop metadata perNode nodes i current stages).2.toNat ≤
        metadata.layerCount.toNat := by
  induction nodes generalizing i current stages with
  | nil => exact ⟨hplaced, hle⟩
  | cons e rest ih =>
    rw [stageLoop]
    dsimp only
    split
    · exact ih (i + 1) hplaced hle
    · next hsome =>
      rw [layerRange_isEmpty] at hsome
      refine ih (i + 1) ?_ ?_
      · rw [placed_append_singleton, length_layerRange, hplaced]
        omega
      · rw [toNat_min]
        exact min_le_right _ _

/-- The CPU stage takes layers that are left. -/
theorem placed_cpuStage_le {nodes : List (NodeId × PhysicalNode)} {current : UInt32}
    {stages : List StagePlan} (hplaced : placed stages = current.toNat)
    (hle : current.toNat ≤ metadata.layerCount.toNat) :
    placed (cpuStage metadata nodes stages current) ≤ metadata.layerCount.toNat := by
  unfold cpuStage
  split
  · split
    · exact hplaced.le.trans hle
    · rw [placed_append_singleton, length_layerRange, hplaced]
      omega
  · exact hplaced.le.trans hle

end

theorem placed_stageLoop_start (metadata : ModelMetadata) (perNode : UInt32)
    (nodes : List (NodeId × PhysicalNode)) :
    placed (stageLoop metadata perNode nodes 0 0 []).1 =
        (stageLoop metadata perNode nodes 0 0 []).2.toNat ∧
      (stageLoop metadata perNode nodes 0 0 []).2.toNat ≤ metadata.layerCount.toNat :=
  placed_stageLoop 0 rfl (Nat.zero_le _)

/-- No partition holds more layers than the model has. -/
theorem placed_le_of_partitionModel {request : PlanningRequest} {cluster : LogicalCluster}
    {strategy : ParallelismStrategy} {stages : List StagePlan}
    (h : partitionModel request cluster strategy = .ok stages) :
    placed stages ≤ request.modelMetadata.layerCount.toNat := by
  rcases partitionModel_cases request cluster strategy with ⟨-, heq⟩ | ⟨-, heq⟩
  · rw [heq] at h
    by_cases hempty : availableNodes cluster = []
    · rw [partitionPipeline, if_pos (List.isEmpty_iff.2 hempty)] at h
      cases h
    · rw [partitionPipeline_eq hempty] at h
      obtain rfl := Outcome.ok.inj h
      obtain ⟨hplaced, hle⟩ := placed_stageLoop_start request.modelMetadata
        (layersPerNode request.modelMetadata.layerCount (availableNodes cluster))
        (availableNodes cluster)
      exact hplaced.le.trans hle
  · obtain rfl := Outcome.ok.inj (heq.symm.trans h)
    obtain ⟨hplaced, hle⟩ := placed_stageLoop_start request.modelMetadata
      (layersPerNode request.modelMetadata.layerCount (gpuNodes (availableNodes cluster)))
      (gpuNodes (availableNodes cluster))
    exact placed_cpuStage_le hplaced hle

/-- A partition of the layers holds all of them. -/
theorem Placement.placed_eq {cluster : LogicalCluster} {layerCount : Nat}
    {stages : List StagePlan} (h : Placement cluster layerCount stages) :
    placed stages = layerCount := by
  have hlen := congrArg List.length h.covers
  rwa [List.length_map, List.length_flatMap, List.length_range] at hlen

/-- **What the weights of the stages add up to**: at most the weight of the model. It is that weight
exactly if the weight is zero, or all layers are placed and no stage loses a remainder; and with all
layers placed, as for up to `2 ^ 24` layers, less than a byte for each stage is missing. -/
theorem partitionModel_weights (request : PlanningRequest) (cluster : LogicalCluster)
    (strategy : ParallelismStrategy) (hpos : 1 ≤ request.modelMetadata.layerCount.toNat)
    (hne : ∃ nodeId, HealthyIn cluster nodeId) :
    ∃ stages, partitionModel request cluster strategy = .ok stages ∧
      totalWeight request.modelMetadata stages ≤
        request.modelMetadata.estimatedWeightBytes.toNat ∧
      (totalWeight request.modelMetadata stages =
          request.modelMetadata.estimatedWeightBytes.toNat ↔
        request.modelMetadata.estimatedWeightBytes = 0 ∨
        placed stages = request.modelMetadata.layerCount.toNat ∧
          ∀ s ∈ stages, request.modelMetadata.layerCount.toNat ∣
            request.modelMetadata.estimatedWeightBytes.toNat * s.layers.length) ∧
      (placed stages = request.modelMetadata.layerCount.toNat →
        request.modelMetadata.estimatedWeightBytes.toNat <
          totalWeight request.modelMetadata stages + stages.length) ∧
      (request.modelMetadata.layerCount.toNat ≤ 2 ^ 24 →
        placed stages = request.modelMetadata.layerCount.toNat) := by
  obtain ⟨stages, hstages⟩ :=
    @partitionModel_ok request cluster (availableNodes_ne_nil hne) strategy
  have hplaced := placed_le_of_partitionModel hstages
  refine ⟨stages, hstages, ?_, ?_, fun hall => ?_, fun hle => ?_⟩
  · rw [totalWeight_eq]
    exact Shares.sum_share_le hpos hplaced
  · rw [totalWeight_eq, Shares.sum_share_eq_iff hpos hplaced, List.forall_mem_map,
      ← UInt64.toNat_inj]
    rfl
  · have h := Shares.lt_sum_share_add_length
      request.modelMetadata.estimatedWeightBytes.toNat hpos hall
    rwa [← totalWeight_eq, List.length_map] at h
  · exact (placement_of_partitionModel hpos hle hstages).placed_eq

theorem partitionModel_weights_three :
    ∃ stages, partitionModel (requestFor 3) threeNodes .pipeline = .ok stages ∧
      totalWeight (requestFor 3).modelMetadata stages ≤
        (requestFor 3).modelMetadata.estimatedWeightBytes.toNat := by
  obtain ⟨stages, hstages, hle, -⟩ := partitionModel_weights (requestFor 3) threeNodes .pipeline
    (by decide) ⟨_, healthyIn_threeNodes⟩
  exact ⟨stages, hstages, hle⟩

/-- Of 100 bytes, three stages of one layer have 33 each, in exact arithmetic and in that of the
code. -/
theorem totalWeight_three_ne :
    ∃ stages, partitionModel (requestFor 3) threeNodes .pipeline = .ok stages ∧
      totalWeight (requestFor 3).modelMetadata stages = 99 ∧
      (stages.map (·.weightBytes)).sum = 99 ∧
      (requestFor 3).modelMetadata.estimatedWeightBytes = 100 :=
  ⟨_, rfl, by decide, by decide, rfl⟩

end TensorGrid.Planner
