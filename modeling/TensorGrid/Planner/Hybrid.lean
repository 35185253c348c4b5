import TensorGrid.Planner.Balance

/-!
# The hybrid strategy

The hybrid branch runs the loop of the pipeline over the Healthy nodes that have a GPU, and then
looks for layers that are left. As the shares cover all layers, none are: the result is that of the
pipeline on the cluster of those nodes (`partitionModel_hybrid`).
-/

namespace TensorGrid.Planner

open Rust

/-- A Healthy node with a GPU. -/
def healthyGpu (node : PhysicalNode) : Bool :=
  node.status = .healthy && !node.capabilities.gpus.isEmpty

/-- The cluster of the Healthy nodes that have a GPU, in the same order. -/
def onGpuNodes (cluster : LogicalCluster) : LogicalCluster :=
  { cluster with nodes := cluster.nodes.retain fun _ node => healthyGpu node }

theorem availableNodes_onGpuNodes (cluster : LogicalCluster) :
    availableNodes (onGpuNodes cluster) = gpuNodes (availableNodes cluster) := by
  simp only [availableNodes, gpuNodes, onGpuNodes, HashMap.retain, List.filter_filter,
    List.filter_map]
  congr 1
  refine List.filter_congr fun e _ => ?_
  cases hgpus : e.2.capabilities.gpus.isEmpty <;> simp [healthyGpu, hgpus]

theorem gpuNodes_eq_nil_iff {cluster : LogicalCluster} :
    gpuNodes (availableNodes cluster) = [] ↔
      ¬ ∃ nodeId node, cluster.nodes.lookup nodeId = some node ∧ healthyGpu node = true := by
  have hmem (e : NodeId × PhysicalNode) : e ∈ gpuNodes (availableNodes cluster) ↔
      cluster.nodes.lookup e.1 = some e.2 ∧ healthyGpu e.2 = true := by
    rw [gpuNodes, List.mem_filter, show e = (e.1, e.2) from rfl, mem_availableNodes]
    simp [healthyGpu, and_assoc]
  rw [List.eq_nil_iff_forall_not_mem]
  constructor
  · rintro h ⟨nodeId, node, hnode⟩
    exact h (nodeId, node) ((hmem _).2 hnode)
  · exact fun h e he => h ⟨e.1, e.2, (hmem e).1 he⟩

/-! ## Without layers -/

/-- Without layers the loop makes no stages. -/
theorem stageLoop_zero {metadata : ModelMetadata} (hzero : metadata.layerCount = 0)
    (perNode : UInt32) (nodes : List (NodeId × PhysicalNode)) (i : Nat) (stages : List StagePlan) :
    stageLoop metadata perNode nodes i 0 stages = (stages, 0) := by
  induction nodes generalizing i with
  | nil => rfl
  | cons e rest ih =>
    have hempty : (layerRange 0 (min (0 + perNode) metadata.layerCount)).isEmpty := by
      rw [layerRange_isEmpty, toNat_min, hzero]
      exact min_le_right _ _
    rw [stageLoop]
    simp only [hempty, if_true]
    exact ih (i + 1)

/-- The loop leaves no layer. -/
theorem stageLoop_complete {metadata : ModelMetadata} {nodes : List (NodeId × PhysicalNode)}
    {cluster : LogicalCluster} (hle : metadata.layerCount.toNat ≤ 2 ^ 24) (hne : nodes ≠ [])
    (hsub : nodes.Sublist (availableNodes cluster)) :
    (stageLoop metadata (layersPerNode metadata.layerCount nodes) nodes 0 0 []).2 =
      metadata.layerCount := by
  by_cases hzero : metadata.layerCount = 0
  · rw [stageLoop_zero hzero, hzero]
  · have hpos : 1 ≤ metadata.layerCount.toNat :=
      Nat.pos_of_ne_zero fun h => hzero (UInt32.toNat_inj.1 h)
    exact (stageLoop_placement hpos hle hne hsub).2

/-! ## Devices -/

/-- Every stage is on the device that was selected on its node. -/
theorem device_of_mem_stageLoop {metadata : ModelMetadata} {perNode : UInt32}
    {nodes : List (NodeId × PhysicalNode)} {i : Nat} {current : UInt32} {stages : List StagePlan}
    {s : StagePlan} (hs : s ∈ (stageLoop metadata perNode nodes i current stages).1) :
    s ∈ stages ∨ ∃ e ∈ nodes, s.nodeId = e.1 ∧ s.device = selectDevice e.2 := by
  induction nodes generalizing i current stages with
  | nil => exact .inl hs
  | cons e rest ih =>
    rw [stageLoop] at hs
    dsimp only at hs
    split at hs
    · rcases ih hs with hold | ⟨f, hf, hnode, hdevice⟩
      · exact .inl hold
      · exact .inr ⟨f, .tail _ hf, hnode, hdevice⟩
    · rcases ih hs with hold | ⟨f, hf, hnode, hdevice⟩
      · rcases List.mem_append.1 hold with hold | hnew
        · exact .inl hold
        · obtain rfl := List.mem_singleton.1 hnew
          exact .inr ⟨e, .head _, rfl, rfl⟩
      · exact .inr ⟨f, .tail _ hf, hnode, hdevice⟩

theorem selectDevice_ne_cpu {node : PhysicalNode} (h : node.capabilities.gpus.isEmpty = false) :
    selectDevice node ≠ "cpu:0" := by
  unfold selectDevice
  split
  · intro heq
    have hchars := congrArg String.toList heq
    rw [String.toList_append] at hchars
    exact absurd (congrArg (·[1]?) hchars) (by simp)
  · next hnone => simp [hnone] at h

/-! ## The theorem -/

theorem partitionModel_pipeline (request : PlanningRequest) (cluster : LogicalCluster) :
    partitionModel request cluster .pipeline = partitionPipeline request cluster := by
  rcases partitionModel_cases request cluster .pipeline with ⟨-, heq⟩ | ⟨⟨hno, -⟩, -⟩
  · exact heq
  · cases hno

/-- The CPU stage is never needed: the GPU nodes take all layers. -/
theorem partitionModel_of_gpu {request : PlanningRequest} {cluster : LogicalCluster}
    (hle : request.modelMetadata.layerCount.toNat ≤ 2 ^ 24)
    (hgpu : gpuNodes (availableNodes cluster) ≠ []) :
    partitionModel request cluster .pipelineHybrid =
      .ok (stageLoop request.modelMetadata
        (layersPerNode request.modelMetadata.layerCount (gpuNodes (availableNodes cluster)))
        (gpuNodes (availableNodes cluster)) 0 0 []).1 := by
  rcases partitionModel_cases request cluster .pipelineHybrid with ⟨hno, -⟩ | ⟨-, heq⟩
  · exact absurd ⟨rfl, hgpu⟩ hno
  · rw [heq, cpuStage, stageLoop_complete hle hgpu List.filter_sublist,
      if_neg (UInt32.lt_irrefl _)]

/-- **The hybrid strategy is the pipeline on the GPU nodes**, and makes no CPU stage, if there are
any; else it is the pipeline. -/
theorem partitionModel_hybrid (request : PlanningRequest) (cluster : LogicalCluster)
    (hle : request.modelMetadata.layerCount.toNat ≤ 2 ^ 24) :
    ((∃ nodeId node, cluster.nodes.lookup nodeId = some node ∧ healthyGpu node = true) →
      partitionModel request cluster .pipelineHybrid =
        partitionModel request (onGpuNodes cluster) .pipeline ∧
      ∀ stages, partitionModel request cluster .pipelineHybrid = .ok stages →
        ∀ s ∈ stages, s.device ≠ "cpu:0") ∧
    ((¬ ∃ nodeId node, cluster.nodes.lookup nodeId = some node ∧ healthyGpu node = true) →
      partitionModel request cluster .pipelineHybrid =
        partitionModel request cluster .pipeline) := by
  refine ⟨fun hex => ?_, fun hno => ?_⟩
  · have hgpu : gpuNodes (availableNodes cluster) ≠ [] := fun h => gpuNodes_eq_nil_iff.1 h hex
    have hnodes : availableNodes (onGpuNodes cluster) ≠ [] := by
      rwa [availableNodes_onGpuNodes]
    refine ⟨?_, fun stages hstages s hs => ?_⟩
    · rw [partitionModel_of_gpu hle hgpu, partitionModel_pipeline, partitionPipeline_eq hnodes,
        availableNodes_onGpuNodes]
    · obtain rfl := Outcome.ok.inj ((partitionModel_of_gpu hle hgpu).symm.trans hstages)
      rcases device_of_mem_stageLoop hs with hold | ⟨e, he, -, hdevice⟩
      · cases hold
      · rw [hdevice]
        exact selectDevice_ne_cpu (by simpa using (List.mem_filter.1 he).2)
  · rcases partitionModel_cases request cluster .pipelineHybrid with ⟨-, heq⟩ | ⟨⟨-, hgpu⟩, -⟩
    · rw [heq, partitionModel_pipeline]
    · exact absurd (gpuNodes_eq_nil_iff.2 hno) hgpu

/-- A GPU of 8 GiB. -/
def smallGpu : GpuCapabilities where
  id := "0"
  name := "gpu"
  vendor := .nvidia
  vramBytes := 8589934592
  computeCapability := none
  supportsPeerToPeer := false
  supportsNvml := true
  supportedPrecisions := []

/-- The second of the three nodes has a GPU. -/
def mixedNodes : LogicalCluster :=
  { threeNodes with
    nodes := threeNodes.nodes.modify ⟨2⟩ fun node =>
      { node with capabilities := { node.capabilities with gpus := [smallGpu] } } }

/-- All 32 layers go to the node that has a GPU. -/
theorem partitionModel_hybrid_mixed :
    partitionModel smallRequest mixedNodes .pipelineHybrid =
        partitionModel smallRequest (onGpuNodes mixedNodes) .pipeline ∧
      ∀ stages, partitionModel smallRequest mixedNodes .pipelineHybrid = .ok stages →
        ∀ s ∈ stages, s.device ≠ "cpu:0" :=
  (partitionModel_hybrid smallRequest mixedNodes (by decide)).1 ⟨⟨2⟩, _, rfl, by decide⟩

end TensorGrid.Planner
