import TensorGrid.ClusterTypes
import TensorGrid.Lib.CeilDiv
import TensorGrid.Lib.Outcome

/-!
# The planner

The planning service of `services/planner`: the choice of a strategy, the partition of the model's
layers into stages, the size of the KV cache and the performance estimate. The node map of the
cluster is visited in the order of its entries. Both branches of `partition_model` run the same loop
(`stageLoop`) over their nodes; a call of `partition_model` with the strategy `Pipeline` is
`partitionPipeline`.

Sums and products are those of `UInt32` and `UInt64`; log lines and metric counters are left out.
-/

namespace TensorGrid

open Rust

structure ModelMetadata where
  parameterCount : UInt64
  layerCount : UInt32
  architecture : String
  quantization : String
  estimatedWeightBytes : UInt64
deriving DecidableEq, Repr

structure PlanningRequest where
  modelId : ModelId
  modelMetadata : ModelMetadata
  contextLength : UInt32
  batchSize : UInt32
  preferredStrategy : Option ParallelismStrategy
deriving DecidableEq, Repr

inductive PlanningError
  | noAvailableNodes
  | modelTooLarge
  | invalidPlan (message : String)
  | internal (message : String)
deriving DecidableEq, Repr

namespace Planner

/-! ## Strategy -/

/-- The average of a measurement over the links, `1000` without links. The number of links is cut to
32 bits, and a division by zero panics. -/
def averageOver (measure : LinkMeasurement → UInt32) (topology : ClusterTopology) :
    Outcome PlanningError UInt32 :=
  if topology.links.isEmpty then .ok 1000
  else
    let total := topology.links.foldl (fun total l => total + measure l) 0
    let count := UInt32.ofNat topology.links.length
    if count = 0 then .panic else .ok (total / count)

def calculateAverageBandwidth (topology : ClusterTopology) : Outcome PlanningError UInt32 :=
  averageOver (·.bandwidthMbps) topology

def calculateAverageLatency (topology : ClusterTopology) : Outcome PlanningError UInt32 :=
  averageOver (·.latencyUs) topology

def selectStrategy (request : PlanningRequest) (cluster : LogicalCluster) :
    Outcome PlanningError ParallelismStrategy :=
  match request.preferredStrategy with
  | some strategy => .ok strategy
  | none => do
    let avgBandwidth ← calculateAverageBandwidth cluster.topology
    let avgLatency ← calculateAverageLatency cluster.topology
    if avgBandwidth ≥ 10000 ∧ avgLatency < 100 then .ok .pipelineHybrid
    else if avgBandwidth ≥ 2500 ∧ avgLatency < 500 then .ok .pipeline
    else if avgBandwidth ≥ 1000 then .ok .pipelineHybrid
    else .ok .pipeline

/-! ## Stages -/

def estimateStageWeight (layers : List UInt32) (totalWeightBytes : UInt64) (totalLayers : UInt32) :
    UInt64 :=
  let layerFraction := (UInt64.ofNatClamp layers.length).toFloat32 / totalLayers.toFloat32
  (totalWeightBytes.toFloat32 * layerFraction).toUInt64

def selectDevice (node : PhysicalNode) : String :=
  match node.capabilities.gpus with
  | gpu :: _ => "cuda:" ++ gpu.id
  | [] => "cpu:0"

/-- `(first..last).collect()`. -/
def layerRange (first last : UInt32) : List UInt32 :=
  (List.range' first.toNat (last.toNat - first.toNat)).map UInt32.ofNat

/-- The rounded-up share of a node, `(layer_count as f32 / nodes.len() as f32).ceil() as u32`. -/
def layersPerNode (layerCount : UInt32) (nodes : List (NodeId × PhysicalNode)) : UInt32 :=
  Binary32.ceilAsU32 (layerCount.toFloat32 / (UInt64.ofNatClamp nodes.length).toFloat32)

/-- The loop over the nodes: `i` numbers them and `current` is the next layer to place. The result
is the stages and the next layer after the last node. -/
def stageLoop (metadata : ModelMetadata) (perNode : UInt32) :
    List (NodeId × PhysicalNode) → Nat → UInt32 → List StagePlan → List StagePlan × UInt32
  | [], _, current, stages => (stages, current)
  | (nodeId, node) :: rest, i, current, stages =>
    let endLayer := min (current + perNode) metadata.layerCount
    let layers := layerRange current endLayer
    if layers.isEmpty then stageLoop metadata perNode rest (i + 1) current stages
    else
      let stage : StagePlan :=
        { id := UInt32.ofNat i
          nodeId
          device := selectDevice node
          layers
          weightBytes :=
            estimateStageWeight layers metadata.estimatedWeightBytes metadata.layerCount }
      stageLoop metadata perNode rest (i + 1) endLayer (stages ++ [stage])

def availableNodes (cluster : LogicalCluster) : List (NodeId × PhysicalNode) :=
  (cluster.nodes.entries.filter fun e => e.2.status = .healthy).map fun e => (e.1, e.2)

def gpuNodes (nodes : List (NodeId × PhysicalNode)) : List (NodeId × PhysicalNode) :=
  nodes.filter fun e => !e.2.capabilities.gpus.isEmpty

def cpuNodes (nodes : List (NodeId × PhysicalNode)) : List (NodeId × PhysicalNode) :=
  nodes.filter fun e => e.2.capabilities.gpus.isEmpty

/-- `partition_model` with the strategy `Pipeline`. -/
def partitionPipeline (request : PlanningRequest) (cluster : LogicalCluster) :
    Outcome PlanningError (List StagePlan) :=
  let nodes := availableNodes cluster
  if nodes.isEmpty then .err .noAvailableNodes
  else
    let metadata := request.modelMetadata
    .ok (stageLoop metadata (layersPerNode metadata.layerCount nodes) nodes 0 0 []).1

/-- The stage on the first node without a GPU, for the layers the GPU nodes have left. -/
def cpuStage (metadata : ModelMetadata) (nodes : List (NodeId × PhysicalNode))
    (stages : List StagePlan) (current : UInt32) : List StagePlan :=
  if current < metadata.layerCount then
    match cpuNodes nodes with
    | [] => stages
    | (nodeId, _) :: _ =>
      let layers := layerRange current metadata.layerCount
      stages ++
        [{ id := UInt32.ofNat stages.length
           nodeId
           device := "cpu:0"
           layers
           weightBytes :=
             estimateStageWeight layers metadata.estimatedWeightBytes metadata.layerCount }]
  else stages

def partitionModel (request : PlanningRequest) (cluster : LogicalCluster)
    (strategy : ParallelismStrategy) : Outcome PlanningError (List StagePlan) :=
  let nodes := availableNodes cluster
  if nodes.isEmpty then .err .noAvailableNodes
  else
    match strategy with
    | .pipeline => partitionPipeline request cluster
    | .pipelineHybrid =>
      if (gpuNodes nodes).isEmpty then partitionPipeline request cluster
      else
        let metadata := request.modelMetadata
        let layersPerGpu := layersPerNode metadata.layerCount (gpuNodes nodes)
        let (stages, current) := stageLoop metadata layersPerGpu (gpuNodes nodes) 0 0 []
        .ok (cpuStage metadata nodes stages current)
    | .tensor | .expert | .data => partitionPipeline request cluster

/-! ## Estimates -/

/-- `2 * 4096 * 2` bytes for each token and layer. -/
def planKvCache (request : PlanningRequest) (cluster : LogicalCluster) : KvCachePlan :=
  let totalKvBytes := 2 * 4096 * 2 * request.contextLength.toUInt64 *
    request.modelMetadata.layerCount.toUInt64
  { policy :=
      if totalKvBytes > cluster.logicalResources.deviceMemoryBytes then .stageLocalWithHostSpill
      else .stageLocal
    reservedBytes := totalKvBytes }

def stageScore (node : PhysicalNode) (stage : StagePlan) : Float32 :=
  if stage.device.startsWith "cuda" || stage.device.startsWith "gpu" then
    match node.capabilities.gpus with
    | gpu :: _ => gpu.vramBytes.toFloat32 / (1024.0 * 1024.0 * 1024.0) * 10.0
    | [] => 5.0
  else node.capabilities.cpu.cores.toFloat32 * 0.5

/-- `f32::min`: a NaN is ignored. -/
def minF32 (a b : Float32) : Float32 :=
  if a.isNaN then b else if b.isNaN then a else if b < a then b else a

def estimatePerformance (request : PlanningRequest) (cluster : LogicalCluster)
    (stages : List StagePlan) (kvCache : KvCachePlan) : PerformanceEstimate :=
  let loadSeconds :=
    request.modelMetadata.estimatedWeightBytes.toFloat32 / (100.0 * 1024.0 * 1024.0) + 5.0
  let stageScores := stages.filterMap fun stage =>
    (cluster.nodes.lookup stage.nodeId).map (stageScore · stage)
  let minScore := stageScores.foldl minF32 (1.0 / 0.0)
  let decodeTokensPerSecond := if minScore.isFinite then minScore else 1.0
  { loadSeconds
    promptTokensPerSecond := decodeTokensPerSecond * 3.0
    decodeTokensPerSecond :=
      match kvCache.policy with
      | .stageLocalWithHostSpill => decodeTokensPerSecond * 0.7
      | .stageLocal | .distributed => decodeTokensPerSecond }

def createPlan (request : PlanningRequest) (cluster : LogicalCluster) :
    Outcome PlanningError ExecutionPlan := do
  let strategy ← selectStrategy request cluster
  let stages ← partitionModel request cluster strategy
  let kvCache := planKvCache request cluster
  let estimated := estimatePerformance request cluster stages kvCache
  .ok { modelId := request.modelId, strategy, estimated, stages, kvCache }

end Planner

end TensorGrid
