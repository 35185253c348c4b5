import TensorGrid.Lib.HashMap

/-!
# Core data structures of the cluster

The types shared by the coordinator, the node agents, the scheduler and the planner
(`crates/cluster-types`). `u32` and `u64` are `UInt32` and `UInt64`, `f32` is Lean's IEEE
`Float32`, and a `HashMap` is a `Rust.HashMap`, whose entry order is the iteration order.
-/

namespace TensorGrid

open Rust

/-- A 128-bit identifier. -/
structure Uuid where
  val : BitVec 128
deriving DecidableEq, Repr

/-- `DateTime<Utc>`: nanoseconds since the epoch. -/
structure DateTime where
  nanos : Int
deriving DecidableEq, Repr

/-- `DateTime::timestamp`: whole seconds since the epoch. -/
def DateTime.timestamp (t : DateTime) : Int := t.nanos / 1000000000

abbrev NodeId := Uuid
abbrev ClusterId := Uuid
abbrev ModelId := String
abbrev SessionId := Uuid
abbrev TensorId := String

/-! ## Nodes -/

structure CpuCapabilities where
  architecture : String
  cores : UInt32
  threads : UInt32
  frequencyMhz : UInt32
  features : List String
  numaNodes : UInt32
deriving DecidableEq, Repr

inductive GpuVendor
  | nvidia | amd | intel | apple | unknown
deriving DecidableEq, Repr

inductive Precision
  | fp32 | fp16 | bf16 | int8 | int4 | fp8
deriving DecidableEq, Repr

structure GpuCapabilities where
  id : String
  name : String
  vendor : GpuVendor
  vramBytes : UInt64
  computeCapability : Option String
  supportsPeerToPeer : Bool
  supportsNvml : Bool
  supportedPrecisions : List Precision
deriving DecidableEq, Repr

structure MemoryCapabilities where
  totalBytes : UInt64
  availableBytes : UInt64
  bandwidthMbps : UInt64
deriving DecidableEq, Repr

structure StorageCapabilities where
  totalBytes : UInt64
  availableBytes : UInt64
  readThroughputMbps : UInt32
  writeThroughputMbps : UInt32
deriving DecidableEq, Repr

structure NetworkInterface where
  name : String
  ipAddress : String
  macAddress : String
  bandwidthMbps : UInt32
  supportsRdma : Bool
deriving DecidableEq, Repr

structure NetworkCapabilities where
  interfaces : List NetworkInterface
deriving DecidableEq, Repr

inductive RuntimeBackend
  | ggml | cuda | rocm | mlx | vulkan | cpu
deriving DecidableEq, Repr

structure NodeCapabilities where
  cpu : CpuCapabilities
  gpus : List GpuCapabilities
  memory : MemoryCapabilities
  storage : StorageCapabilities
  network : NetworkCapabilities
  supportedRuntimes : List RuntimeBackend
deriving DecidableEq, Repr

structure GpuUsage where
  deviceId : String
  utilizationPercent : Float32
  vramUsedBytes : UInt64
  temperatureCelsius : Float32
  powerDrawWatts : Option Float32
deriving DecidableEq, Repr

structure NodeResources where
  cpuUsagePercent : Float32
  memoryUsedBytes : UInt64
  memoryCommittedBytes : UInt64
  gpuUsage : List GpuUsage
  networkTxMbps : Float32
  networkRxMbps : Float32
  temperatureCelsius : Option Float32
deriving DecidableEq, Repr

structure Schedule where
  allowedHours : List String
deriving DecidableEq, Repr

structure NodePermissions where
  maxCpuPercent : UInt8
  maxCpuThreads : Option UInt32
  maxRamBytes : UInt64
  gpuEnabled : Bool
  maxVramBytes : UInt64
  maxStorageBytes : UInt64
  allowWhenOnBattery : Bool
  pauseWhenUserActive : Bool
  allowedSchedule : Option Schedule
deriving DecidableEq, Repr

inductive NodeStatus
  | healthy | suspect | unavailable | draining | maintenance
deriving DecidableEq, Repr

structure PhysicalNode where
  id : NodeId
  name : String
  hostname : String
  clusterId : ClusterId
  capabilities : NodeCapabilities
  resources : NodeResources
  permissions : NodePermissions
  status : NodeStatus
  lastHeartbeat : DateTime
  certificateFingerprint : Option String
deriving DecidableEq, Repr

/-! ## Logical cluster -/

inductive ParallelismStrategy
  | pipeline | tensor | pipelineHybrid | expert | data
deriving DecidableEq, Repr

structure LogicalResources where
  cpuComputeUnits : Float32
  hostMemoryBytes : UInt64
  deviceMemoryBytes : UInt64
  storageBytes : UInt64
  preferredParallelism : ParallelismStrategy
deriving DecidableEq, Repr

structure NodeTopology where
  cpuScore : Float32
  ramUsableBytes : UInt64
  devices : List String
deriving DecidableEq, Repr

structure LinkMeasurement where
  source : NodeId
  target : NodeId
  transport : String
  latencyUs : UInt32
  bandwidthMbps : UInt32
  jitterUs : UInt32
  packetLossPercent : Float32
deriving DecidableEq, Repr

structure ClusterTopology where
  nodes : HashMap NodeId NodeTopology
  links : List LinkMeasurement

structure LogicalCluster where
  id : ClusterId
  name : String
  logicalResources : LogicalResources
  nodes : HashMap NodeId PhysicalNode
  topology : ClusterTopology

/-! ## Tensors and plans -/

inductive PlacementRole
  | primary | replica | warmCopy
deriving DecidableEq, Repr

structure PhysicalPlacement where
  nodeId : NodeId
  device : String
  offset : UInt64
  length : UInt64
  role : PlacementRole
deriving DecidableEq, Repr

structure PerformanceEstimate where
  loadSeconds : Float32
  promptTokensPerSecond : Float32
  decodeTokensPerSecond : Float32
deriving DecidableEq, Repr

structure StagePlan where
  id : UInt32
  nodeId : NodeId
  device : String
  layers : List UInt32
  weightBytes : UInt64
deriving DecidableEq, Repr

inductive KvCachePolicy
  | stageLocal | stageLocalWithHostSpill | distributed
deriving DecidableEq, Repr

structure KvCachePlan where
  policy : KvCachePolicy
  reservedBytes : UInt64
deriving DecidableEq, Repr

structure ExecutionPlan where
  modelId : ModelId
  strategy : ParallelismStrategy
  estimated : PerformanceEstimate
  stages : List StagePlan
  kvCache : KvCachePlan
deriving DecidableEq, Repr

/-! ## A cluster of one node -/

/-- A healthy node with eight cores, 16 GiB of memory and no GPU. -/
def smallNode (id : NodeId) (clusterId : ClusterId) : PhysicalNode where
  id := id
  name := "node"
  hostname := "node.local"
  clusterId := clusterId
  capabilities :=
    { cpu := ⟨"x86_64", 8, 16, 3000, [], 1⟩, gpus := []
      memory := ⟨17179869184, 17179869184, 25600⟩, storage := ⟨0, 0, 0, 0⟩, network := ⟨[]⟩
      supportedRuntimes := [.cpu] }
  resources := ⟨0.0, 0, 0, [], 0.0, 0.0, none⟩
  permissions := ⟨100, none, 17179869184, true, 0, 0, true, false, none⟩
  status := .healthy
  lastHeartbeat := ⟨0⟩
  certificateFingerprint := none

/-- The cluster whose only node is `smallNode ⟨1⟩`. -/
def smallCluster : LogicalCluster where
  id := ⟨0⟩
  name := "cluster"
  logicalResources := ⟨8.0, 17179869184, 17179869184, 0, .pipeline⟩
  nodes := (∅ : HashMap NodeId PhysicalNode).insert ⟨1⟩ (smallNode ⟨1⟩ ⟨0⟩)
  topology := ⟨∅, []⟩

end TensorGrid
