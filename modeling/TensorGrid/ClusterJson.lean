import TensorGrid.Lib.Json
import TensorGrid.UuidText

/-!
# The JSON of the cluster's types

serde's derived encodings of the types in `ClusterTypes`: a struct is an object with its fields in
order, an enumeration the name of its variant. The texts of an `f32` and of a time are parameters.
-/

namespace TensorGrid

open Rust

/-- `serde_json` on an `f32` and chrono on a time. -/
structure Serializer where
  f32 : Float32 → Json
  dateTime : DateTime → String

def Uuid.serialize (u : Uuid) : Json := .string u.hyphenated

/-! ## Capabilities -/

def CpuCapabilities.serialize (cpu : CpuCapabilities) : Json :=
  .object [("architecture", .string cpu.architecture), ("cores", .ofU32 cpu.cores),
    ("threads", .ofU32 cpu.threads), ("frequency_mhz", .ofU32 cpu.frequencyMhz),
    ("features", .ofList .string cpu.features), ("numa_nodes", .ofU32 cpu.numaNodes)]

def GpuVendor.serialize : GpuVendor → Json
  | nvidia => .string "Nvidia"
  | amd => .string "Amd"
  | intel => .string "Intel"
  | apple => .string "Apple"
  | unknown => .string "Unknown"

def Precision.serialize : Precision → Json
  | fp32 => .string "Fp32"
  | fp16 => .string "Fp16"
  | bf16 => .string "Bf16"
  | int8 => .string "Int8"
  | int4 => .string "Int4"
  | fp8 => .string "Fp8"

def GpuCapabilities.serialize (gpu : GpuCapabilities) : Json :=
  .object [("id", .string gpu.id), ("name", .string gpu.name), ("vendor", gpu.vendor.serialize),
    ("vram_bytes", .ofU64 gpu.vramBytes),
    ("compute_capability", .ofOption .string gpu.computeCapability),
    ("supports_peer_to_peer", .bool gpu.supportsPeerToPeer),
    ("supports_nvml", .bool gpu.supportsNvml),
    ("supported_precisions", .ofList Precision.serialize gpu.supportedPrecisions)]

def MemoryCapabilities.serialize (memory : MemoryCapabilities) : Json :=
  .object [("total_bytes", .ofU64 memory.totalBytes),
    ("available_bytes", .ofU64 memory.availableBytes),
    ("bandwidth_mbps", .ofU64 memory.bandwidthMbps)]

def StorageCapabilities.serialize (storage : StorageCapabilities) : Json :=
  .object [("total_bytes", .ofU64 storage.totalBytes),
    ("available_bytes", .ofU64 storage.availableBytes),
    ("read_throughput_mbps", .ofU32 storage.readThroughputMbps),
    ("write_throughput_mbps", .ofU32 storage.writeThroughputMbps)]

def NetworkInterface.serialize (interface : NetworkInterface) : Json :=
  .object [("name", .string interface.name), ("ip_address", .string interface.ipAddress),
    ("mac_address", .string interface.macAddress),
    ("bandwidth_mbps", .ofU32 interface.bandwidthMbps),
    ("supports_rdma", .bool interface.supportsRdma)]

def NetworkCapabilities.serialize (network : NetworkCapabilities) : Json :=
  .object [("interfaces", .ofList NetworkInterface.serialize network.interfaces)]

def RuntimeBackend.serialize : RuntimeBackend → Json
  | ggml => .string "GGML"
  | cuda => .string "CUDA"
  | rocm => .string "ROCm"
  | mlx => .string "MLX"
  | vulkan => .string "Vulkan"
  | cpu => .string "CPU"

def NodeCapabilities.serialize (capabilities : NodeCapabilities) : Json :=
  .object [("cpu", capabilities.cpu.serialize),
    ("gpus", .ofList GpuCapabilities.serialize capabilities.gpus),
    ("memory", capabilities.memory.serialize), ("storage", capabilities.storage.serialize),
    ("network", capabilities.network.serialize),
    ("supported_runtimes", .ofList RuntimeBackend.serialize capabilities.supportedRuntimes)]

/-! ## Nodes -/

section
variable (ser : Serializer)

def GpuUsage.serialize (usage : GpuUsage) : Json :=
  .object [("device_id", .string usage.deviceId),
    ("utilization_percent", ser.f32 usage.utilizationPercent),
    ("vram_used_bytes", .ofU64 usage.vramUsedBytes),
    ("temperature_celsius", ser.f32 usage.temperatureCelsius),
    ("power_draw_watts", .ofOption ser.f32 usage.powerDrawWatts)]

def NodeResources.serialize (resources : NodeResources) : Json :=
  .object [("cpu_usage_percent", ser.f32 resources.cpuUsagePercent),
    ("memory_used_bytes", .ofU64 resources.memoryUsedBytes),
    ("memory_committed_bytes", .ofU64 resources.memoryCommittedBytes),
    ("gpu_usage", .ofList (GpuUsage.serialize ser) resources.gpuUsage),
    ("network_tx_mbps", ser.f32 resources.networkTxMbps),
    ("network_rx_mbps", ser.f32 resources.networkRxMbps),
    ("temperature_celsius", .ofOption ser.f32 resources.temperatureCelsius)]

def Schedule.serialize (schedule : Schedule) : Json :=
  .object [("allowed_hours", .ofList .string schedule.allowedHours)]

def NodePermissions.serialize (permissions : NodePermissions) : Json :=
  .object [("max_cpu_percent", .ofU8 permissions.maxCpuPercent),
    ("max_cpu_threads", .ofOption .ofU32 permissions.maxCpuThreads),
    ("max_ram_bytes", .ofU64 permissions.maxRamBytes),
    ("gpu_enabled", .bool permissions.gpuEnabled),
    ("max_vram_bytes", .ofU64 permissions.maxVramBytes),
    ("max_storage_bytes", .ofU64 permissions.maxStorageBytes),
    ("allow_when_on_battery", .bool permissions.allowWhenOnBattery),
    ("pause_when_user_active", .bool permissions.pauseWhenUserActive),
    ("allowed_schedule", .ofOption Schedule.serialize permissions.allowedSchedule)]

def NodeStatus.serialize : NodeStatus → Json
  | healthy => .string "Healthy"
  | suspect => .string "Suspect"
  | unavailable => .string "Unavailable"
  | draining => .string "Draining"
  | maintenance => .string "Maintenance"

def PhysicalNode.serialize (node : PhysicalNode) : Json :=
  .object [("id", node.id.serialize), ("name", .string node.name),
    ("hostname", .string node.hostname), ("cluster_id", node.clusterId.serialize),
    ("capabilities", node.capabilities.serialize), ("resources", node.resources.serialize ser),
    ("permissions", node.permissions.serialize), ("status", node.status.serialize),
    ("last_heartbeat", .string (ser.dateTime node.lastHeartbeat)),
    ("certificate_fingerprint", .ofOption .string node.certificateFingerprint)]

/-! ## The logical cluster -/

def ParallelismStrategy.serialize : ParallelismStrategy → Json
  | pipeline => .string "Pipeline"
  | tensor => .string "Tensor"
  | pipelineHybrid => .string "PipelineHybrid"
  | expert => .string "Expert"
  | data => .string "Data"

def LogicalResources.serialize (resources : LogicalResources) : Json :=
  .object [("cpu_compute_units", ser.f32 resources.cpuComputeUnits),
    ("host_memory_bytes", .ofU64 resources.hostMemoryBytes),
    ("device_memory_bytes", .ofU64 resources.deviceMemoryBytes),
    ("storage_bytes", .ofU64 resources.storageBytes),
    ("preferred_parallelism", resources.preferredParallelism.serialize)]

def NodeTopology.serialize (topology : NodeTopology) : Json :=
  .object [("cpu_score", ser.f32 topology.cpuScore),
    ("ram_usable_bytes", .ofU64 topology.ramUsableBytes),
    ("devices", .ofList .string topology.devices)]

def LinkMeasurement.serialize (link : LinkMeasurement) : Json :=
  .object [("from", link.source.serialize), ("to", link.target.serialize),
    ("transport", .string link.transport), ("latency_us", .ofU32 link.latencyUs),
    ("bandwidth_mbps", .ofU32 link.bandwidthMbps), ("jitter_us", .ofU32 link.jitterUs),
    ("packet_loss_percent", ser.f32 link.packetLossPercent)]

def ClusterTopology.serialize (topology : ClusterTopology) : Json :=
  .object [("nodes", .ofMap Uuid.hyphenated (NodeTopology.serialize ser) topology.nodes),
    ("links", .ofList (LinkMeasurement.serialize ser) topology.links)]

def LogicalCluster.serialize (cluster : LogicalCluster) : Json :=
  .object [("id", cluster.id.serialize), ("name", .string cluster.name),
    ("logical_resources", cluster.logicalResources.serialize ser),
    ("nodes", .ofMap Uuid.hyphenated (PhysicalNode.serialize ser) cluster.nodes),
    ("topology", cluster.topology.serialize ser)]

end

end TensorGrid
