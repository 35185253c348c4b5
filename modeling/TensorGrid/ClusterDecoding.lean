import TensorGrid.ClusterJson
import TensorGrid.Lib.JsonStructs

/-!
# Reading the JSON of the cluster's types

serde's derived decoders of the types in `ClusterTypes` that a request carries. Capabilities come
back as they were sent. `serde_json` writes `null` for an `f32` that is not finite, so resources come
back if their required readings are finite, and without the optional ones that are not.
-/

namespace TensorGrid

open Rust

/-! ## Capabilities -/

def CpuCapabilities.deserialize (v : Json) : Option CpuCapabilities := do
  match ← v.members ["architecture", "cores", "threads", "frequency_mhz", "features",
    "numa_nodes"] with
  | [architecture, cores, threads, frequencyMhz, features, numaNodes] =>
    some { architecture := ← architecture.bind Json.asStr, cores := ← cores.bind Json.asU32
           threads := ← threads.bind Json.asU32, frequencyMhz := ← frequencyMhz.bind Json.asU32
           features := ← features.bind (Json.asList Json.asStr)
           numaNodes := ← numaNodes.bind Json.asU32 }
  | _ => none

def GpuVendor.deserialize (v : Json) : Option GpuVendor :=
  match v.asVariant with
  | some "Nvidia" => some nvidia
  | some "Amd" => some amd
  | some "Intel" => some intel
  | some "Apple" => some apple
  | some "Unknown" => some unknown
  | _ => none

def Precision.deserialize (v : Json) : Option Precision :=
  match v.asVariant with
  | some "Fp32" => some fp32
  | some "Fp16" => some fp16
  | some "Bf16" => some bf16
  | some "Int8" => some int8
  | some "Int4" => some int4
  | some "Fp8" => some fp8
  | _ => none

def GpuCapabilities.deserialize (v : Json) : Option GpuCapabilities := do
  match ← v.members ["id", "name", "vendor", "vram_bytes", "compute_capability",
    "supports_peer_to_peer", "supports_nvml", "supported_precisions"] with
  | [id, name, vendor, vramBytes, computeCapability, supportsPeerToPeer, supportsNvml,
      supportedPrecisions] =>
    some { id := ← id.bind Json.asStr, name := ← name.bind Json.asStr
           vendor := ← vendor.bind GpuVendor.deserialize
           vramBytes := ← vramBytes.bind Json.asU64
           computeCapability := ← Json.optional Json.asStr computeCapability
           supportsPeerToPeer := ← supportsPeerToPeer.bind Json.asBool
           supportsNvml := ← supportsNvml.bind Json.asBool
           supportedPrecisions := ←
             supportedPrecisions.bind (Json.asList Precision.deserialize) }
  | _ => none

def MemoryCapabilities.deserialize (v : Json) : Option MemoryCapabilities := do
  match ← v.members ["total_bytes", "available_bytes", "bandwidth_mbps"] with
  | [totalBytes, availableBytes, bandwidthMbps] =>
    some { totalBytes := ← totalBytes.bind Json.asU64
           availableBytes := ← availableBytes.bind Json.asU64
           bandwidthMbps := ← bandwidthMbps.bind Json.asU64 }
  | _ => none

def StorageCapabilities.deserialize (v : Json) : Option StorageCapabilities := do
  match ← v.members ["total_bytes", "available_bytes", "read_throughput_mbps",
    "write_throughput_mbps"] with
  | [totalBytes, availableBytes, readThroughputMbps, writeThroughputMbps] =>
    some { totalBytes := ← totalBytes.bind Json.asU64
           availableBytes := ← availableBytes.bind Json.asU64
           readThroughputMbps := ← readThroughputMbps.bind Json.asU32
           writeThroughputMbps := ← writeThroughputMbps.bind Json.asU32 }
  | _ => none

def NetworkInterface.deserialize (v : Json) : Option NetworkInterface := do
  match ← v.members ["name", "ip_address", "mac_address", "bandwidth_mbps", "supports_rdma"] with
  | [name, ipAddress, macAddress, bandwidthMbps, supportsRdma] =>
    some { name := ← name.bind Json.asStr, ipAddress := ← ipAddress.bind Json.asStr
           macAddress := ← macAddress.bind Json.asStr
           bandwidthMbps := ← bandwidthMbps.bind Json.asU32
           supportsRdma := ← supportsRdma.bind Json.asBool }
  | _ => none

def NetworkCapabilities.deserialize (v : Json) : Option NetworkCapabilities := do
  match ← v.members ["interfaces"] with
  | [interfaces] =>
    some { interfaces := ← interfaces.bind (Json.asList NetworkInterface.deserialize) }
  | _ => none

def RuntimeBackend.deserialize (v : Json) : Option RuntimeBackend :=
  match v.asVariant with
  | some "GGML" => some ggml
  | some "CUDA" => some cuda
  | some "ROCm" => some rocm
  | some "MLX" => some mlx
  | some "Vulkan" => some vulkan
  | some "CPU" => some cpu
  | _ => none

def NodeCapabilities.deserialize (v : Json) : Option NodeCapabilities := do
  match ← v.members ["cpu", "gpus", "memory", "storage", "network", "supported_runtimes"] with
  | [cpu, gpus, memory, storage, network, supportedRuntimes] =>
    some { cpu := ← cpu.bind CpuCapabilities.deserialize
           gpus := ← gpus.bind (Json.asList GpuCapabilities.deserialize)
           memory := ← memory.bind MemoryCapabilities.deserialize
           storage := ← storage.bind StorageCapabilities.deserialize
           network := ← network.bind NetworkCapabilities.deserialize
           supportedRuntimes := ←
             supportedRuntimes.bind (Json.asList RuntimeBackend.deserialize) }
  | _ => none

/-! ## Resources -/

def GpuUsage.deserialize (v : Json) : Option GpuUsage := do
  match ← v.members ["device_id", "utilization_percent", "vram_used_bytes", "temperature_celsius",
    "power_draw_watts"] with
  | [deviceId, utilizationPercent, vramUsedBytes, temperatureCelsius, powerDrawWatts] =>
    some { deviceId := ← deviceId.bind Json.asStr
           utilizationPercent := ← utilizationPercent.bind Json.asF32
           vramUsedBytes := ← vramUsedBytes.bind Json.asU64
           temperatureCelsius := ← temperatureCelsius.bind Json.asF32
           powerDrawWatts := ← Json.optional Json.asF32 powerDrawWatts }
  | _ => none

def NodeResources.deserialize (v : Json) : Option NodeResources := do
  match ← v.members ["cpu_usage_percent", "memory_used_bytes", "memory_committed_bytes",
    "gpu_usage", "network_tx_mbps", "network_rx_mbps", "temperature_celsius"] with
  | [cpuUsagePercent, memoryUsedBytes, memoryCommittedBytes, gpuUsage, networkTxMbps,
      networkRxMbps, temperatureCelsius] =>
    some { cpuUsagePercent := ← cpuUsagePercent.bind Json.asF32
           memoryUsedBytes := ← memoryUsedBytes.bind Json.asU64
           memoryCommittedBytes := ← memoryCommittedBytes.bind Json.asU64
           gpuUsage := ← gpuUsage.bind (Json.asList GpuUsage.deserialize)
           networkTxMbps := ← networkTxMbps.bind Json.asF32
           networkRxMbps := ← networkRxMbps.bind Json.asF32
           temperatureCelsius := ← Json.optional Json.asF32 temperatureCelsius }
  | _ => none

/-! ## Round trips -/

theorem CpuCapabilities.deserialize_serialize (cpu : CpuCapabilities) :
    deserialize cpu.serialize = some cpu := by
  rw [deserialize, serialize, Json.members_object (by rfl) (by decide)]
  simp [Json.asList_of_forall Json.asStr_string]

theorem GpuVendor.deserialize_serialize (vendor : GpuVendor) :
    deserialize vendor.serialize = some vendor := by
  cases vendor <;> rfl

theorem Precision.deserialize_serialize (precision : Precision) :
    deserialize precision.serialize = some precision := by
  cases precision <;> rfl

theorem GpuCapabilities.deserialize_serialize (gpu : GpuCapabilities) :
    deserialize gpu.serialize = some gpu := by
  rw [deserialize, serialize, Json.members_object (by rfl) (by decide)]
  simp [GpuVendor.deserialize_serialize, Json.optional_string,
    Json.asList_of_forall Precision.deserialize_serialize]

theorem MemoryCapabilities.deserialize_serialize (memory : MemoryCapabilities) :
    deserialize memory.serialize = some memory := by
  rw [deserialize, serialize, Json.members_object (by rfl) (by decide)]
  simp

theorem StorageCapabilities.deserialize_serialize (storage : StorageCapabilities) :
    deserialize storage.serialize = some storage := by
  rw [deserialize, serialize, Json.members_object (by rfl) (by decide)]
  simp

theorem NetworkInterface.deserialize_serialize (interface : NetworkInterface) :
    deserialize interface.serialize = some interface := by
  rw [deserialize, serialize, Json.members_object (by rfl) (by decide)]
  simp

theorem NetworkCapabilities.deserialize_serialize (network : NetworkCapabilities) :
    deserialize network.serialize = some network := by
  rw [deserialize, serialize, Json.members_object (by rfl) (by decide)]
  simp [Json.asList_of_forall NetworkInterface.deserialize_serialize]

theorem RuntimeBackend.deserialize_serialize (runtime : RuntimeBackend) :
    deserialize runtime.serialize = some runtime := by
  cases runtime <;> rfl

/-- Capabilities come back as they were sent. -/
theorem NodeCapabilities.deserialize_serialize (capabilities : NodeCapabilities) :
    deserialize capabilities.serialize = some capabilities := by
  rw [deserialize, serialize, Json.members_object (by rfl) (by decide)]
  simp [CpuCapabilities.deserialize_serialize, MemoryCapabilities.deserialize_serialize,
    StorageCapabilities.deserialize_serialize, NetworkCapabilities.deserialize_serialize,
    Json.asList_of_forall GpuCapabilities.deserialize_serialize,
    Json.asList_of_forall RuntimeBackend.deserialize_serialize]

/-! ## Readings -/

/-- A finite reading is written as a number that reads as `parse` of it, any other as `null`. -/
structure Serializer.Reads (ser : Serializer) (parse : Float32 → Float32) : Prop where
  finite : ∀ x : Float32, x.isFinite → (ser.f32 x).asF32 = some (parse x)
  null : ∀ x : Float32, ¬ x.isFinite → ser.f32 x = .null

/-- The required readings are finite. -/
def GpuUsage.finite (usage : GpuUsage) : Bool :=
  usage.utilizationPercent.isFinite && usage.temperatureCelsius.isFinite

def NodeResources.finite (resources : NodeResources) : Bool :=
  resources.cpuUsagePercent.isFinite && resources.gpuUsage.all GpuUsage.finite &&
    resources.networkTxMbps.isFinite && resources.networkRxMbps.isFinite

section
variable (parse : Float32 → Float32)

/-- The reading that the decoder gets, with a reading that is not finite left out. -/
def readOptional (reading : Option Float32) : Option Float32 :=
  (reading.filter Float32.isFinite).map parse

/-- What the decoder gets. -/
def GpuUsage.read (usage : GpuUsage) : GpuUsage :=
  { usage with
    utilizationPercent := parse usage.utilizationPercent
    temperatureCelsius := parse usage.temperatureCelsius
    powerDrawWatts := readOptional parse usage.powerDrawWatts }

def NodeResources.read (resources : NodeResources) : NodeResources :=
  { resources with
    cpuUsagePercent := parse resources.cpuUsagePercent
    gpuUsage := resources.gpuUsage.map (GpuUsage.read parse)
    networkTxMbps := parse resources.networkTxMbps
    networkRxMbps := parse resources.networkRxMbps
    temperatureCelsius := readOptional parse resources.temperatureCelsius }

end

namespace Serializer.Reads

variable {ser : Serializer} {parse : Float32 → Float32}

theorem asF32 (h : ser.Reads parse) (x : Float32) :
    (ser.f32 x).asF32 = if x.isFinite then some (parse x) else none := by
  split
  · next hx => exact h.finite x hx
  · next hx =>
    rw [h.null x hx]
    rfl

theorem optional (h : ser.Reads parse) (reading : Option Float32) :
    Json.optional Json.asF32 (some (.ofOption ser.f32 reading)) =
      some (readOptional parse reading) :=
  Json.optional_ofOption h.finite h.null rfl reading

end Serializer.Reads

variable {ser : Serializer} {parse : Float32 → Float32}

theorem GpuUsage.deserialize_serialize (h : ser.Reads parse) (usage : GpuUsage) :
    deserialize (usage.serialize ser) = if usage.finite then some (usage.read parse) else none := by
  rw [deserialize, serialize, Json.members_object (by rfl) (by decide)]
  by_cases hutilization : usage.utilizationPercent.isFinite
  · by_cases htemperature : usage.temperatureCelsius.isFinite
    · simp [h.asF32, h.optional, finite, read, hutilization, htemperature]
    · simp [h.asF32, finite, hutilization, htemperature]
  · simp [h.asF32, finite, hutilization]

/-- **Resources** arrive exactly if their required readings are finite, without the optional ones
that are not. -/
theorem NodeResources.deserialize_serialize (h : ser.Reads parse) (resources : NodeResources) :
    deserialize (resources.serialize ser) =
      if resources.finite then some (resources.read parse) else none := by
  have husage := Json.asList_ofList (GpuUsage.serialize ser) GpuUsage.deserialize
    resources.gpuUsage
  simp only [GpuUsage.deserialize_serialize h, Json.mapM_ite] at husage
  rw [deserialize, serialize, Json.members_object (by rfl) (by decide)]
  simp only [List.map_cons, List.map_nil, Option.bind_eq_bind, Option.bind_some, Json.asU64_ofU64,
    husage, h.asF32, h.optional, finite, Bool.and_eq_true, and_assoc]
  by_cases hcpu : resources.cpuUsagePercent.isFinite
  · by_cases hgpus : resources.gpuUsage.all GpuUsage.finite
    · by_cases htx : resources.networkTxMbps.isFinite
      · by_cases hrx : resources.networkRxMbps.isFinite
        · simp only [hcpu, hgpus, htx, hrx, and_self, if_true, Option.bind_some]
          rfl
        · simp [hcpu, hgpus, htx, hrx]
      · simp [hcpu, hgpus, htx]
    · simp only [hcpu, hgpus, false_and, and_false, if_true, if_false, Option.bind_some,
        Option.bind_none, Bool.false_eq_true]
  · simp [hcpu]

end TensorGrid
