import TensorGrid.Coordinator.Totals

/-!
# Whether a plan fits

`prepare_plan` accepts the shards for a Healthy node if their bytes, added up, are at most those of
its GPUs and of its memory. All are `u64`s, and the sums are those of `u64`: a build without
overflow checks wraps, one with them panics. `comparesTrueSizes_iff`: the answer is the right one,
and no sum wraps, exactly if both exact sums fit and an accepted plan has a load time that does. The
load time is a product of `u32`s, which matters to a build with overflow checks only.
-/

namespace TensorGrid

open Rust ControlPlane

/-- The bytes of a node that shards can be loaded to. -/
def PhysicalNode.capacity (node : PhysicalNode) : Nat :=
  node.capabilities.bytes .device + node.capabilities.bytes .host

namespace NodeControl

variable {S : SignatureScheme} {parseStr : String → Option Uuid} {overflowChecks : Bool}

def shardBytes (shards : List ModelShardSpec) : Nat :=
  (shards.map fun shard => shard.bytes.toNat).sum

/-- The milliseconds, of which the seconds are cut to 32 bits. -/
def loadTimeMs (bytes : Nat) : Nat := bytes / (100 * 1024 * 1024) % 2 ^ 32 * 1000

/-- The plan is accepted if and only if the shards fit on the node, and the two sums that are
compared do not wrap. -/
structure ComparesTrueSizes (parseStr : String → Option Uuid) (overflowChecks : Bool)
    (s : ClusterState S) (req : PreparePlanRequest) (node : PhysicalNode) : Prop where
  reply : ∃ response, preparePlan parseStr overflowChecks s req = .ok response ∧
    (response.accepted = true ↔ shardBytes req.shards ≤ node.capacity)
  weights : (req.shards.map ModelShardSpec.bytes).sum.toNat = shardBytes req.shards
  available : (node.deviceMemory + node.hostMemory).toNat = node.capacity

/-- The sums are `u64`s, and the load time of an accepted plan is a `u32` if that is checked. -/
structure PlanFits (overflowChecks : Bool) (shards : List ModelShardSpec) (node : PhysicalNode) :
    Prop where
  weights : shardBytes shards < 2 ^ 64
  available : node.capacity < 2 ^ 64
  loadTime : overflowChecks = true → shardBytes shards ≤ node.capacity →
    loadTimeMs (shardBytes shards) < 2 ^ 32

theorem toNat_shards_eq_iff {shards : List ModelShardSpec} :
    (shards.map ModelShardSpec.bytes).sum.toNat = shardBytes shards ↔ shardBytes shards < 2 ^ 64 :=
  wraps_uInt64.sum_map_eq_iff shards

theorem toNat_available_eq_iff {node : PhysicalNode} :
    (node.deviceMemory + node.hostMemory).toNat = node.capacity ↔ node.capacity < 2 ^ 64 := by
  refine wraps_uInt64.eq_iff_lt ?_
  rw [UInt64.toNat_add, node.toNat_deviceMemory, Nat.mod_add_mod]
  rfl

/-- **A Healthy node's answer**, if the sums fit. -/
theorem preparePlanOn_of_lt {shards : List ModelShardSpec} {node : PhysicalNode}
    (hweights : shardBytes shards < 2 ^ 64) (havailable : node.capacity < 2 ^ 64) :
    preparePlanOn overflowChecks node shards =
      if node.capacity < shardBytes shards then
        .ok ⟨false, "Insufficient memory for requested shards", 0⟩
      else u32Op overflowChecks (loadTimeMs (shardBytes shards)) >>= fun estimatedLoadTimeMs =>
        .ok ⟨true, "", estimatedLoadTimeMs⟩ := by
  have hvram : node.capabilities.bytes .device < 2 ^ 64 :=
    (Nat.le_add_right _ _).trans_lt havailable
  have hsum : ((UInt64.ofNat (node.capabilities.bytes .device)).toNat +
      node.capabilities.memory.availableBytes.toNat) = node.capacity := by
    rw [UInt64.toNat_ofNat_of_lt' hvram]
    rfl
  have hmore : (UInt64.ofNat node.capacity < UInt64.ofNat (shardBytes shards)) ↔
      node.capacity < shardBytes shards := by
    rw [UInt64.lt_iff_toNat_lt, UInt64.toNat_ofNat_of_lt' havailable,
      UInt64.toNat_ofNat_of_lt' hweights]
  have hseconds : (UInt64.ofNat (shardBytes shards) / (100 * 1024 * 1024)).toUInt32.toNat * 1000 =
      loadTimeMs (shardBytes shards) := by
    rw [UInt64.toNat_toUInt32, UInt64.toNat_div, UInt64.toNat_ofNat_of_lt' hweights]
    rfl
  have hshards : sumU64 overflowChecks (fun shard => .ok shard.bytes) shards =
      (.ok (UInt64.ofNat (shardBytes shards)) : Outcome Status UInt64) :=
    sumU64_of_lt overflowChecks hweights
  have hgpus : sumU64 overflowChecks (fun gpu => .ok gpu.vramBytes) node.capabilities.gpus =
      (.ok (UInt64.ofNat (node.capabilities.bytes .device)) : Outcome Status UInt64) :=
    sumU64_of_lt overflowChecks hvram
  simp only [preparePlanOn, hshards, hgpus, Outcome.ok_bind, hsum,
    u64Op_of_lt overflowChecks havailable, gt_iff_lt, hmore, hseconds]

/-- **A plan is compared by its true size** if the sums fit, and the load time of an accepted plan
where that is checked, and only then. -/
theorem comparesTrueSizes_iff {s : ClusterState S} {req : PreparePlanRequest} {nodeId : NodeId}
    {node : PhysicalNode} (hparse : parseStr req.nodeId = some nodeId)
    (hnode : s.nodes.lookup nodeId = some node) (hhealthy : node.status = .healthy) :
    ComparesTrueSizes parseStr overflowChecks s req node ↔
      PlanFits overflowChecks req.shards node := by
  have hreply : preparePlan parseStr overflowChecks s req =
      preparePlanOn overflowChecks node req.shards := by
    simp only [preparePlan, hparse, hnode, hhealthy, ne_eq, not_true_eq_false, if_false]
  constructor
  · rintro ⟨⟨response, hresponse, haccepted⟩, hweights, havailable⟩
    have hweights := toNat_shards_eq_iff.1 hweights
    have havailable := toNat_available_eq_iff.1 havailable
    refine ⟨hweights, havailable, fun hchecks hle => ?_⟩
    rw [hreply, preparePlanOn_of_lt hweights havailable, if_neg hle.not_gt] at hresponse
    obtain ⟨loadTime, hloadTime, -⟩ := Outcome.bind_ok.1 hresponse
    exact u32Op_returns_iff.1 ⟨loadTime, hloadTime⟩ hchecks
  · rintro ⟨hweights, havailable, hloadTime⟩
    refine ⟨?_, toNat_shards_eq_iff.2 hweights, toNat_available_eq_iff.2 havailable⟩
    rw [hreply, preparePlanOn_of_lt hweights havailable]
    by_cases hlt : node.capacity < shardBytes req.shards
    · rw [if_pos hlt]
      exact ⟨_, rfl, iff_of_false Bool.false_ne_true hlt.not_ge⟩
    · have hle := not_lt.1 hlt
      obtain ⟨loadTime, hloadTime⟩ := u32Op_returns_iff.2 fun hchecks => hloadTime hchecks hle
      rw [if_neg hlt, hloadTime]
      exact ⟨_, rfl, iff_of_true rfl hle⟩

/-- Node 1 is in the map. -/
def planningState : ClusterState .symbolic :=
  { initSymbolic.cluster with
    nodes := (∅ : HashMap NodeId PhysicalNode).insert ⟨1⟩ (smallNode ⟨1⟩ ⟨0⟩) }

def planOf (shards : List UInt64) : PreparePlanRequest :=
  ⟨(⟨1⟩ : Uuid).hyphenated, shards.map ModelShardSpec.mk⟩

theorem comparesTrueSizes_iff_small :
    ComparesTrueSizes parseNodeOne false planningState (planOf [1024, 1024]) (smallNode ⟨1⟩ ⟨0⟩) ↔
      PlanFits false (planOf [1024, 1024]).shards (smallNode ⟨1⟩ ⟨0⟩) :=
  comparesTrueSizes_iff rfl rfl rfl

/-- Two shards of 2 ^ 63 bytes are accepted. -/
theorem not_comparesTrueSizes_wrapping :
    preparePlan parseNodeOne false planningState
        (planOf [9223372036854775808, 9223372036854775808]) = .ok ⟨true, "", 0⟩ ∧
      ¬ ComparesTrueSizes parseNodeOne false planningState
        (planOf [9223372036854775808, 9223372036854775808]) (smallNode ⟨1⟩ ⟨0⟩) := by
  refine ⟨rfl, fun h => ?_⟩
  exact absurd h.weights (by decide)

end NodeControl

end TensorGrid
