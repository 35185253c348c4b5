import TensorGrid.Planner.Model

/-!
# The reservation for the KV cache

`plan_kv_cache` multiplies 16384 bytes, the context length and the number of layers as `u64`s, and
compares the product with the device memory. The product of a request can have 78 bits; it wraps, as
in a release build, and then a cache that fits nowhere is reported to fit. `kvCacheExact_iff`: the
plan is right exactly if the number of tokens times layers is below 2 ^ 50.
-/

namespace TensorGrid.Planner

open Rust

/-- The bytes of the whole cache. -/
def kvBytes (request : PlanningRequest) : Nat :=
  16384 * request.contextLength.toNat * request.modelMetadata.layerCount.toNat

theorem toNat_reservedBytes (request : PlanningRequest) (cluster : LogicalCluster) :
    (planKvCache request cluster).reservedBytes.toNat = kvBytes request % 2 ^ 64 := by
  simp only [planKvCache, kvBytes, UInt64.toNat_mul, UInt32.toNat_toUInt64]
  rw [Nat.mod_mul_mod]
  rfl

theorem policy_eq_stageLocal_iff (request : PlanningRequest) (cluster : LogicalCluster) :
    (planKvCache request cluster).policy = .stageLocal ↔
      (planKvCache request cluster).reservedBytes.toNat ≤
        cluster.logicalResources.deviceMemoryBytes.toNat := by
  rw [← UInt64.le_iff_toNat_le, ← UInt64.not_lt]
  dsimp only [planKvCache]
  split_ifs with h
  · exact iff_of_false (fun h => by cases h) fun hle => hle h
  · exact iff_of_true rfl h

/-- The product wraps from 2 ^ 64 on. -/
theorem reservedBytes_eq_iff (request : PlanningRequest) (cluster : LogicalCluster) :
    (planKvCache request cluster).reservedBytes.toNat = kvBytes request ↔
      request.contextLength.toNat * request.modelMetadata.layerCount.toNat < 2 ^ 50 := by
  rw [toNat_reservedBytes, kvBytes, Nat.mul_assoc]
  omega

/-- The plan is right about the bytes, and about whether they fit. -/
structure KvCacheExact (request : PlanningRequest) (cluster : LogicalCluster) : Prop where
  reserved : (planKvCache request cluster).reservedBytes.toNat = kvBytes request
  policy : (planKvCache request cluster).policy = .stageLocal ↔
    kvBytes request ≤ cluster.logicalResources.deviceMemoryBytes.toNat

/-- **The reservation is exact** if the tokens times the layers are below 2 ^ 50, and only then. -/
theorem kvCacheExact_iff (request : PlanningRequest) (cluster : LogicalCluster) :
    KvCacheExact request cluster ↔
      request.contextLength.toNat * request.modelMetadata.layerCount.toNat < 2 ^ 50 := by
  rw [← reservedBytes_eq_iff request cluster]
  refine ⟨fun h => h.reserved, fun hreserved => ⟨hreserved, ?_⟩⟩
  rw [policy_eq_stageLocal_iff, hreserved]

/-- The same for the plans that are made. -/
theorem createPlan_reservedBytes {request : PlanningRequest} {cluster : LogicalCluster}
    {plan : ExecutionPlan} (h : createPlan request cluster = .ok plan) :
    plan.kvCache.reservedBytes.toNat = kvBytes request ↔
      request.contextLength.toNat * request.modelMetadata.layerCount.toNat < 2 ^ 50 := by
  obtain ⟨strategy, -, h⟩ := Outcome.bind_ok.1 h
  obtain ⟨stages, -, h⟩ := Outcome.bind_ok.1 h
  cases h
  exact reservedBytes_eq_iff request cluster

/-- 2 ^ 25 tokens and as many layers. -/
def hugeContext : PlanningRequest :=
  ⟨"model", ⟨0, 33554432, "llama", "f16", 0⟩, 33554432, 1, none⟩

/-- A cluster without memory. -/
def bareCluster : LogicalCluster := ⟨⟨0⟩, "cluster", ⟨0, 0, 0, 0, .pipeline⟩, ∅, ⟨∅, []⟩⟩

/-- A cache of 2 ^ 64 bytes is reported to fit, with no bytes reserved. -/
theorem not_kvCacheExact_huge :
    planKvCache hugeContext bareCluster = ⟨.stageLocal, 0⟩ ∧
      ¬ KvCacheExact hugeContext bareCluster := by
  have hplan : planKvCache hugeContext bareCluster = ⟨.stageLocal, 0⟩ := by decide
  refine ⟨hplan, fun h => ?_⟩
  have hreserved := h.reserved
  rw [hplan] at hreserved
  exact absurd hreserved (by decide)

end TensorGrid.Planner
