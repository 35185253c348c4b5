import TensorGrid.Lib.Chunks
import TensorGrid.Planner.Partition

/-!
# How evenly the layers are divided

Each node is given the rounded-up share until the layers run out, so what is missing falls on the
last nodes: node `j` of `n` has `Chunks.size layers share j` layers (`layersOn_stageLoop`), and the
numbers of layers differ by at most one exactly if there is at most one layer for each node, or `n`
divides the number of layers or the number after it (`evenlyPlaced_iff`).
-/

namespace TensorGrid.Planner

open Rust

/-- The layers of the stages on a node. -/
def layersOn (stages : List StagePlan) (nodeId : NodeId) : Nat :=
  (stages.map fun s => if s.nodeId = nodeId then s.layers.length else 0).sum

/-- For up to `2 ^ 24` layers the share is the exact ceiling. -/
theorem layersPerNode_eq {layerCount : UInt32} {nodes : List (NodeId × PhysicalNode)}
    (hpos : 1 ≤ layerCount.toNat) (hle : layerCount.toNat ≤ 2 ^ 24) (hne : nodes ≠ []) :
    (layersPerNode layerCount nodes).toNat = layerCount.toNat ⌈/⌉ nodes.length := by
  have hlen : 0 < nodes.length := List.length_pos_iff.2 hne
  rcases Nat.lt_or_ge nodes.length UInt64.size with hlt | hge
  · have hcount := UInt64.toNat_ofNatClamp_of_lt hlt
    rw [layersPerNode, Binary32.ceilAsU32_div hpos hle (hcount.symm ▸ hlen), hcount]
  · -- there are fewer layers than the clamped number of nodes
    have hcount := UInt64.toNat_ofNatClamp_of_le hge
    have hsize : UInt64.size = 2 ^ 64 := rfl
    have hone (n : Nat) (hn : layerCount.toNat ≤ n) : layerCount.toNat ⌈/⌉ n = 1 := by
      refine le_antisymm ?_ (Nat.pos_of_ne_zero fun h => ?_)
      · rw [ceilDiv_le_iff_le_mul (by omega)]
        omega
      · have := (ceilDiv_le_iff_le_mul (b := layerCount.toNat) (c := 0) (show 0 < n by omega)).1
          h.le
        omega
    rw [layersPerNode, Binary32.ceilAsU32_div hpos hle (hcount.symm ▸ by decide), hcount,
      hone _ (by omega), hone _ (by omega)]

/-! ## The loop -/

theorem length_layerRange (first last : UInt32) :
    (layerRange first last).length = last.toNat - first.toNat := by
  simp [layerRange]

section
variable {metadata : ModelMetadata} {perNode : UInt32}

/-- **One round of the loop**: the node has the next run of layers. -/
theorem stageLoop_round (hper : perNode.toNat ≤ 2 ^ 24)
    (hcount : metadata.layerCount.toNat ≤ 2 ^ 24) {current : UInt32} {k : Nat}
    (hcurrent : current.toNat = Chunks.start metadata.layerCount.toNat perNode.toNat k)
    (e : NodeId × PhysicalNode) (rest : List (NodeId × PhysicalNode)) (i : Nat)
    (stages : List StagePlan) : ∃ next stages',
    stageLoop metadata perNode (e :: rest) i current stages =
        stageLoop metadata perNode rest (i + 1) next stages' ∧
      next.toNat = Chunks.start metadata.layerCount.toNat perNode.toNat (k + 1) ∧
      ∀ nodeId, layersOn stages' nodeId = layersOn stages nodeId +
        if e.1 = nodeId then Chunks.size metadata.layerCount.toNat perNode.toNat k else 0 := by
  have hle : current.toNat ≤ metadata.layerCount.toNat := hcurrent.le.trans (min_le_right _ _)
  have hend : (min (current + perNode) metadata.layerCount).toNat =
      Chunks.start metadata.layerCount.toNat perNode.toNat (k + 1) := by
    have hadd : (current + perNode).toNat = current.toNat + perNode.toNat :=
      (UInt32.toNat_add _ _).trans (Nat.mod_eq_of_lt (by omega))
    rw [Chunks.start] at hcurrent
    rw [toNat_min, hadd, Chunks.start, Nat.add_mul]
    omega
  have hsize : (layerRange current (min (current + perNode) metadata.layerCount)).length =
      Chunks.size metadata.layerCount.toNat perNode.toNat k := by
    rw [length_layerRange, hend, hcurrent, Chunks.size]
  rw [stageLoop]
  dsimp only
  split
  · next hempty =>
    have hzero : Chunks.size metadata.layerCount.toNat perNode.toNat k = 0 := by
      rw [← hsize, List.isEmpty_iff.1 hempty, List.length_nil]
    refine ⟨current, stages, rfl, ?_, fun nodeId => by simp [hzero]⟩
    rw [hcurrent, ← Chunks.start_add_size, hzero, Nat.add_zero]
  · refine ⟨_, _, rfl, hend, fun nodeId => ?_⟩
    rw [layersOn, List.map_append, List.sum_append, List.map_singleton, List.sum_singleton, hsize,
      layersOn]

/-- **The loop**: node `j` has run `k + j`, and no other node gets a layer. -/
theorem layersOn_stageLoop (hper : perNode.toNat ≤ 2 ^ 24)
    (hcount : metadata.layerCount.toNat ≤ 2 ^ 24) {nodes : List (NodeId × PhysicalNode)}
    (hnodup : (nodes.map Prod.fst).Nodup) {current : UInt32} {k : Nat}
    (hcurrent : current.toNat = Chunks.start metadata.layerCount.toNat perNode.toNat k) (i : Nat)
    (stages : List StagePlan) :
    (∀ nodeId ∉ nodes.map Prod.fst,
      layersOn (stageLoop metadata perNode nodes i current stages).1 nodeId =
        layersOn stages nodeId) ∧
    ∀ j e, nodes[j]? = some e →
      layersOn (stageLoop metadata perNode nodes i current stages).1 e.1 =
        layersOn stages e.1 + Chunks.size metadata.layerCount.toNat perNode.toNat (k + j) := by
  induction nodes generalizing current k i stages with
  | nil => exact ⟨fun _ _ => rfl, fun j e he => by simp at he⟩
  | cons e₀ rest ih =>
    rw [List.map_cons, List.nodup_cons] at hnodup
    obtain ⟨next, stages', heq, hnext, hlayers⟩ :=
      stageLoop_round hper hcount hcurrent e₀ rest i stages
    obtain ⟨hother, hnode⟩ := ih hnodup.2 hnext (i + 1) stages'
    rw [heq]
    refine ⟨fun nodeId hno => ?_, fun j e he => ?_⟩
    · rw [List.map_cons, List.mem_cons, not_or] at hno
      rw [hother nodeId hno.2, hlayers, if_neg (Ne.symm hno.1), Nat.add_zero]
    · cases j with
      | zero =>
        obtain rfl := Option.some.inj he
        rw [hother _ hnodup.1, hlayers, if_pos rfl, Nat.add_zero]
      | succ j =>
        have hmem : e.1 ∈ rest.map Prod.fst :=
          List.mem_map_of_mem (List.mem_of_getElem? (show rest[j]? = some e from he))
        have hne : e₀.1 ≠ e.1 := fun h => hnodup.1 (h ▸ hmem)
        rw [hnode j e he, hlayers, if_neg hne, Nat.add_zero, Nat.add_right_comm, Nat.add_assoc k]

end

/-! ## Even partitions -/

/-- The Healthy nodes. -/
def HealthyIn (cluster : LogicalCluster) (nodeId : NodeId) : Prop :=
  ∃ node, cluster.nodes.lookup nodeId = some node ∧ node.status = .healthy

/-- The pipeline gives any two Healthy nodes numbers of layers that differ by at most one, and none
of them nothing if there are as many layers as nodes. -/
def EvenlyPlaced (request : PlanningRequest) (cluster : LogicalCluster) : Prop :=
  ∃ stages, partitionModel request cluster .pipeline = .ok stages ∧
    (∀ a b, HealthyIn cluster a → HealthyIn cluster b →
      layersOn stages a ≤ layersOn stages b + 1) ∧
    ((availableNodes cluster).length ≤ request.modelMetadata.layerCount.toNat →
      ∀ a, HealthyIn cluster a → 0 < layersOn stages a)

theorem healthyIn_iff {cluster : LogicalCluster} {nodeId : NodeId} :
    HealthyIn cluster nodeId ↔ ∃ (j : Nat) (e : NodeId × PhysicalNode),
      (availableNodes cluster)[j]? = some e ∧ e.1 = nodeId := by
  constructor
  · rintro ⟨node, hnode⟩
    obtain ⟨j, hj⟩ := List.mem_iff_getElem?.1 (mem_availableNodes.2 hnode)
    exact ⟨j, _, hj, rfl⟩
  · rintro ⟨j, e, he, rfl⟩
    exact ⟨e.2, mem_availableNodes.1 (List.mem_of_getElem? he)⟩

theorem availableNodes_ne_nil {cluster : LogicalCluster}
    (h : ∃ nodeId, HealthyIn cluster nodeId) : availableNodes cluster ≠ [] := by
  obtain ⟨nodeId, node, hnode⟩ := h
  exact List.ne_nil_of_mem (mem_availableNodes.2 hnode)

/-- Node `j` has run `j`. -/
theorem layersOn_partitionModel {request : PlanningRequest} {cluster : LogicalCluster}
    (hpos : 1 ≤ request.modelMetadata.layerCount.toNat)
    (hle : request.modelMetadata.layerCount.toNat ≤ 2 ^ 24) (hne : availableNodes cluster ≠ []) :
    ∃ stages, partitionModel request cluster .pipeline = .ok stages ∧
      ∀ j e, (availableNodes cluster)[j]? = some e → layersOn stages e.1 =
        Chunks.size request.modelMetadata.layerCount.toNat
          (request.modelMetadata.layerCount.toNat ⌈/⌉ (availableNodes cluster).length) j := by
  have hnodes : stageNodes cluster .pipeline = availableNodes cluster := if_neg (by simp)
  have hshare := layersPerNode_eq hpos hle hne
  have hper := (layersPerNode_spec hpos hle hne).2.trans hle
  refine ⟨_, partitionModel_eq hpos hle hne .pipeline, fun j e he => ?_⟩
  rw [hnodes]
  have hstart : (0 : UInt32).toNat = Chunks.start request.modelMetadata.layerCount.toNat
      (layersPerNode request.modelMetadata.layerCount (availableNodes cluster)).toNat 0 := by
    simp [Chunks.start]
  have h := (layersOn_stageLoop hper hle (nodup_availableNodes cluster) hstart 0 []).2 j e he
  rw [h, hshare, Nat.zero_add]
  exact Nat.zero_add _

/-- **When the layers are divided evenly.** -/
theorem evenlyPlaced_iff (request : PlanningRequest) (cluster : LogicalCluster)
    (hpos : 1 ≤ request.modelMetadata.layerCount.toNat)
    (hle : request.modelMetadata.layerCount.toNat ≤ 2 ^ 24)
    (hne : ∃ nodeId, HealthyIn cluster nodeId) :
    EvenlyPlaced request cluster ↔
      request.modelMetadata.layerCount.toNat ≤ (availableNodes cluster).length ∨
      (availableNodes cluster).length ∣ request.modelMetadata.layerCount.toNat ∨
      (availableNodes cluster).length ∣ request.modelMetadata.layerCount.toNat + 1 := by
  have hnodes := availableNodes_ne_nil hne
  have hcount : 0 < (availableNodes cluster).length := List.length_pos_iff.2 hnodes
  obtain ⟨stages, hstages, hlayers⟩ := layersOn_partitionModel hpos hle hnodes
  have hnode (j : Nat) (hj : j < (availableNodes cluster).length) : ∃ nodeId,
      HealthyIn cluster nodeId ∧ layersOn stages nodeId =
        Chunks.size request.modelMetadata.layerCount.toNat
          (request.modelMetadata.layerCount.toNat ⌈/⌉ (availableNodes cluster).length) j := by
    have he := List.getElem?_eq_getElem hj
    exact ⟨_, healthyIn_iff.2 ⟨j, _, he, rfl⟩, hlayers j _ he⟩
  rw [← Chunks.even_iff hcount]
  constructor
  · rintro ⟨stages', hstages', heven, -⟩ i hi j hj
    obtain rfl : stages = stages' := Outcome.ok.inj (hstages.symm.trans hstages')
    obtain ⟨a, ha, hai⟩ := hnode i hi
    obtain ⟨b, hb, hbj⟩ := hnode j hj
    rw [← hai, ← hbj]
    exact heven a b ha hb
  · intro heven
    refine ⟨stages, hstages, fun a b ha hb => ?_, fun henough a ha => ?_⟩
    · obtain ⟨i, e, he, rfl⟩ := healthyIn_iff.1 ha
      obtain ⟨j, f, hf, rfl⟩ := healthyIn_iff.1 hb
      rw [hlayers i e he, hlayers j f hf]
      exact heven i (List.getElem?_eq_some_iff.1 he).1 j (List.getElem?_eq_some_iff.1 hf).1
    · obtain ⟨j, e, he, rfl⟩ := healthyIn_iff.1 ha
      rw [hlayers j e he]
      exact heven.size_pos henough (List.getElem?_eq_some_iff.1 he).1

/-- Three nodes like the one of `smallCluster`. -/
def threeNodes : LogicalCluster :=
  { smallCluster with
    nodes := [⟨3⟩, ⟨2⟩].foldl (fun nodes n => nodes.insert n (smallNode n ⟨0⟩))
      smallCluster.nodes }

/-- A model of `layerCount` layers and 100 bytes. -/
def requestFor (layerCount : UInt32) : PlanningRequest :=
  { smallRequest with modelMetadata := ⟨100, layerCount, "llama2", "q4_k_m", 100⟩ }

theorem healthyIn_threeNodes : HealthyIn threeNodes ⟨1⟩ := ⟨smallNode ⟨1⟩ ⟨0⟩, rfl, rfl⟩

theorem evenlyPlaced_iff_three : EvenlyPlaced (requestFor 5) threeNodes ↔
    (requestFor 5).modelMetadata.layerCount.toNat ≤ (availableNodes threeNodes).length ∨
    (availableNodes threeNodes).length ∣ (requestFor 5).modelMetadata.layerCount.toNat ∨
    (availableNodes threeNodes).length ∣ (requestFor 5).modelMetadata.layerCount.toNat + 1 :=
  evenlyPlaced_iff (requestFor 5) threeNodes (by decide) (by decide) ⟨_, healthyIn_threeNodes⟩

/-- Of four layers the first two nodes have two each, and the third has none. -/
theorem not_evenlyPlaced_four : ¬ EvenlyPlaced (requestFor 4) threeNodes := by
  rintro ⟨stages, hstages, heven, -⟩
  obtain ⟨stages', hstages', hlayers⟩ := @layersOn_partitionModel (requestFor 4) threeNodes
    (by decide) (by decide) (by decide)
  obtain rfl : stages = stages' := Outcome.ok.inj (hstages.symm.trans hstages')
  have hfirst := hlayers 0 (⟨2⟩, smallNode ⟨2⟩ ⟨0⟩) rfl
  have hlast := hlayers 2 (⟨1⟩, smallNode ⟨1⟩ ⟨0⟩) rfl
  have hle := heven _ _ (healthyIn_iff.2 ⟨0, _, rfl, rfl⟩) (healthyIn_iff.2 ⟨2, _, rfl, rfl⟩)
  rw [hfirst, hlast] at hle
  exact absurd hle (by decide)

end TensorGrid.Planner
