import TensorGrid.Coordinator.History
import TensorGrid.Coordinator.Preparing
import TensorGrid.Planner.Capacity

/-!
# Plans for the coordinator's cluster

A plan is made from a snapshot of the cluster, what `get_logical_cluster` returns, and then the
coordinator is asked to prepare each stage. `plannedFrom_of_run`: the planner fails only if no node
is up, which the run tells, and each stage of a plan goes to a node that is. `prepares_of_run` says
what `prepare_plan` answers at any time, before or after other requests and ticks: a stage is
refused unread if its node was removed, drained or in doubt, and its size is looked at otherwise.
-/

namespace TensorGrid.ControlPlane

open Rust Planner NodeControl

variable {S : SignatureScheme} {parseStr : String → Option Uuid}
  {sha256 : List UInt8 → List UInt8}

/-- The node is listed, and neither drained nor in doubt. -/
structure Up (parseStr : String → Option Uuid) (sha256 : List UInt8 → List UInt8)
    (c₀ : ControlPlane S) (es : List CoordinatorEvent) (id : NodeId) : Prop where
  listed : Lts.Since (step parseStr sha256) (Inserts id) (Removes id) c₀ es
  drained : ¬ Drained parseStr sha256 c₀ es id
  doubted : ¬ Doubted parseStr sha256 c₀ es id

open Classical in
/-- What `prepare_plan` answers for the node after the run `es` to `c`. -/
def Prepares (parseStr : String → Option Uuid) (sha256 : List UInt8 → List UInt8)
    (overflowChecks : Bool) (c₀ : ControlPlane S) (es : List CoordinatorEvent) (c : ControlPlane S)
    (id : NodeId) (shards : List ModelShardSpec) (reply : Outcome Status PreparePlanResponse) :
    Prop :=
  if ¬ Lts.Since (step parseStr sha256) (Inserts id) (Removes id) c₀ es then
    reply = .err (.notFound "Node not found")
  else if Drained parseStr sha256 c₀ es id then reply = .ok ⟨false, "Node status: Draining", 0⟩
  else if Doubted parseStr sha256 c₀ es id then reply = .ok ⟨false, "Node status: Suspect", 0⟩
  else ∃ node, c.cluster.nodes.lookup id = some node ∧
    reply = preparePlanOn overflowChecks node shards

/-- What the planner makes of the cluster after the run: no plan if no node is up, otherwise one
that places every layer once, each stage on a node that is up. -/
inductive PlannedFrom (parseStr : String → Option Uuid) (sha256 : List UInt8 → List UInt8)
    (c₀ : ControlPlane S) (es : List CoordinatorEvent) (cluster : LogicalCluster)
    (request : PlanningRequest) : Outcome PlanningError ExecutionPlan → Prop
  | none (h : ∀ id, ¬ Up parseStr sha256 c₀ es id) :
    PlannedFrom parseStr sha256 c₀ es cluster request (.err .noAvailableNodes)
  | plan {plan : ExecutionPlan}
      (hstrategy : plan.strategy = request.preferredStrategy.getD .pipelineHybrid)
      (hplacement : Placement cluster request.modelMetadata.layerCount.toNat plan.stages)
      (hup : ∀ stage ∈ plan.stages, Up parseStr sha256 c₀ es stage.nodeId) :
    PlannedFrom parseStr sha256 c₀ es cluster request (.ok plan)

section
variable {clusterId : ClusterId} {key : S.SecretKey} {es : List CoordinatorEvent}
  {c : ControlPlane S}
  (hes : Lts.exec (step parseStr sha256) (init clusterId key) es = some c)
include hes

/-- The Healthy nodes of the map are those that are up. -/
theorem up_iff_healthy (id : NodeId) : Up parseStr sha256 (init clusterId key) es id ↔
    ∃ node, c.cluster.nodes.lookup id = some node ∧ node.status = .healthy := by
  obtain ⟨hlisted, hknown⟩ := known_of_run clusterId key es c hes id
  constructor
  · intro hup
    obtain ⟨node, hnode⟩ := HashMap.lookup_of_mem (hlisted.2 hup.listed)
    refine ⟨node, hnode, ?_⟩
    rw [(hknown node hnode).status, if_neg hup.drained, if_neg hup.doubted]
  · intro hhealthy
    obtain ⟨node, hnode, hstatus⟩ := hhealthy
    rw [(hknown node hnode).status] at hstatus
    refine ⟨hlisted.1 (HashMap.mem_of_lookup hnode), fun hdrained => ?_, fun hdoubted => ?_⟩
    · rw [if_pos hdrained] at hstatus
      cases hstatus
    · rw [if_pos hdoubted] at hstatus
      split at hstatus <;> cases hstatus

/-- **What `prepare_plan` answers is told by the run.** -/
theorem prepares_of_run (overflowChecks : Bool) {req : PreparePlanRequest} {id : NodeId}
    (hparse : parseStr req.nodeId = some id) :
    Prepares parseStr sha256 overflowChecks (init clusterId key) es c id req.shards
      (preparePlan parseStr overflowChecks c.cluster req) := by
  obtain ⟨hlisted, hknown⟩ := known_of_run clusterId key es c hes id
  unfold Prepares
  rw [← hlisted]
  by_cases hmem : id ∈ c.cluster.nodes
  · obtain ⟨node, hnode⟩ := HashMap.lookup_of_mem hmem
    have hstatus := (hknown node hnode).status
    have hreply : preparePlan parseStr overflowChecks c.cluster req =
        if node.status ≠ .healthy then .ok ⟨false, "Node status: " ++ node.status.debug, 0⟩
        else preparePlanOn overflowChecks node req.shards := by
      simp only [preparePlan, hparse, hnode]
    rw [if_neg (not_not.2 hmem), hreply]
    by_cases hdrained : Drained parseStr sha256 (init clusterId key) es id
    · rw [if_pos hdrained] at hstatus ⊢
      rw [hstatus]
      rfl
    · rw [if_neg hdrained] at hstatus ⊢
      by_cases hdoubted : Doubted parseStr sha256 (init clusterId key) es id
      · rw [if_pos hdoubted] at hstatus ⊢
        rw [hstatus]
        rfl
      · rw [if_neg hdoubted] at hstatus ⊢
        exact ⟨node, hnode, if_neg (not_not.2 hstatus)⟩
  · rw [if_pos hmem]
    simp only [preparePlan, hparse, AList.lookup_eq_none.2 hmem]

/-- **What the planner makes of the cluster.** -/
theorem plannedFrom_of_run {request : PlanningRequest}
    (hpos : 1 ≤ request.modelMetadata.layerCount.toNat)
    (hle : request.modelMetadata.layerCount.toNat ≤ 2 ^ 24) :
    PlannedFrom parseStr sha256 (init clusterId key) es c.cluster.getLogicalCluster request
      (createPlan request c.cluster.getLogicalCluster) := by
  have hup := up_iff_healthy hes
  -- the coordinator knows no links, so their averages are 1000
  have hselect : selectStrategy request c.cluster.getLogicalCluster =
      .ok (request.preferredStrategy.getD .pipelineHybrid) := by
    unfold selectStrategy
    cases request.preferredStrategy with
    | none => rfl
    | some strategy => rfl
  obtain ⟨hno, -⟩ | ⟨-, plan, hplan⟩ | ⟨-, hnodes, herr⟩ :=
    createPlan_cases request c.cluster.getLogicalCluster
  · exact absurd (fun _ => .inl rfl) hno
  · have hplacement := createPlan_placement hpos hle hplan
    rw [hplan]
    refine .plan ?_ hplacement fun stage hstage => (hup _).2 (hplacement.healthy stage hstage)
    rw [createPlan, hselect, Outcome.ok_bind] at hplan
    obtain ⟨stages, -, hplan⟩ := Outcome.bind_ok.1 hplan
    cases hplan
    rfl
  · rw [herr]
    refine .none fun id hid => ?_
    obtain ⟨node, hnode, hhealthy⟩ := (hup id).1 hid
    have hmem : (id, node) ∈ availableNodes c.cluster.getLogicalCluster :=
      mem_availableNodes.2 ⟨hnode, hhealthy⟩
    rw [hnodes] at hmem
    cases hmem

end

/-- **From the cluster to a prepared plan**: what the planner makes of it, and what `prepare_plan`
answers for any stage of the plan after any further events. -/
theorem plans_of_run (overflowChecks : Bool) (clusterId : ClusterId) (key : S.SecretKey)
    (es : List CoordinatorEvent) (c : ControlPlane S)
    (hes : Lts.exec (step parseStr sha256) (init clusterId key) es = some c)
    (request : PlanningRequest) (hpos : 1 ≤ request.modelMetadata.layerCount.toNat)
    (hle : request.modelMetadata.layerCount.toNat ≤ 2 ^ 24) :
    PlannedFrom parseStr sha256 (init clusterId key) es c.cluster.getLogicalCluster request
      (createPlan request c.cluster.getLogicalCluster) ∧
    ∀ later c', Lts.exec (step parseStr sha256) c later = some c' →
      ∀ req id, parseStr req.nodeId = some id →
        Prepares parseStr sha256 overflowChecks (init clusterId key) (es ++ later) c' id req.shards
          (preparePlan parseStr overflowChecks c'.cluster req) :=
  ⟨plannedFrom_of_run hes hpos hle, fun _ _ hlater _ _ hparse =>
    prepares_of_run (Lts.exec_append.2 ⟨c, hes, hlater⟩) overflowChecks hparse⟩

/-- Node 1 has registered, every layer is planned on it, and it accepts a shard until it is
drained. -/
theorem plans_of_registered : ∃ c c' plan,
    Lts.exec (step parseNodeOne id) initSymbolic (registerAndTick.take 2) = some c ∧
      createPlan Planner.smallRequest c.cluster.getLogicalCluster = .ok plan ∧
      PlannedFrom parseNodeOne id initSymbolic (registerAndTick.take 2) c.cluster.getLogicalCluster
        Planner.smallRequest (.ok plan) ∧
      Prepares parseNodeOne id true initSymbolic (registerAndTick.take 2) c ⟨1⟩
        (planOf [1024]).shards (.ok ⟨true, "", 0⟩) ∧
      Lts.exec (step parseNodeOne id) c [.drain ⟨(⟨1⟩ : Uuid).hyphenated, false⟩] = some c' ∧
      Prepares parseNodeOne id true initSymbolic
        (registerAndTick.take 2 ++ [.drain ⟨(⟨1⟩ : Uuid).hyphenated, false⟩]) c' ⟨1⟩
        (planOf [1024]).shards (.ok ⟨false, "Node status: Draining", 0⟩) := by
  obtain ⟨c, hc, ⟨plan, hplan⟩, hready, c', hc', hdrained⟩ : ∃ c : ControlPlane .symbolic,
      Lts.exec (step parseNodeOne id) initSymbolic (registerAndTick.take 2) = some c ∧
        (∃ plan, createPlan Planner.smallRequest c.cluster.getLogicalCluster = .ok plan) ∧
        preparePlan parseNodeOne true c.cluster (planOf [1024]) = .ok ⟨true, "", 0⟩ ∧
        ∃ c', Lts.exec (step parseNodeOne id) c
            [.drain ⟨(⟨1⟩ : Uuid).hyphenated, false⟩] = some c' ∧
          preparePlan parseNodeOne true c'.cluster (planOf [1024]) =
            .ok ⟨false, "Node status: Draining", 0⟩ :=
    ⟨_, rfl, ⟨_, rfl⟩, by decide +kernel, _, rfl, by decide +kernel⟩
  obtain ⟨hplanned, hprepares⟩ :=
    plans_of_run true _ _ _ c hc Planner.smallRequest (by decide) (by decide)
  have hnow := hprepares [] c rfl (planOf [1024]) ⟨1⟩ rfl
  have hlater := hprepares _ c' hc' (planOf [1024]) ⟨1⟩ rfl
  rw [hplan] at hplanned
  rw [hready, List.append_nil] at hnow
  rw [hdrained] at hlater
  exact ⟨c, c', plan, hc, hplan, hplanned, hnow, hc', hlater⟩

end TensorGrid.ControlPlane
