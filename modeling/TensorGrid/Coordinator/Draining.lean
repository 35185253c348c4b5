import TensorGrid.Coordinator.Leases

/-!
# Draining nodes

`drain` marks a node, so that it gets no new work until it is gone. Ticks respect the mark, but a
heartbeat or a probe overwrites it without looking at it, and the agent goes on sending heartbeats.

A node is Draining only if it was drained and not registered again since (`since_of_draining`), and
conversely as long as no heartbeat and no probe reaches a Draining node (`draining_of_since`). So
`sticky_iff`: along a run the drained nodes never become Healthy exactly if that is the case.
-/

namespace TensorGrid.ControlPlane

open Rust

variable {S : SignatureScheme} {parseStr : String → Option Uuid}
  {sha256 : List UInt8 → List UInt8}

/-- The step drains the node. -/
def Drains (parseStr : String → Option Uuid) (id : NodeId) (c : ControlPlane S)
    (e : CoordinatorEvent) : Prop :=
  ∃ req, e = .drain req ∧ addressee parseStr c req.nodeId = some id

/-- The step inserts a registration under the id. -/
def Inserts (id : NodeId) (c : ControlPlane S) (e : CoordinatorEvent) : Prop :=
  ∃ i registration, e = .insertNode i ∧ c.registering[i]? = some registration ∧
    registration.node.id = id

/-- A node that was drained, and not registered again since, is not Healthy. -/
def Sticky (parseStr : String → Option Uuid) (sha256 : List UInt8 → List UInt8)
    (c₀ : ControlPlane S) (es : List CoordinatorEvent) : Prop :=
  ∀ pre post c id, es = pre ++ post → Lts.exec (step parseStr sha256) c₀ pre = some c →
    Lts.Since (step parseStr sha256) (Drains parseStr id) (Inserts id) c₀ pre →
    ∀ node, c.cluster.nodes.lookup id = some node → node.status ≠ .healthy

/-- The step makes no Draining node Healthy: it is no heartbeat and no successful probe for one. -/
def LeavesDraining (parseStr : String → Option Uuid) (c : ControlPlane S) (e : CoordinatorEvent) :
    Prop :=
  ∀ id node, promotes parseStr c e = some id → ¬ Inserts id c e →
    c.cluster.nodes.lookup id = some node → node.status ≠ .draining

/-! ## Steps -/

theorem draining_of_drains {c t : ControlPlane S} {e : CoordinatorEvent}
    (he : c.step parseStr sha256 e = some t) {id : NodeId} (h : Drains parseStr id c e)
    {node : PhysicalNode} (hid : t.cluster.nodes.lookup id = some node) :
    node.status = .draining := by
  obtain ⟨req, rfl, haddressee⟩ := h
  obtain ⟨hparse, -⟩ := Option.filter_eq_some_iff.1 haddressee
  have hstep := cluster_step he
  generalize t.cluster = cluster at hid hstep
  cases hstep with
  | same hupdate =>
    rw [update, hparse] at hupdate
    cases hupdate
  | modify hupdate =>
    rw [update, hparse] at hupdate
    cases hupdate
    rw [HashMap.lookup_modify] at hid
    obtain ⟨old, -, rfl⟩ := Option.map_eq_some_iff.1 hid
    rfl

/-- Only a drain writes the status. -/
theorem drains_of_update {c : ControlPlane S} {e : CoordinatorEvent} {id : NodeId}
    {f : PhysicalNode → PhysicalNode} (h : update parseStr e = some (id, f)) {old : PhysicalNode}
    (hold : c.cluster.nodes.lookup id = some old) (hf : (f old).status = .draining) :
    Drains parseStr id c e := by
  obtain ⟨-, hnone⟩ | ⟨hhealthy, -⟩ := update_cases c h
  · cases e with
    | drain req =>
      obtain ⟨k, hparse, ⟨⟩⟩ := Option.map_eq_some_iff.1 h
      refine ⟨req, rfl, ?_⟩
      rw [addressee_of_parse hparse, if_pos (HashMap.mem_of_lookup hold)]
    | sendHeartbeat nodeId req now =>
      obtain ⟨k, hparse, ⟨⟩⟩ := Option.map_eq_some_iff.1 h
      cases hf
    | heartbeat req now =>
      obtain ⟨k, hparse, ⟨⟩⟩ := Option.map_eq_some_iff.1 h
      cases hf
    | probe req probed =>
      cases probed with
      | error e => cases h
      | ok capabilities =>
        obtain ⟨k, hparse, ⟨⟩⟩ := Option.map_eq_some_iff.1 h
        cases hf
    | registerNode | register | insertNode | tick | sweep | verifyResponse => cases h
  · exact absurd ((hhealthy old).symm.trans hf) nofun

/-- **A node across a step** that is not its registration. -/
theorem draining_step {c t : ControlPlane S} {e : CoordinatorEvent}
    (he : c.step parseStr sha256 e = some t) {id : NodeId} (hinsert : ¬ Inserts id c e)
    {node : PhysicalNode} (hid : t.cluster.nodes.lookup id = some node) :
    ∃ old, c.cluster.nodes.lookup id = some old ∧
      (old.status = .draining → node.status = .draining ∨ promotes parseStr c e = some id) ∧
      (node.status = .draining → old.status = .draining ∨ Drains parseStr id c e) := by
  have hstep := cluster_step he
  generalize t.cluster = cluster at hid hstep
  cases hstep with
  | same | draw | verify => exact ⟨node, hid, .inl, .inl⟩
  | @insert i registration hget =>
    have hkey : id ≠ registration.node.id := fun hkey =>
      hinsert ⟨i, registration, rfl, hget, hkey.symm⟩
    rw [AList.lookup_insert_ne hkey] at hid
    exact ⟨node, hid, .inl, .inl⟩
  | @modify _ k f hupdate =>
    by_cases hkey : id = k
    · subst hkey
      rw [HashMap.lookup_modify] at hid
      obtain ⟨old, hold, rfl⟩ := Option.map_eq_some_iff.1 hid
      refine ⟨old, hold, fun _ => ?_, fun hf => .inr (drains_of_update hupdate hold hf)⟩
      obtain ⟨hdraining, -⟩ | ⟨-, hpromotes⟩ := update_cases c hupdate
      · exact .inl (hdraining old)
      · exact .inr (by rw [hpromotes, if_pos (HashMap.mem_of_lookup hold)])
    · rw [HashMap.lookup_modify_ne hkey] at hid
      exact ⟨node, hid, .inl, .inl⟩
  | @sweep now hnow =>
    -- a tick marks Healthy nodes only
    obtain ⟨old, hold, -, rfl⟩ := Monitor.lookup_sweep_eq_some hid
    refine ⟨old, hold, fun hdraining => .inl ?_, fun hdraining => .inl ?_⟩
    · have hkept : ¬ (10 < old.silence now ∧ old.status = .healthy) := fun h =>
        absurd (hdraining.symm.trans h.2) nofun
      rw [if_neg hkept]
      exact hdraining
    · split at hdraining
      · cases hdraining
      · exact hdraining

theorem not_draining_of_inserts {c t : ControlPlane S} {e : CoordinatorEvent}
    (he : c.step parseStr sha256 e = some t) {id : NodeId} (h : Inserts id c e)
    {node : PhysicalNode} (hid : t.cluster.nodes.lookup id = some node) :
    node.status ≠ .draining := by
  obtain ⟨i, registration, rfl, hget, rfl⟩ := h
  have hstep := cluster_step he
  generalize t.cluster = cluster at hid hstep
  cases hstep with
  | same _ hinsert => exact absurd rfl (hinsert i)
  | @insert _ registration' hget' =>
    obtain rfl := Option.some.inj (hget.symm.trans hget')
    rw [AList.lookup_insert] at hid
    cases hid
    obtain hhealthy | hsuspect := registration.status
    · rw [hhealthy]
      exact nofun
    · rw [hsuspect]
      exact nofun
  | modify hupdate => cases hupdate

/-! ## Runs -/

section
variable {clusterId : ClusterId} {key : S.SecretKey} {es : List CoordinatorEvent}
  {c : ControlPlane S}
  (hes : Lts.exec (step parseStr sha256) (init clusterId key) es = some c) {id : NodeId}
include hes

/-- A Draining node was drained. -/
theorem since_of_draining {node : PhysicalNode} (hid : c.cluster.nodes.lookup id = some node)
    (hstatus : node.status = .draining) :
    Lts.Since (step parseStr sha256) (Drains parseStr id) (Inserts id) (init clusterId key) es := by
  refine Lts.exec_induction (P := fun es (c : ControlPlane S) =>
    ∀ node, c.cluster.nodes.lookup id = some node → node.status = .draining →
      Lts.Since (step parseStr sha256) (Drains parseStr id) (Inserts id) (init clusterId key) es)
    (fun node hid _ => ?_) (fun es s e t hes ih he node hid hstatus => ?_) hes node hid hstatus
  · rw [init, AList.lookup_empty] at hid
    cases hid
  · by_cases hinsert : Inserts id s e
    · exact absurd hstatus (not_draining_of_inserts he hinsert hid)
    · obtain ⟨old, hold, -, hback⟩ := draining_step he hinsert hid
      rw [Lts.since_concat hes he]
      obtain hdraining | hdrains := hback hstatus
      · exact .inr ⟨ih old hold hdraining, hinsert⟩
      · exact .inl hdrains

/-- And it stays Draining while it is in the map, if no step wakes it up. -/
theorem draining_of_since
    (hmeets : Lts.Meets (step parseStr sha256) (LeavesDraining parseStr) (init clusterId key) es)
    (hsince : Lts.Since (step parseStr sha256) (Drains parseStr id) (Inserts id)
      (init clusterId key) es)
    {node : PhysicalNode} (hid : c.cluster.nodes.lookup id = some node) :
    node.status = .draining := by
  refine Lts.exec_induction (P := fun es (c : ControlPlane S) =>
    Lts.Meets (step parseStr sha256) (LeavesDraining parseStr) (init clusterId key) es →
    Lts.Since (step parseStr sha256) (Drains parseStr id) (Inserts id) (init clusterId key) es →
    ∀ node, c.cluster.nodes.lookup id = some node → node.status = .draining)
    (fun _ hsince => hsince.elim) (fun es s e t hes ih he hmeets hsince node hid => ?_)
    hes hmeets hsince node hid
  obtain ⟨hmeets, hleaves⟩ := (Lts.meets_concat hes he).1 hmeets
  obtain hdrains | ⟨hsince, hinsert⟩ := (Lts.since_concat hes he).1 hsince
  · exact draining_of_drains he hdrains hid
  · obtain ⟨old, hold, hstep, -⟩ := draining_step he hinsert hid
    have hdraining := ih hmeets hsince old hold
    refine (hstep hdraining).resolve_right fun hpromotes => ?_
    exact hleaves id old hpromotes hinsert hold hdraining

end

/-- **Draining is sticky** along a run exactly if no heartbeat and no successful probe of the run is
for a Draining node. -/
theorem sticky_iff (clusterId : ClusterId) (key : S.SecretKey) (es : List CoordinatorEvent) :
    Sticky parseStr sha256 (init clusterId key) es ↔
      Lts.Meets (step parseStr sha256) (LeavesDraining parseStr) (init clusterId key) es := by
  constructor
  · refine fun hsticky => Lts.meets_iff.2 fun pre e post c t hes hpre he => ?_
    intro id node hpromotes hinsert hid hdraining
    -- the drained node would be Healthy after the step
    have hsince := since_of_draining hpre hid hdraining
    have hpre' : Lts.exec (step parseStr sha256) (init clusterId key) (pre ++ [e]) = some t :=
      Lts.exec_concat.2 ⟨c, hpre, he⟩
    have hsince' := (Lts.since_concat hpre he).2 (.inr ⟨hsince, hinsert⟩)
    obtain ⟨node', hid', hhealthy⟩ := healthy_of_promotes he hpromotes
    exact hsticky (pre ++ [e]) post t id (by simp [hes]) hpre' hsince' node' hid' hhealthy
  · rintro hmeets pre post c id rfl hpre hsince node hid hhealthy
    have hdraining := draining_of_since hpre hmeets.initial hsince hid
    exact absurd (hdraining.symm.trans hhealthy) nofun

/-- Reads the text of node 1 only. -/
def parseNodeOne (text : String) : Option Uuid :=
  if text = (⟨1⟩ : Uuid).hyphenated then some ⟨1⟩ else none

/-- Node 1 registers and is drained; then comes a heartbeat. -/
def drainAndHeartbeat : List CoordinatorEvent :=
  registerAndTick.take 2 ++ [.drain ⟨(⟨1⟩ : Uuid).hyphenated, false⟩,
    .sendHeartbeat (⟨1⟩ : Uuid).hyphenated ⟨1, (smallNode ⟨1⟩ ⟨0⟩).resources⟩ ⟨1000000000⟩]

theorem drainAndHeartbeat_not_sticky :
    ¬ Sticky parseNodeOne id initSymbolic drainAndHeartbeat := by
  intro h
  obtain ⟨c, hc, node, hnode, hhealthy⟩ : ∃ c : ControlPlane .symbolic,
      Lts.exec (step parseNodeOne id) initSymbolic drainAndHeartbeat = some c ∧
        ∃ node, c.cluster.nodes.lookup ⟨1⟩ = some node ∧ node.status = .healthy :=
    ⟨_, rfl, _, rfl, rfl⟩
  have hsince : Lts.Since (step parseNodeOne id) (Drains parseNodeOne ⟨1⟩) (Inserts ⟨1⟩)
      initSymbolic drainAndHeartbeat := by
    refine ⟨_, rfl, .inr ⟨_, rfl, .inr ⟨_, rfl, .inl ⟨⟨_, rfl, rfl⟩, fun t ht => ⟨?_, trivial⟩⟩⟩⟩⟩
    rintro ⟨i, registration, ⟨⟩, -⟩
  exact h drainAndHeartbeat [] c ⟨1⟩ (List.append_nil _).symm hc hsince node hnode hhealthy

end TensorGrid.ControlPlane
