import TensorGrid.Coordinator.Status

/-!
# Leases

A node stays in the map as long as its heartbeats come. `swept_sweep`: a tick removes exactly the
nodes that were silent for more than 30 whole seconds, marks the Healthy ones silent for more than
10, and leaves the others as they are. `NoneUnavailable` is an invariant, since the nodes a tick
marks Unavailable are removed before it returns the lock. `leases` is both, for every run.
-/

namespace TensorGrid

open Rust

namespace Monitor

/-- What a tick that read `now` does to the nodes. -/
structure Swept (now : DateTime) (nodes nodes' : HashMap NodeId PhysicalNode) : Prop where
  silent : ∀ id node, nodes'.lookup id = some node → node.silence now ≤ 30
  healthy : ∀ id node, nodes'.lookup id = some node → node.status = .healthy →
    node.silence now ≤ 10
  removed : ∀ id node, nodes.lookup id = some node → nodes'.lookup id = none →
    30 < node.silence now
  kept : ∀ id old node, nodes.lookup id = some old → nodes'.lookup id = some node →
    node = old ∨ (old.status = .healthy ∧ 10 < old.silence now ∧
      node = { old with status := .suspect })
  old : ∀ id, nodes.lookup id = none → nodes'.lookup id = none

/-- A node that stays, before and after the tick. -/
theorem lookup_sweep_eq_some {now : DateTime} {nodes : HashMap NodeId PhysicalNode} {id : NodeId}
    {node : PhysicalNode} (h : (sweep now nodes).lookup id = some node) :
    ∃ old, nodes.lookup id = some old ∧ old.silence now ≤ 30 ∧
      node = if 10 < old.silence now ∧ old.status = .healthy then { old with status := .suspect }
        else old := by
  rw [lookup_sweep] at h
  obtain ⟨old, hold, h⟩ := Option.bind_eq_some_iff.1 h
  split at h
  · cases h
  · next hsilence =>
    rw [check_kept hsilence] at h
    exact ⟨old, hold, not_lt.1 hsilence, (Option.some.inj h).symm⟩

theorem swept_sweep (now : DateTime) (nodes : HashMap NodeId PhysicalNode) :
    Swept now nodes (sweep now nodes) where
  silent id node h := by
    obtain ⟨old, -, hsilence, rfl⟩ := lookup_sweep_eq_some h
    split_ifs
    · exact hsilence
    · exact hsilence
  healthy id node h hstatus := by
    obtain ⟨old, -, -, rfl⟩ := lookup_sweep_eq_some h
    split_ifs at hstatus ⊢ with hmark
    exact not_lt.1 fun hlt => hmark ⟨hlt, hstatus⟩
  removed id node hnode hnone := by
    rw [lookup_sweep, hnode] at hnone
    by_contra hsilence
    rw [Option.bind_some, if_neg hsilence] at hnone
    cases hnone
  kept id old node hold h := by
    obtain ⟨old', hold', -, rfl⟩ := lookup_sweep_eq_some h
    obtain rfl : old = old' := Option.some.inj (hold.symm.trans hold')
    split_ifs with hmark
    · exact .inr ⟨hmark.2, hmark.1, rfl⟩
    · exact .inl rfl
  old id hnone := by rw [lookup_sweep, hnone, Option.bind_none]

end Monitor

namespace ControlPlane

variable {S : SignatureScheme} {parseStr : String → Option Uuid}
  {sha256 : List UInt8 → List UInt8}

/-- No node is Unavailable while no task holds the lock. -/
def NoneUnavailable (c : ControlPlane S) : Prop :=
  ∀ id node, c.cluster.nodes.lookup id = some node → node.status ≠ .unavailable

/-- The step is a tick that finds the node silent for more than 30 seconds. -/
def Removes (id : NodeId) (c : ControlPlane S) (e : CoordinatorEvent) : Prop :=
  e = .sweep ∧ ∃ now node, c.monitor = some now ∧ c.cluster.nodes.lookup id = some node ∧
    30 < node.silence now

/-- A node of the map stays there until a tick removes it. -/
theorem mem_step {c t : ControlPlane S} {e : CoordinatorEvent}
    (he : c.step parseStr sha256 e = some t) {id : NodeId} (h : id ∈ c.cluster.nodes) :
    id ∈ t.cluster.nodes ∨ Removes id c e := by
  have hstep := cluster_step he
  generalize t.cluster = cluster at hstep ⊢
  cases hstep with
  | same | draw | verify => exact .inl h
  | insert => exact .inl (AList.mem_insert _ |>.2 (.inr h))
  | modify => exact .inl (HashMap.mem_modify.2 h)
  | @sweep now hnow =>
    obtain ⟨node, hnode⟩ := HashMap.lookup_of_mem h
    by_cases hsilence : 30 < node.silence now
    · exact .inr ⟨rfl, now, node, hnow, hnode, hsilence⟩
    · have hkept : (Monitor.sweep now c.cluster.nodes).lookup id =
          some (Monitor.check now node).1 := by
        rw [Monitor.lookup_sweep, hnode, Option.bind_some, if_neg hsilence]
      exact .inl (HashMap.mem_of_lookup hkept)

theorem NoneUnavailable.step {c t : ControlPlane S} {e : CoordinatorEvent}
    (h : NoneUnavailable c) (he : c.step parseStr sha256 e = some t) : NoneUnavailable t := by
  intro id node hid hunavailable
  obtain ⟨old, hold, hstatus⟩ | ⟨hhealthy, -⟩ | hsuspect | hdraining := status_step he hid
  · exact h id old hold (hstatus.trans hunavailable)
  · exact absurd (hhealthy.symm.trans hunavailable) nofun
  · exact absurd (hsuspect.symm.trans hunavailable) nofun
  · exact absurd (hdraining.symm.trans hunavailable) nofun

theorem noneUnavailable_init (clusterId : ClusterId) (key : S.SecretKey) :
    NoneUnavailable (init clusterId key) := by
  intro id node hid
  rw [init, AList.lookup_empty] at hid
  cases hid

theorem step_sweep {c t : ControlPlane S} {now : DateTime} (hnow : c.monitor = some now)
    (he : c.step parseStr sha256 .sweep = some t) :
    t = { c with
      cluster := { c.cluster with nodes := Monitor.sweep now c.cluster.nodes }
      monitor := none } := by
  simp only [step, hnow] at he
  exact (Option.some.inj he).symm

/-- **The coordinator's leases**: in every state between two lock sections no node is Unavailable,
and a tick that has read `now` sweeps the nodes by that reading and changes nothing else. -/
theorem leases {clusterId : ClusterId} {key : S.SecretKey} {es : List CoordinatorEvent}
    {c : ControlPlane S}
    (h : Lts.exec (step parseStr sha256) (init clusterId key) es = some c) :
    NoneUnavailable c ∧ ∀ now t, c.monitor = some now →
      c.step parseStr sha256 .sweep = some t →
      Monitor.Swept now c.cluster.nodes t.cluster.nodes ∧
        t = { c with cluster := { c.cluster with nodes := t.cluster.nodes }, monitor := none } := by
  refine ⟨Lts.exec_inv (fun _ _ _ hs he => hs.step he) h (noneUnavailable_init clusterId key),
    fun now t hnow he => ?_⟩
  obtain rfl := step_sweep hnow he
  exact ⟨Monitor.swept_sweep now c.cluster.nodes, rfl⟩

/-- A coordinator whose key is all zeros. -/
def initSymbolic : ControlPlane .symbolic := init ⟨0⟩ (Vector.replicate 32 0)

/-- Node 1 registers, and a tick reads the clock 35 seconds later. -/
def registerAndTick : List CoordinatorEvent :=
  [.registerNode ⟨"node", "node.local", "", (smallNode ⟨1⟩ ⟨0⟩).capabilities,
    (smallNode ⟨1⟩ ⟨0⟩).resources⟩ ⟨1⟩ ⟨0⟩, .insertNode 0, .tick ⟨35000000000⟩]

theorem leases_small : ∃ c t : ControlPlane .symbolic,
    Lts.exec (step (fun _ => none) id) initSymbolic registerAndTick = some c ∧
      c.step (fun _ => none) id .sweep = some t ∧
      NoneUnavailable c ∧ Monitor.Swept ⟨35000000000⟩ c.cluster.nodes t.cluster.nodes := by
  obtain ⟨c, hc, hnow⟩ : ∃ c : ControlPlane .symbolic,
      Lts.exec (step (fun _ => none) id) initSymbolic registerAndTick = some c ∧
        c.monitor = some ⟨35000000000⟩ := ⟨_, rfl, rfl⟩
  obtain ⟨t, ht⟩ : ∃ t, c.step (fun _ => none) id .sweep = some t := by
    simp only [step, hnow, Option.some.injEq, exists_eq']
  have hleases := leases hc
  exact ⟨c, t, hc, ht, hleases.1, (hleases.2 _ t hnow ht).1⟩

end ControlPlane

end TensorGrid
