import TensorGrid.Coordinator.Leases
import TensorGrid.SecurePairing.SingleUse

/-!
# Healthy nodes and paired nodes

The planner and the scheduler use the Healthy nodes, and every node is to be paired explicitly. But
only `verify_response` looks at a pairing, and nothing that writes a status does: an HTTP
registration inserts a Healthy node, and a heartbeat or a probe makes the node it names Healthy.

`always_paired_iff`: the Healthy nodes are paired throughout a run exactly when each step makes only
paired nodes Healthy. `registerNode_unpaired` is one HTTP registration.
-/

namespace TensorGrid.ControlPlane

open Rust

variable {S : SignatureScheme} {parseStr : String → Option Uuid}
  {sha256 : List UInt8 → List UInt8}

/-- Every Healthy node is registered with the pairing manager. -/
def Paired (c : ControlPlane S) : Prop :=
  ∀ id node, c.cluster.nodes.lookup id = some node → node.status = .healthy →
    id ∈ c.cluster.pairingManager.registeredNodes

/-- The step makes no node Healthy that is not registered with the pairing manager. -/
def PromotesPaired (parseStr : String → Option Uuid) (c : ControlPlane S) (e : CoordinatorEvent) :
    Prop :=
  ∀ id, promotes parseStr c e = some id → id ∈ c.cluster.pairingManager.registeredNodes

/-! ## The pairing manager -/

/-- Nothing here revokes a node. -/
theorem registered_step {c t : ControlPlane S} {e : CoordinatorEvent}
    (he : c.step parseStr sha256 e = some t) {id : NodeId}
    (h : id ∈ c.cluster.pairingManager.registeredNodes) :
    id ∈ t.cluster.pairingManager.registeredNodes := by
  rw [Coordinator.mem_registeredNodes] at h ⊢
  have hstep := cluster_step he
  generalize t.cluster = cluster at hstep ⊢
  cases hstep with
  | same | insert | modify | sweep => exact h
  | draw hkeys => rwa [hkeys]
  | @verify response nodePublicKey checkedAt now =>
    obtain ⟨hok, hrefused⟩ := @Coordinator.verifyResponse_manager S sha256
      c.cluster.pairingManager response nodePublicKey checkedAt now
    by_cases haccepted : ∃ certificate, (c.cluster.pairingManager.verifyResponse sha256 response
        nodePublicKey checkedAt now).1 = .ok certificate
    · obtain ⟨certificate, hcertificate⟩ := haccepted
      rw [(hok certificate hcertificate).2.2]
      exact (AList.mem_insert _).2 (.inr h)
    · rw [(hrefused (not_exists.1 haccepted)).1]
      exact h

/-- The steps that make a node Healthy leave the pairing manager alone. -/
theorem manager_of_promotes {c t : ControlPlane S} {e : CoordinatorEvent}
    (he : c.step parseStr sha256 e = some t) {id : NodeId}
    (h : promotes parseStr c e = some id) :
    t.cluster.pairingManager = c.cluster.pairingManager := by
  have hstep := cluster_step he
  generalize t.cluster = cluster at hstep ⊢
  cases hstep with
  | same | insert | modify | sweep => rfl
  | draw | verify => cases h

/-! ## Runs -/

theorem paired_step {c t : ControlPlane S} {e : CoordinatorEvent} (h : Paired c)
    (he : c.step parseStr sha256 e = some t) : Paired t ↔ PromotesPaired parseStr c e := by
  constructor
  · intro hpaired id hid
    obtain ⟨node, hnode, hhealthy⟩ := healthy_of_promotes he hid
    rw [← manager_of_promotes he hid]
    exact hpaired id node hnode hhealthy
  · intro hpromotes id node hnode hhealthy
    refine registered_step he ?_
    obtain ⟨old, hold, hstatus⟩ | ⟨-, hid⟩ | hsuspect | hdraining := status_step he hnode
    · exact h id old hold (hstatus.trans hhealthy)
    · exact hpromotes id hid
    · exact absurd (hsuspect.symm.trans hhealthy) nofun
    · exact absurd (hdraining.symm.trans hhealthy) nofun

theorem paired_init (clusterId : ClusterId) (key : S.SecretKey) : Paired (init clusterId key) := by
  intro id node hid
  rw [init, AList.lookup_empty] at hid
  cases hid

/-- **Only paired nodes are Healthy** throughout a run exactly when every step of it makes only
paired nodes Healthy. -/
theorem always_paired_iff (clusterId : ClusterId) (key : S.SecretKey)
    (es : List CoordinatorEvent) :
    Lts.Always (step parseStr sha256) Paired (init clusterId key) es ↔
      Lts.Meets (step parseStr sha256) (PromotesPaired parseStr) (init clusterId key) es :=
  Lts.always_iff_meets (I := fun _ => True) (fun _ _ _ _ _ => trivial)
    (fun _ _ _ _ h he => paired_step h he) trivial (paired_init clusterId key)

/-- One HTTP registration. -/
def registerUnpaired : List CoordinatorEvent := registerAndTick.take 2

theorem registerNode_unpaired : ¬∀ es : List CoordinatorEvent,
    Lts.Always (step (fun _ => none) id) Paired initSymbolic es := by
  intro h
  obtain ⟨c, hc, hnode, hkeys⟩ : ∃ c : ControlPlane .symbolic,
      Lts.exec (step (fun _ => none) id) initSymbolic registerUnpaired = some c ∧
        (∃ node, c.cluster.nodes.lookup ⟨1⟩ = some node ∧ node.status = .healthy) ∧
        c.cluster.pairingManager.registeredNodes = [] :=
    ⟨_, rfl, ⟨_, rfl, rfl⟩, rfl⟩
  obtain ⟨node, hnode, hhealthy⟩ := hnode
  have hpaired := (h registerUnpaired).last hc
  have hmem := hpaired ⟨1⟩ node hnode hhealthy
  rw [hkeys] at hmem
  cases hmem

end TensorGrid.ControlPlane
