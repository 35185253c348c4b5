import TensorGrid.Coordinator.Capacity
import TensorGrid.Lib.Overflow

/-!
# Exact totals

`get_logical_cluster` adds up the bytes of all nodes as `u64`s, which wrap, and a registration over
HTTP may claim any number of them. So the totals are exact (`TotalsExact`) in a state exactly if the
exact ones fit (`totalsExact_iff`), and along a run exactly if every registration and every probe
leaves room: its bytes and those of the other nodes are below 2 ^ 64 together
(`always_totalsExact_iff`). Nothing else makes a total larger.
-/

namespace TensorGrid

open Rust

/-- The accumulators are the exact sums, which therefore are `u64`s. -/
def TotalsExact {S : SignatureScheme} (s : ClusterState S) : Prop :=
  ∀ kind, (s.totals.bytes kind).toNat = exactTotal kind s.nodes

/-! ## States -/

/-- **The totals are exact** in a state if the exact ones fit, and only then. -/
theorem totalsExact_iff {S : SignatureScheme} (s : ClusterState S) :
    TotalsExact s ↔ ∀ kind, exactTotal kind s.nodes < 2 ^ 64 :=
  forall_congr' fun kind => wraps_uInt64.eq_iff_lt (toNat_totals s kind)

/-- The bytes and those of the nodes with other ids fit. -/
def LeavesRoom (nodes : HashMap NodeId PhysicalNode) (id : NodeId)
    (capabilities : NodeCapabilities) : Prop :=
  ∀ kind, capabilities.bytes kind + exactTotal kind (nodes.erase id) < 2 ^ 64

theorem exactTotal_sweep_le (kind : MemoryKind) (now : DateTime)
    (nodes : HashMap NodeId PhysicalNode) :
    exactTotal kind (Monitor.sweep now nodes) ≤ exactTotal kind nodes := by
  refine (HashMap.total_eraseAll_le _ _ _).trans (HashMap.total_mapValues_of_eq _ ?_ nodes).le
  intro id node
  rw [Monitor.check_eq]
  split_ifs <;> rfl

namespace ControlPlane

variable {S : SignatureScheme} {parseStr : String → Option Uuid}
  {sha256 : List UInt8 → List UInt8}

/-- The node whose capabilities the step writes: that of a registration or of a probe. -/
def writes (parseStr : String → Option Uuid) (c : ControlPlane S) :
    CoordinatorEvent → Option (NodeId × NodeCapabilities)
  | .insertNode i => c.registering[i]?.map fun registration =>
      (registration.node.id, registration.node.capabilities)
  | .probe req (.ok capabilities) => (addressee parseStr c req.nodeId).map (·, capabilities)
  | _ => none

/-- If the step writes capabilities, there is room for them. -/
def Fits (parseStr : String → Option Uuid) (c : ControlPlane S) (e : CoordinatorEvent) : Prop :=
  ∀ id capabilities, writes parseStr c e = some (id, capabilities) →
    LeavesRoom c.cluster.nodes id capabilities

/-! ## Steps -/

theorem writes_eq_none {c : ControlPlane S} {e : CoordinatorEvent}
    (hupdate : update parseStr e = none) (hinsert : ∀ i, e ≠ .insertNode i) :
    writes parseStr c e = none := by
  cases e with
  | insertNode i => exact absurd rfl (hinsert i)
  | probe req probed =>
    cases probed with
    | error e => rfl
    | ok capabilities =>
      rw [writes, addressee_of_none (Option.map_eq_none_iff.1 hupdate), Option.map_none]
  | sendHeartbeat | heartbeat | drain | registerNode | register | tick | sweep | verifyResponse =>
    rfl

/-- A write to a node keeps its capabilities, or it is that of a probe. -/
theorem writes_of_update (c : ControlPlane S) {e : CoordinatorEvent} {id : NodeId}
    {f : PhysicalNode → PhysicalNode} (h : update parseStr e = some (id, f)) :
    (writes parseStr c e = none ∧ ∀ node, (f node).capabilities = node.capabilities) ∨
      ∃ capabilities, (∀ node, (f node).capabilities = capabilities) ∧
        writes parseStr c e =
          if id ∈ c.cluster.nodes then some (id, capabilities) else none := by
  cases e with
  | sendHeartbeat | heartbeat | drain =>
    obtain ⟨k, -, ⟨⟩⟩ := Option.map_eq_some_iff.1 h
    exact .inl ⟨rfl, fun _ => rfl⟩
  | probe req probed =>
    cases probed with
    | error e => cases h
    | ok capabilities =>
      obtain ⟨k, hparse, ⟨⟩⟩ := Option.map_eq_some_iff.1 h
      refine .inr ⟨capabilities, fun _ => rfl, ?_⟩
      rw [writes, addressee_of_parse hparse]
      split_ifs <;> rfl
  | registerNode | register | insertNode | tick | sweep | verifyResponse => cases h

/-- **What a step does to the totals**: the bytes that it writes take the place of the node's, or no
total becomes larger. -/
theorem exactTotal_step {c t : ControlPlane S} {e : CoordinatorEvent}
    (he : c.step parseStr sha256 e = some t) :
    (∃ id capabilities, writes parseStr c e = some (id, capabilities) ∧
      ∀ kind, exactTotal kind t.cluster.nodes =
        capabilities.bytes kind + exactTotal kind (c.cluster.nodes.erase id)) ∨
    writes parseStr c e = none ∧
      ∀ kind, exactTotal kind t.cluster.nodes ≤ exactTotal kind c.cluster.nodes := by
  have hstep := cluster_step he
  generalize t.cluster = cluster at hstep ⊢
  cases hstep with
  | same hupdate hinsert => exact .inr ⟨writes_eq_none hupdate hinsert, fun _ => le_rfl⟩
  | draw | verify => exact .inr ⟨rfl, fun _ => le_rfl⟩
  | @insert i registration hget =>
    refine .inl ⟨registration.node.id, registration.node.capabilities, ?_, fun kind => ?_⟩
    · rw [writes, hget]
      rfl
    · exact HashMap.total_insert _ _ _ _
  | @modify _ id f hupdate =>
    obtain ⟨hnone, hkeep⟩ | ⟨capabilities, hwrite, hwrites⟩ := writes_of_update c hupdate
    · refine .inr ⟨hnone, fun kind => (HashMap.total_modify_of_eq _ (fun _ node => ?_) _ _).le⟩
      rw [hkeep]
    · by_cases hid : id ∈ c.cluster.nodes
      · obtain ⟨node, hnode⟩ := HashMap.lookup_of_mem hid
        rw [if_pos hid] at hwrites
        refine .inl ⟨id, capabilities, hwrites, fun kind => ?_⟩
        rw [exactTotal, HashMap.total_modify _ hnode, hwrite]
        rfl
      · rw [if_neg hid] at hwrites
        refine .inr ⟨hwrites, fun kind => ?_⟩
        rw [HashMap.modify_of_notMem hid]
  | sweep => exact .inr ⟨rfl, fun kind => exactTotal_sweep_le kind _ _⟩

theorem totalsExact_step {c t : ControlPlane S} {e : CoordinatorEvent}
    (h : TotalsExact c.cluster) (he : c.step parseStr sha256 e = some t) :
    TotalsExact t.cluster ↔ Fits parseStr c e := by
  rw [totalsExact_iff] at h ⊢
  obtain ⟨id, capabilities, hwrites, htotal⟩ | ⟨hnone, hle⟩ := exactTotal_step he
  · simp only [htotal]
    refine ⟨fun hroom id' capabilities' hwrites' => ?_, fun hfits => hfits id capabilities hwrites⟩
    cases hwrites.symm.trans hwrites'
    exact hroom
  · refine iff_of_true (fun kind => (hle kind).trans_lt (h kind)) fun id capabilities hwrites => ?_
    cases hnone.symm.trans hwrites

/-! ## Runs -/

/-- **The totals are exact** throughout a run if every registration and every probe leaves room, and
only then. -/
theorem always_totalsExact_iff (clusterId : ClusterId) (key : S.SecretKey)
    (es : List CoordinatorEvent) :
    Lts.Always (step parseStr sha256) (fun c => TotalsExact c.cluster) (init clusterId key) es ↔
      Lts.Meets (step parseStr sha256) (Fits parseStr) (init clusterId key) es :=
  Lts.always_iff_meets (I := fun _ => True) (fun _ _ _ _ _ => trivial)
    (fun _ _ _ _ h he => totalsExact_step h he) trivial
    ((totalsExact_iff _).2 fun _ => Nat.two_pow_pos 64)

/-- A node that claims this much memory. -/
def claimMemory (availableBytes : UInt64) : Api.RegisterNodeRequest :=
  let node := smallNode ⟨1⟩ ⟨0⟩
  ⟨"node", "node.local", "", { node.capabilities with
    memory := { node.capabilities.memory with availableBytes } }, node.resources⟩

/-- Two nodes register with 2 ^ 63 bytes each. -/
def registerGreedy : List CoordinatorEvent :=
  [.registerNode (claimMemory 9223372036854775808) ⟨1⟩ ⟨0⟩, .insertNode 0,
    .registerNode (claimMemory 9223372036854775808) ⟨2⟩ ⟨0⟩, .insertNode 0]

/-- Their total is 0. -/
theorem not_totalsExact_greedy : (∃ c : ControlPlane .symbolic,
      Lts.exec (step (fun _ => none) id) initSymbolic registerGreedy = some c ∧
        c.cluster.totals.hostMemoryBytes = 0) ∧
    ¬ Lts.Always (step (fun _ => none) id) (fun c => TotalsExact c.cluster) initSymbolic
      registerGreedy := by
  obtain ⟨c, hc, hzero, hexact⟩ : ∃ c : ControlPlane .symbolic,
      Lts.exec (step (fun _ => none) id) initSymbolic registerGreedy = some c ∧
        c.cluster.totals.hostMemoryBytes = 0 ∧
        exactTotal .host c.cluster.nodes = 18446744073709551616 :=
    ⟨_, rfl, rfl, rfl⟩
  refine ⟨⟨c, hc, hzero⟩, fun halways => ?_⟩
  have hhost := halways.last hc .host
  rw [hexact, ClusterTotals.bytes, hzero] at hhost
  exact absurd hhost (by decide)

end ControlPlane

end TensorGrid
