import TensorGrid.Coordinator.Draining

/-!
# Members of the cluster

Both registrations are told which cluster the node wants to join. `register` refuses an id that does
not parse or is not the coordinator's; `register_node` takes the coordinator's for one that does not
parse, and believes any other. So the nodes of the map are the coordinator's own throughout a run
exactly if no HTTP registration that ends claims another cluster: `always_members_iff`.
-/

namespace TensorGrid.ControlPlane

open Rust

variable {S : SignatureScheme} {parseStr : String → Option Uuid}
  {sha256 : List UInt8 → List UInt8}

/-- Every node of the map belongs to the coordinator's cluster. -/
def Members (c : ControlPlane S) : Prop :=
  ∀ id node, c.cluster.nodes.lookup id = some node → node.clusterId = c.cluster.clusterId

/-- The id that an HTTP request claims does not parse, or it is the coordinator's. -/
def ClaimsOwn (parseStr : String → Option Uuid) (clusterId : ClusterId)
    (req : Api.RegisterNodeRequest) : Prop :=
  ∀ claimed, parseStr req.clusterId = some claimed → claimed = clusterId

/-- If the step inserts the registration of an HTTP request, the request claims no other cluster. -/
def AdmitsOwn (parseStr : String → Option Uuid) (c : ControlPlane S) (e : CoordinatorEvent) :
    Prop :=
  ∀ i req nodeId now, e = .insertNode i →
    c.registering[i]? = some (Api.registerNode parseStr c.cluster req nodeId now) →
    ClaimsOwn parseStr c.cluster.clusterId req

/-- A registration that waits wants to join this cluster, or is that of an HTTP request. -/
def Vetted (parseStr : String → Option Uuid) (c : ControlPlane S) : Prop :=
  ∀ registration ∈ c.registering, registration.node.clusterId = c.cluster.clusterId ∨
    ∃ req nodeId now, registration = Api.registerNode parseStr c.cluster req nodeId now

/-! ## Requests -/

theorem claimsOwn_iff {s : ClusterState S} {req : Api.RegisterNodeRequest} {nodeId : NodeId}
    {now : DateTime} : ClaimsOwn parseStr s.clusterId req ↔
      (Api.registerNode parseStr s req nodeId now).node.clusterId = s.clusterId := by
  show _ ↔ (parseStr req.clusterId).getD s.clusterId = s.clusterId
  unfold ClaimsOwn
  cases parseStr req.clusterId <;> simp

/-- `register` goes on with a node of its own cluster. -/
theorem register_clusterId {s s' : ClusterState S} {req : NodeControl.RegisterRequest}
    {nodeId : NodeId} {challenge : Vector UInt8 32} {drawnAt now : DateTime}
    {registration : Registration}
    (h : NodeControl.register parseStr s req nodeId challenge drawnAt now =
      (.ok (.inr registration), s')) : registration.node.clusterId = s.clusterId := by
  unfold NodeControl.register at h
  split at h
  · cases h
  · split_ifs at h with hmismatch hshort
    · cases h
    · cases h
    · simp only [PairingManager.generateChallenge, Prod.mk.injEq, Outcome.ok.injEq,
        Sum.inr.injEq] at h
      obtain ⟨rfl, -⟩ := h
      exact not_not.1 hmismatch

/-! ## Steps -/

theorem clusterId_step {c t : ControlPlane S} {e : CoordinatorEvent}
    (he : c.step parseStr sha256 e = some t) : t.cluster.clusterId = c.cluster.clusterId := by
  have hstep := cluster_step he
  generalize t.cluster = cluster at hstep ⊢
  cases hstep <;> rfl

/-- No write to a node moves it to another cluster. -/
theorem clusterId_of_update {e : CoordinatorEvent} {k : NodeId} {f : PhysicalNode → PhysicalNode}
    (h : update parseStr e = some (k, f)) (node : PhysicalNode) :
    (f node).clusterId = node.clusterId := by
  cases e with
  | sendHeartbeat | heartbeat | drain =>
    obtain ⟨k, -, ⟨⟩⟩ := Option.map_eq_some_iff.1 h
    rfl
  | probe req probed =>
    cases probed with
    | error e => cases h
    | ok capabilities =>
      obtain ⟨k, -, ⟨⟩⟩ := Option.map_eq_some_iff.1 h
      rfl
  | registerNode | register | insertNode | tick | sweep | verifyResponse => cases h

/-- **Where a waiting registration comes from.** -/
theorem registering_step {c t : ControlPlane S} {e : CoordinatorEvent}
    (he : c.step parseStr sha256 e = some t) {registration : Registration}
    (h : registration ∈ t.registering) :
    registration ∈ c.registering ∨ registration.node.clusterId = c.cluster.clusterId ∨
      ∃ req nodeId now, registration = Api.registerNode parseStr c.cluster req nodeId now := by
  cases e with
  | registerNode req nodeId now =>
    cases he
    obtain h | h := List.mem_append.1 h
    · exact .inl h
    · exact .inr (.inr ⟨req, nodeId, now, List.mem_singleton.1 h⟩)
  | register req nodeId challenge drawnAt now =>
    simp only [step] at he
    split at he
    · next heq =>
      split at he
      · cases he
      · cases he
        obtain h | h := List.mem_append.1 h
        · exact .inl h
        · rw [List.mem_singleton.1 h]
          exact .inr (.inl (register_clusterId heq))
    · cases he
      exact .inl h
  | insertNode i =>
    simp only [step] at he
    split at he
    · cases he
    · cases he
      exact .inl (List.mem_of_mem_eraseIdx h)
  | sendHeartbeat | heartbeat | probe | drain =>
    cases he
    exact .inl h
  | tick now =>
    simp only [step] at he
    split at he
    · cases he
    · cases he
      exact .inl h
  | sweep =>
    simp only [step] at he
    split at he
    · cases he
    · cases he
      exact .inl h
  | verifyResponse response nodePublicKey checkedAt now =>
    simp only [step] at he
    split at he
    · cases he
    · cases he
      exact .inl h

theorem Vetted.step {c t : ControlPlane S} {e : CoordinatorEvent} (h : Vetted parseStr c)
    (he : c.step parseStr sha256 e = some t) : Vetted parseStr t := by
  have hid := clusterId_step he
  have hnode (req : Api.RegisterNodeRequest) (nodeId : NodeId) (now : DateTime) :
      Api.registerNode parseStr t.cluster req nodeId now =
        Api.registerNode parseStr c.cluster req nodeId now := by
    simp only [Api.registerNode, hid]
  intro registration hmem
  simp only [hid, hnode]
  obtain hold | hnew := registering_step he hmem
  · exact h registration hold
  · exact hnew

theorem members_step {c t : ControlPlane S} {e : CoordinatorEvent} (hvetted : Vetted parseStr c)
    (h : Members c) (he : c.step parseStr sha256 e = some t) :
    Members t ↔ AdmitsOwn parseStr c e := by
  have hstep := cluster_step he
  unfold Members
  rw [clusterId_step he]
  generalize t.cluster = cluster at hstep ⊢
  cases hstep with
  | @same _ hupdate hinsert =>
    exact iff_of_true h fun i req nodeId now heq => absurd heq (hinsert i)
  | draw | verify => exact iff_of_true h fun i req nodeId now heq => by cases heq
  | @insert i registration hget =>
    constructor
    · intro hmembers j req nodeId now heq hj
      cases heq
      rw [hget] at hj
      obtain rfl := Option.some.inj hj
      exact claimsOwn_iff.2 (hmembers _ _ (AList.lookup_insert _))
    · intro hadmits id node hid
      by_cases hkey : id = registration.node.id
      · rw [hkey, AList.lookup_insert] at hid
        cases hid
        obtain hown | ⟨req, nodeId, now, rfl⟩ := hvetted _ (List.mem_of_getElem? hget)
        · exact hown
        · exact claimsOwn_iff.1 (hadmits i req nodeId now rfl hget)
      · rw [AList.lookup_insert_ne hkey] at hid
        exact h id node hid
  | @modify _ k f hupdate =>
    refine iff_of_true (fun id node hid => ?_) fun i req nodeId now heq => ?_
    · obtain ⟨old, hold, rfl⟩ := HashMap.lookup_modify_eq_some hid
      rw [← h id old hold]
      split
      · exact clusterId_of_update hupdate old
      · rfl
    · subst heq
      cases hupdate
  | sweep =>
    refine iff_of_true (fun id node hid => ?_) fun i req nodeId now heq => by cases heq
    obtain ⟨old, hold, -, rfl⟩ := Monitor.lookup_sweep_eq_some hid
    rw [← h id old hold]
    split <;> rfl

/-! ## Runs -/

/-- **Every node is the coordinator's own** throughout a run exactly if no HTTP registration that
ends claims another cluster. -/
theorem always_members_iff (clusterId : ClusterId) (key : S.SecretKey)
    (es : List CoordinatorEvent) :
    Lts.Always (step parseStr sha256) Members (init clusterId key) es ↔
      Lts.Meets (step parseStr sha256) (AdmitsOwn parseStr) (init clusterId key) es := by
  refine Lts.always_iff_meets (I := Vetted parseStr) (fun _ _ _ hvetted he => hvetted.step he)
    (fun _ _ _ hvetted hmembers he => members_step hvetted hmembers he) ?_ ?_
  · exact fun registration hmem => absurd hmem List.not_mem_nil
  · intro id node hid
    cases (AList.lookup_empty id).symm.trans hid

/-- Node 2 registers with cluster 0 and claims cluster 1. -/
def registerStranger : List CoordinatorEvent :=
  [.registerNode ⟨"node", "node.local", (⟨1⟩ : Uuid).hyphenated, (smallNode ⟨2⟩ ⟨1⟩).capabilities,
    (smallNode ⟨2⟩ ⟨1⟩).resources⟩ ⟨2⟩ ⟨0⟩, .insertNode 0]

theorem registerStranger_admitted : ¬ ∀ es : List CoordinatorEvent,
    Lts.Always (step parseNodeOne id) Members initSymbolic es := by
  intro h
  obtain ⟨c, hc, hid, node, hnode, hcluster⟩ : ∃ c : ControlPlane .symbolic,
      Lts.exec (step parseNodeOne id) initSymbolic registerStranger = some c ∧
        c.cluster.clusterId = ⟨0⟩ ∧
        ∃ node, c.cluster.nodes.lookup ⟨2⟩ = some node ∧ node.clusterId = ⟨1⟩ :=
    ⟨_, rfl, rfl, _, rfl, rfl⟩
  have hmembers := (h registerStranger).last hc
  have hown := hmembers ⟨2⟩ node hnode
  rw [hcluster, hid] at hown
  exact absurd hown (by decide)

end TensorGrid.ControlPlane
