import TensorGrid.Coordinator.Draining

/-!
# Heartbeats out of order

A heartbeat carries a sequence number, and nobody reads it: `send_heartbeat` and `heartbeat` write
the resources of every heartbeat over those of the one before. So a node has the resources of the
heartbeat delivered last (`latest`), and those of the newest one exactly if that is the same:
`newestWins_iff`. It is so if no heartbeat is overtaken (`newest_of_inOrder`).
-/

namespace TensorGrid.ControlPlane

open Rust

variable {S : SignatureScheme} {parseStr : String → Option Uuid}
  {sha256 : List UInt8 → List UInt8}

/-- What a heartbeat of either path carries. -/
structure Heartbeat where
  sequence : UInt64
  resources : NodeResources

/-- The heartbeat that the event delivers to the node, if it is in the map. -/
def delivers (parseStr : String → Option Uuid) (id : NodeId) (c : ControlPlane S) :
    CoordinatorEvent → Option Heartbeat
  | .sendHeartbeat nodeId req _ =>
    if addressee parseStr c nodeId = some id then some ⟨req.sequence, req.resources⟩ else none
  | .heartbeat req _ =>
    if addressee parseStr c req.nodeId = some id then
      some ⟨req.sequence, NodeControl.convertNodeResources req.resources⟩
    else none
  | _ => none

/-- The heartbeats delivered to the node since its last registration, oldest delivery first. -/
def record (parseStr : String → Option Uuid) (id : NodeId) (c : ControlPlane S)
    (e : CoordinatorEvent) (heartbeats : List Heartbeat) : List Heartbeat :=
  match e with
  | .insertNode i => if c.registering[i]?.any (·.node.id = id) then [] else heartbeats
  | e => heartbeats ++ (delivers parseStr id c e).toList

def delivered (parseStr : String → Option Uuid) (sha256 : List UInt8 → List UInt8)
    (c₀ : ControlPlane S) (es : List CoordinatorEvent) (id : NodeId) : List Heartbeat :=
  Lts.observe (step parseStr sha256) (record parseStr id) c₀ es []

/-- A heartbeat with the greatest sequence number carries these resources. -/
def Newest (heartbeats : List Heartbeat) (resources : NodeResources) : Prop :=
  ∃ m ∈ heartbeats, (∀ m' ∈ heartbeats, m'.sequence ≤ m.sequence) ∧ m.resources = resources

/-- After the run every node that got a heartbeat has the resources of the newest one. -/
def NewestWins (parseStr : String → Option Uuid) (sha256 : List UInt8 → List UInt8)
    (c₀ : ControlPlane S) (es : List CoordinatorEvent) : Prop :=
  ∀ c id node, Lts.exec (step parseStr sha256) c₀ es = some c →
    c.cluster.nodes.lookup id = some node → delivered parseStr sha256 c₀ es id ≠ [] →
      Newest (delivered parseStr sha256 c₀ es id) node.resources

/-- For every node the heartbeat delivered last has what the newest one has. -/
def LastIsNewest (parseStr : String → Option Uuid) (sha256 : List UInt8 → List UInt8)
    (c₀ : ControlPlane S) (es : List CoordinatorEvent) : Prop :=
  ∀ c id last, Lts.exec (step parseStr sha256) c₀ es = some c → id ∈ c.cluster.nodes →
    (delivered parseStr sha256 c₀ es id).getLast? = some last →
      Newest (delivered parseStr sha256 c₀ es id) last.resources

/-! ## Steps -/

/-- The node has the resources of the heartbeat delivered last. -/
def Latest (heartbeats : List Heartbeat) (node : PhysicalNode) : Prop :=
  ∀ last, heartbeats.getLast? = some last → node.resources = last.resources

theorem latest_concat {heartbeats : List Heartbeat} {m : Heartbeat} {node : PhysicalNode}
    (h : node.resources = m.resources) : Latest (heartbeats ++ [m]) node := by
  intro last hlast
  rw [List.getLast?_concat] at hlast
  cases hlast
  exact h

theorem Latest.congr {heartbeats : List Heartbeat} {old node : PhysicalNode}
    (h : Latest heartbeats old) (hsame : node.resources = old.resources) :
    Latest heartbeats node := fun last hlast => hsame.trans (h last hlast)

/-- A step that writes to no node delivers nothing. -/
theorem delivers_eq_none {id : NodeId} {c : ControlPlane S} {e : CoordinatorEvent}
    (h : update parseStr e = none) : delivers parseStr id c e = none := by
  cases e with
  | sendHeartbeat nodeId req now => simp [delivers, addressee_of_none (Option.map_eq_none_iff.1 h)]
  | heartbeat req now => simp [delivers, addressee_of_none (Option.map_eq_none_iff.1 h)]
  | registerNode | register | insertNode | probe | drain | tick | sweep | verifyResponse => rfl

/-- A write to a node stores the resources of the heartbeat it delivers, if it delivers one. -/
theorem delivers_of_update {id k : NodeId} {c : ControlPlane S} {e : CoordinatorEvent}
    {f : PhysicalNode → PhysicalNode} (h : update parseStr e = some (k, f))
    {old : PhysicalNode} (hold : c.cluster.nodes.lookup id = some old) :
    (id ≠ k ∧ delivers parseStr id c e = none) ∨
      (id = k ∧ ∃ m, delivers parseStr id c e = some m ∧ (f old).resources = m.resources) ∨
      (delivers parseStr id c e = none ∧ (f old).resources = old.resources) := by
  have haddressee {text : String} (hparse : parseStr text = some k) :
      addressee parseStr c text = some id ↔ id = k := by
    rw [addressee_of_parse hparse]
    split
    · rw [Option.some.injEq, eq_comm]
    · next hmem =>
      simp only [reduceCtorEq, false_iff]
      rintro rfl
      exact hmem (HashMap.mem_of_lookup hold)
  cases e with
  | sendHeartbeat nodeId req now =>
    obtain ⟨k, hparse, ⟨⟩⟩ := Option.map_eq_some_iff.1 h
    by_cases hkey : id = k
    · exact .inr (.inl ⟨hkey, _, if_pos ((haddressee hparse).2 hkey), rfl⟩)
    · exact .inl ⟨hkey, if_neg (mt (haddressee hparse).1 hkey)⟩
  | heartbeat req now =>
    obtain ⟨k, hparse, ⟨⟩⟩ := Option.map_eq_some_iff.1 h
    by_cases hkey : id = k
    · exact .inr (.inl ⟨hkey, _, if_pos ((haddressee hparse).2 hkey), rfl⟩)
    · exact .inl ⟨hkey, if_neg (mt (haddressee hparse).1 hkey)⟩
  | probe req probed =>
    cases probed with
    | error e => cases h
    | ok capabilities =>
      obtain ⟨k, -, ⟨⟩⟩ := Option.map_eq_some_iff.1 h
      exact .inr (.inr ⟨rfl, rfl⟩)
  | drain req =>
    obtain ⟨k, -, ⟨⟩⟩ := Option.map_eq_some_iff.1 h
    exact .inr (.inr ⟨rfl, rfl⟩)
  | registerNode | register | insertNode | tick | sweep | verifyResponse => cases h

/-- Any step but a registration adds what it delivers. -/
theorem record_of_update {id : NodeId} {c : ControlPlane S} {e : CoordinatorEvent}
    (hinsert : ∀ i, e ≠ .insertNode i) (heartbeats : List Heartbeat) :
    record parseStr id c e heartbeats = heartbeats ++ (delivers parseStr id c e).toList := by
  unfold record
  split
  · exact absurd rfl (hinsert _)
  · rfl

theorem latest_step {c t : ControlPlane S} {e : CoordinatorEvent}
    (he : c.step parseStr sha256 e = some t) {id : NodeId} {heartbeats : List Heartbeat}
    (h : ∀ old, c.cluster.nodes.lookup id = some old → Latest heartbeats old)
    {node : PhysicalNode} (hid : t.cluster.nodes.lookup id = some node) :
    Latest (record parseStr id c e heartbeats) node := by
  have hstep := cluster_step he
  generalize t.cluster = cluster at hid hstep
  cases hstep with
  | same hupdate hinsert =>
    rw [record_of_update hinsert, delivers_eq_none hupdate, Option.toList_none, List.append_nil]
    exact h node hid
  | draw | verify => simpa [record, delivers] using h node hid
  | @insert i registration hget =>
    simp only [record, hget, Option.any_some, decide_eq_true_eq]
    split
    · exact nofun
    · next hkey =>
      rw [AList.lookup_insert_ne (Ne.symm hkey)] at hid
      exact h node hid
  | @modify _ k f hupdate =>
    have hinsert : ∀ i, e ≠ .insertNode i := by
      rintro i rfl
      cases hupdate
    obtain ⟨old, hold, hnode⟩ := HashMap.lookup_modify_eq_some hid
    rw [record_of_update hinsert, hnode]
    obtain ⟨hkey, hnone⟩ | ⟨hkey, m, hm, hresources⟩ | ⟨hnone, hresources⟩ :=
      delivers_of_update hupdate hold
    · rw [hnone, Option.toList_none, List.append_nil, if_neg hkey]
      exact h old hold
    · rw [hm, Option.toList_some, if_pos hkey]
      exact latest_concat hresources
    · rw [hnone, Option.toList_none, List.append_nil]
      refine (h old hold).congr ?_
      split
      · exact hresources
      · rfl
  | sweep =>
    obtain ⟨old, hold, -, rfl⟩ := Monitor.lookup_sweep_eq_some hid
    simp only [record, delivers, Option.toList_none, List.append_nil]
    refine (h old hold).congr ?_
    split <;> rfl

/-! ## Runs -/

theorem latest {clusterId : ClusterId} {key : S.SecretKey} {es : List CoordinatorEvent}
    {c : ControlPlane S}
    (hes : Lts.exec (step parseStr sha256) (init clusterId key) es = some c) {id : NodeId}
    {node : PhysicalNode} (hid : c.cluster.nodes.lookup id = some node) :
    Latest (delivered parseStr sha256 (init clusterId key) es id) node := by
  refine Lts.exec_induction (P := fun es (c : ControlPlane S) => ∀ node,
    c.cluster.nodes.lookup id = some node →
      Latest (delivered parseStr sha256 (init clusterId key) es id) node)
    (fun node hid => ?_) (fun es s e t hes ih he node hid => ?_) hes node hid
  · rw [init, AList.lookup_empty] at hid
    cases hid
  · rw [delivered, Lts.observe_concat hes he]
    exact latest_step he ih hid

/-- **Stale heartbeats lose** exactly if, for every node, the heartbeat delivered last has what the
newest one has. -/
theorem newestWins_iff (clusterId : ClusterId) (key : S.SecretKey) (es : List CoordinatorEvent) :
    NewestWins parseStr sha256 (init clusterId key) es ↔
      LastIsNewest parseStr sha256 (init clusterId key) es := by
  constructor
  · intro h c id last hes hmem hlast
    obtain ⟨node, hid⟩ := HashMap.lookup_of_mem hmem
    rw [← latest hes hid last hlast]
    refine h c id node hes hid ?_
    rintro hnil
    rw [hnil] at hlast
    cases hlast
  · intro h c id node hes hid hsome
    have hlast := List.getLast?_eq_some_getLast hsome
    rw [latest hes hid _ hlast]
    exact h c id _ hes (HashMap.mem_of_lookup hid) hlast

/-- What is delivered in the order of the sequence numbers ends with the newest. -/
theorem newest_of_inOrder {heartbeats : List Heartbeat} {last : Heartbeat}
    (h : heartbeats.Pairwise (·.sequence ≤ ·.sequence)) (hlast : heartbeats.getLast? = some last) :
    Newest heartbeats last.resources := by
  obtain ⟨earlier, rfl⟩ := List.getLast?_eq_some_iff.1 hlast
  refine ⟨last, by simp, fun m hm => ?_, rfl⟩
  rw [List.pairwise_append] at h
  obtain hm | hm := List.mem_append.1 hm
  · exact h.2.2 m hm last (by simp)
  · rw [List.mem_singleton.1 hm]
    exact UInt64.le_refl _

/-- The resources of node 1 with this much memory in use. -/
private def resourcesWith (memory : UInt64) : NodeResources :=
  { (smallNode ⟨1⟩ ⟨0⟩).resources with memoryUsedBytes := memory }

/-- Node 1 registers, and its second heartbeat arrives before its first. -/
def overtaken : List CoordinatorEvent :=
  registerAndTick.take 2 ++
    [.sendHeartbeat (⟨1⟩ : Uuid).hyphenated ⟨1, resourcesWith 2048⟩ ⟨4000000000⟩,
      .sendHeartbeat (⟨1⟩ : Uuid).hyphenated ⟨0, resourcesWith 1024⟩ ⟨5000000000⟩]

theorem not_newestWins_overtaken : ¬ NewestWins parseNodeOne id initSymbolic overtaken := by
  intro h
  obtain ⟨c, hc, node, hnode, hresources⟩ : ∃ c : ControlPlane .symbolic,
      Lts.exec (step parseNodeOne id) initSymbolic overtaken = some c ∧
        ∃ node, c.cluster.nodes.lookup ⟨1⟩ = some node ∧ node.resources = resourcesWith 1024 :=
    ⟨_, rfl, _, rfl, rfl⟩
  have hdelivered : delivered parseNodeOne id initSymbolic overtaken ⟨1⟩ =
      [⟨1, resourcesWith 2048⟩, ⟨0, resourcesWith 1024⟩] := rfl
  obtain ⟨m, hm, hgreatest, hm'⟩ := h c ⟨1⟩ node hc hnode (by rw [hdelivered]; exact nofun)
  rw [hdelivered] at hm hgreatest
  rw [hresources] at hm'
  rcases List.mem_pair.1 hm with rfl | rfl
  · cases congrArg NodeResources.memoryUsedBytes hm'
  · exact absurd (hgreatest _ (.head _)) (by decide)

end TensorGrid.ControlPlane
