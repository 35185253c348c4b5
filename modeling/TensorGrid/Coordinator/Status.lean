import TensorGrid.Coordinator.Model

/-!
# How the status of a node changes

`Monitor.lookup_sweep` is what a tick does to each node, `cluster_step` all that one step of the
coordinator can do to its state. `status_step` is what follows for a status: a step keeps it, makes
it Suspect or Draining, or makes it Healthy, and the last is what the steps with a node in
`promotes` do (`healthy_of_promotes`).
-/

namespace TensorGrid

open Rust

/-! ## A tick -/

namespace Monitor

/-- A round by the silence it finds: the mark of the first test never outlives the second. -/
theorem check_eq (now : DateTime) (node : PhysicalNode) : check now node =
    if 30 < node.silence now then ({ node with status := .unavailable }, true)
    else if 10 < node.silence now ∧ node.status = .healthy then
      ({ node with status := .suspect }, false)
    else (node, false) := by
  unfold check
  by_cases h : 10 < node.silence now ∧ node.status = .healthy
  · rw [if_pos h, if_pos h]
    rfl
  · rw [if_neg h, if_neg h]

theorem check_removes (now : DateTime) (node : PhysicalNode) :
    (check now node).2 = true ↔ 30 < node.silence now := by
  rw [check_eq]
  split_ifs <;> simp_all

/-- What happens to a node that stays. -/
theorem check_kept {now : DateTime} {node : PhysicalNode} (h : ¬ 30 < node.silence now) :
    (check now node).1 =
      if 10 < node.silence now ∧ node.status = .healthy then { node with status := .suspect }
      else node := by
  rw [check_eq, if_neg h]
  split_ifs <;> rfl

/-- **A tick, node by node.** -/
theorem lookup_sweep (now : DateTime) (nodes : HashMap NodeId PhysicalNode) (id : NodeId) :
    (sweep now nodes).lookup id = (nodes.lookup id).bind fun node =>
      if 30 < node.silence now then none else some (check now node).1 := by
  have hremove : id ∈ (nodes.entries.filterMap fun e =>
      if (check now e.2).2 then some e.1 else none) ↔
        ∃ node, nodes.lookup id = some node ∧ 30 < node.silence now := by
    rw [List.mem_filterMap]
    constructor
    · rintro ⟨⟨id', node⟩, hmem, hid⟩
      split at hid
      · next hcheck =>
        cases hid
        exact ⟨node, HashMap.mem_entries_iff.1 hmem, (check_removes now node).1 hcheck⟩
      · cases hid
    · rintro ⟨node, hnode, hsilence⟩
      exact ⟨⟨id, node⟩, HashMap.mem_entries_iff.2 hnode,
        if_pos ((check_removes now node).2 hsilence)⟩
  rw [sweep, HashMap.lookup_eraseAll, HashMap.lookup_mapValues]
  cases hnode : nodes.lookup id with
  | none => exact ite_self _
  | some node =>
    by_cases hsilence : 30 < node.silence now
    · rw [if_pos (hremove.2 ⟨node, hnode, hsilence⟩)]
      exact (if_pos hsilence).symm
    · rw [if_neg fun h => ?_]
      · exact (if_neg hsilence).symm
      · obtain ⟨node', hnode', hsilence'⟩ := hremove.1 h
        rw [hnode] at hnode'
        cases hnode'
        exact hsilence hsilence'

end Monitor

/-! ## A step -/

namespace ControlPlane

variable {S : SignatureScheme} {parseStr : String → Option Uuid}
  {sha256 : List UInt8 → List UInt8}

/-- What a heartbeat, a probe or a drain writes, and to which node if it is in the map. -/
def update (parseStr : String → Option Uuid) :
    CoordinatorEvent → Option (NodeId × (PhysicalNode → PhysicalNode))
  | .sendHeartbeat nodeId req now => (parseStr nodeId).map (·, fun node =>
      { node with lastHeartbeat := now, resources := req.resources, status := .healthy })
  | .heartbeat req now => (parseStr req.nodeId).map (·, fun node =>
      { node with resources := NodeControl.convertNodeResources req.resources,
                  lastHeartbeat := now, status := .healthy })
  | .probe req (.ok capabilities) => (parseStr req.nodeId).map (·, fun node =>
      { node with capabilities, status := .healthy })
  | .drain req => (parseStr req.nodeId).map (·, fun node => { node with status := .draining })
  | _ => none

/-- **All that a step can do to the cluster.** -/
inductive ClusterStep (parseStr : String → Option Uuid) (sha256 : List UInt8 → List UInt8)
    (c : ControlPlane S) : CoordinatorEvent → ClusterState S → Prop
  | same {e : CoordinatorEvent} (hupdate : update parseStr e = none)
      (hinsert : ∀ i, e ≠ .insertNode i) : ClusterStep parseStr sha256 c e c.cluster
  | draw {req : NodeControl.RegisterRequest} {nodeId : NodeId} {challenge : Vector UInt8 32}
      {drawnAt now : DateTime} {m : PairingManager S}
      (h : m.nodeKeys = c.cluster.pairingManager.nodeKeys) :
    ClusterStep parseStr sha256 c (.register req nodeId challenge drawnAt now)
      { c.cluster with pairingManager := m }
  | insert {i : Nat} {registration : Registration} (h : c.registering[i]? = some registration) :
    ClusterStep parseStr sha256 c (.insertNode i)
      { c.cluster with
        nodes := c.cluster.nodes.insert registration.node.id registration.node }
  | modify {e : CoordinatorEvent} {id : NodeId} {f : PhysicalNode → PhysicalNode}
      (h : update parseStr e = some (id, f)) :
    ClusterStep parseStr sha256 c e { c.cluster with nodes := c.cluster.nodes.modify id f }
  | sweep {now : DateTime} (h : c.monitor = some now) :
    ClusterStep parseStr sha256 c .sweep
      { c.cluster with nodes := Monitor.sweep now c.cluster.nodes }
  | verify {response : PairingResponse} {nodePublicKey : List UInt8} {checkedAt now : DateTime} :
    ClusterStep parseStr sha256 c (.verifyResponse response nodePublicKey checkedAt now)
      { c.cluster with pairingManager := (c.cluster.pairingManager.verifyResponse sha256 response
          nodePublicKey checkedAt now).2 }

/-- A call of `register` draws a challenge or does not get that far. -/
theorem cluster_register (s : ClusterState S) (req : NodeControl.RegisterRequest)
    (nodeId : NodeId) (challenge : Vector UInt8 32) (drawnAt now : DateTime) :
    ∃ m : PairingManager S, m.nodeKeys = s.pairingManager.nodeKeys ∧
      (NodeControl.register parseStr s req nodeId challenge drawnAt now).2 =
        { s with pairingManager := m } := by
  unfold NodeControl.register
  split
  · exact ⟨s.pairingManager, rfl, rfl⟩
  · split_ifs
    · exact ⟨s.pairingManager, rfl, rfl⟩
    · exact ⟨s.pairingManager, rfl, rfl⟩
    · refine ⟨_, ?_, rfl⟩
      rfl

theorem step_register {c t : ControlPlane S} {req : NodeControl.RegisterRequest}
    {nodeId : NodeId} {challenge : Vector UInt8 32} {drawnAt now : DateTime}
    (he : c.step parseStr sha256 (.register req nodeId challenge drawnAt now) = some t) :
    t.cluster = (NodeControl.register parseStr c.cluster req nodeId challenge drawnAt now).2 := by
  simp only [step] at he
  split at he
  · next heq =>
    rw [heq]
    split at he
    · cases he
    · cases he
      rfl
  · next heq =>
    cases he
    rw [heq]

theorem cluster_step {c t : ControlPlane S} {e : CoordinatorEvent}
    (he : c.step parseStr sha256 e = some t) : ClusterStep parseStr sha256 c e t.cluster := by
  cases e with
  | registerNode req nodeId now =>
    cases he
    exact .same rfl nofun
  | register req nodeId challenge drawnAt now =>
    obtain ⟨m, hkeys, hm⟩ := @cluster_register S parseStr c.cluster req nodeId challenge drawnAt now
    rw [step_register he, hm]
    exact .draw hkeys
  | insertNode i =>
    simp only [step] at he
    split at he
    · cases he
    · next registration hget =>
      cases he
      obtain ⟨node, challenge, hstatus⟩ := registration
      cases challenge with
      | none => exact .insert hget
      | some challenge => exact .insert hget
  | sendHeartbeat nodeId req now =>
    cases he
    show ClusterStep parseStr sha256 c _ (Api.sendHeartbeat parseStr c.cluster nodeId req now).2
    unfold Api.sendHeartbeat
    split
    · next hparse => exact .same (by rw [update, hparse]; rfl) nofun
    · next id hparse =>
      have hmodify : ClusterStep parseStr sha256 c (.sendHeartbeat nodeId req now)
          { c.cluster with nodes := c.cluster.nodes.modify id _ } :=
        .modify (by rw [update, hparse]; rfl)
      split
      · exact hmodify
      · next hmem =>
        rw [HashMap.modify_of_notMem hmem] at hmodify
        exact hmodify
  | heartbeat req now =>
    cases he
    show ClusterStep parseStr sha256 c _ (NodeControl.heartbeat parseStr c.cluster req now).2
    unfold NodeControl.heartbeat
    split
    · next hparse => exact .same (by rw [update, hparse]; rfl) nofun
    · next id hparse => exact .modify (by rw [update, hparse]; rfl)
  | probe req probed =>
    cases he
    show ClusterStep parseStr sha256 c _ (NodeControl.probe parseStr c.cluster req probed).2
    unfold NodeControl.probe
    split
    · next hparse =>
      refine .same ?_ nofun
      cases probed with
      | error e => rfl
      | ok capabilities => rw [update, hparse]; rfl
    · next id hparse =>
      split
      · exact .same rfl nofun
      · exact .modify (by rw [update, hparse]; rfl)
  | drain req =>
    cases he
    show ClusterStep parseStr sha256 c _ (NodeControl.drain parseStr c.cluster req).2
    unfold NodeControl.drain
    split
    · next hparse => exact .same (by rw [update, hparse]; rfl) nofun
    · next id hparse => exact .modify (by rw [update, hparse]; rfl)
  | tick now =>
    simp only [step] at he
    split at he
    · cases he
    · cases he
      exact .same rfl nofun
  | sweep =>
    simp only [step] at he
    split at he
    · cases he
    · next now hnow =>
      cases he
      exact .sweep hnow
  | verifyResponse response nodePublicKey checkedAt now =>
    simp only [step] at he
    split at he
    · cases he
    · cases he
      exact .verify

/-! ## Who becomes Healthy -/

/-- The node of the map that a message with this text for an id is about. -/
def addressee (parseStr : String → Option Uuid) (c : ControlPlane S) (text : String) :
    Option NodeId :=
  (parseStr text).filter (· ∈ c.cluster.nodes)

/-- The node that the step makes Healthy. -/
def promotes (parseStr : String → Option Uuid) (c : ControlPlane S) :
    CoordinatorEvent → Option NodeId
  | .insertNode i => (c.registering[i]?.filter (·.node.status = .healthy)).map (·.node.id)
  | .sendHeartbeat nodeId _ _ => addressee parseStr c nodeId
  | .heartbeat req _ => addressee parseStr c req.nodeId
  | .probe req (.ok _) => addressee parseStr c req.nodeId
  | _ => none

theorem addressee_of_parse {c : ControlPlane S} {text : String} {id : NodeId}
    (h : parseStr text = some id) :
    addressee parseStr c text = if id ∈ c.cluster.nodes then some id else none := by
  rw [addressee, h]
  by_cases hmem : id ∈ c.cluster.nodes <;> simp [hmem]

theorem addressee_of_none {c : ControlPlane S} {text : String} (h : parseStr text = none) :
    addressee parseStr c text = none := by
  rw [addressee, h]
  rfl

/-- A write to a node makes it Draining, or is a promotion if the node is in the map. -/
theorem update_cases (c : ControlPlane S) {e : CoordinatorEvent} {id : NodeId}
    {f : PhysicalNode → PhysicalNode} (h : update parseStr e = some (id, f)) :
    ((∀ old, (f old).status = .draining) ∧ promotes parseStr c e = none) ∨
      ((∀ old, (f old).status = .healthy) ∧
        promotes parseStr c e = if id ∈ c.cluster.nodes then some id else none) := by
  cases e with
  | sendHeartbeat nodeId req now =>
    obtain ⟨k, hparse, ⟨⟩⟩ := Option.map_eq_some_iff.1 h
    exact .inr ⟨fun _ => rfl, addressee_of_parse hparse⟩
  | heartbeat req now =>
    obtain ⟨k, hparse, ⟨⟩⟩ := Option.map_eq_some_iff.1 h
    exact .inr ⟨fun _ => rfl, addressee_of_parse hparse⟩
  | probe req probed =>
    cases probed with
    | error e => cases h
    | ok capabilities =>
      obtain ⟨k, hparse, ⟨⟩⟩ := Option.map_eq_some_iff.1 h
      exact .inr ⟨fun _ => rfl, addressee_of_parse hparse⟩
  | drain req =>
    obtain ⟨k, hparse, ⟨⟩⟩ := Option.map_eq_some_iff.1 h
    exact .inl ⟨fun _ => rfl, rfl⟩
  | registerNode | register | insertNode | tick | sweep | verifyResponse => cases h

theorem promotes_eq_none {c : ControlPlane S} {e : CoordinatorEvent}
    (hupdate : update parseStr e = none) (hinsert : ∀ i, e ≠ .insertNode i) :
    promotes parseStr c e = none := by
  cases e with
  | insertNode i => exact absurd rfl (hinsert i)
  | sendHeartbeat nodeId req now => exact addressee_of_none (Option.map_eq_none_iff.1 hupdate)
  | heartbeat req now => exact addressee_of_none (Option.map_eq_none_iff.1 hupdate)
  | probe req probed =>
    cases probed with
    | error e => rfl
    | ok capabilities => exact addressee_of_none (Option.map_eq_none_iff.1 hupdate)
  | drain | registerNode | register | tick | sweep | verifyResponse => rfl

/-- **The ways a step can leave a status.** -/
theorem status_step {c t : ControlPlane S} {e : CoordinatorEvent}
    (he : c.step parseStr sha256 e = some t) {id : NodeId} {node : PhysicalNode}
    (hid : t.cluster.nodes.lookup id = some node) :
    (∃ old, c.cluster.nodes.lookup id = some old ∧ old.status = node.status) ∨
      (node.status = .healthy ∧ promotes parseStr c e = some id) ∨
      node.status = .suspect ∨ node.status = .draining := by
  have hstep := cluster_step he
  generalize t.cluster = cluster at hid hstep
  cases hstep with
  | same | draw | verify => exact .inl ⟨node, hid, rfl⟩
  | @insert i registration hget =>
    by_cases hkey : id = registration.node.id
    · rw [hkey, AList.lookup_insert] at hid
      cases hid
      obtain hhealthy | hsuspect := registration.status
      · refine .inr (.inl ⟨hhealthy, ?_⟩)
        rw [promotes, hget, hkey]
        simp [hhealthy]
      · exact .inr (.inr (.inl hsuspect))
    · rw [AList.lookup_insert_ne hkey] at hid
      exact .inl ⟨node, hid, rfl⟩
  | @modify _ k f hupdate =>
    by_cases hkey : id = k
    · rw [hkey, HashMap.lookup_modify] at hid
      obtain ⟨old, hold, rfl⟩ := Option.map_eq_some_iff.1 hid
      obtain ⟨hdraining, -⟩ | ⟨hhealthy, hpromotes⟩ := update_cases c hupdate
      · exact .inr (.inr (.inr (hdraining old)))
      · rw [if_pos (HashMap.mem_of_lookup hold), ← hkey] at hpromotes
        exact .inr (.inl ⟨hhealthy old, hpromotes⟩)
    · rw [HashMap.lookup_modify_ne hkey] at hid
      exact .inl ⟨node, hid, rfl⟩
  | sweep hnow =>
    rw [Monitor.lookup_sweep] at hid
    obtain ⟨old, hold, hid⟩ := Option.bind_eq_some_iff.1 hid
    split at hid
    · cases hid
    · next hsilence =>
      rw [Monitor.check_kept hsilence] at hid
      cases hid
      split
      · exact .inr (.inr (.inl rfl))
      · exact .inl ⟨old, hold, rfl⟩

theorem healthy_of_promotes {c t : ControlPlane S} {e : CoordinatorEvent}
    (he : c.step parseStr sha256 e = some t) {id : NodeId}
    (h : promotes parseStr c e = some id) :
    ∃ node, t.cluster.nodes.lookup id = some node ∧ node.status = .healthy := by
  have hstep := cluster_step he
  generalize t.cluster = cluster at hstep
  cases hstep with
  | same hupdate hinsert =>
    rw [promotes_eq_none hupdate hinsert] at h
    cases h
  | @insert i registration hget =>
    rw [promotes, hget] at h
    obtain ⟨r, hr, rfl⟩ := Option.map_eq_some_iff.1 h
    obtain ⟨hsome, hhealthy⟩ := Option.filter_eq_some_iff.1 hr
    cases hsome
    exact ⟨_, AList.lookup_insert _, of_decide_eq_true hhealthy⟩
  | @modify _ k f hupdate =>
    obtain ⟨-, hnone⟩ | ⟨hhealthy, hpromotes⟩ := update_cases c hupdate
    · rw [hnone] at h
      cases h
    · rw [hpromotes] at h
      split at h
      · next hmem =>
        cases h
        obtain ⟨old, hold⟩ := HashMap.lookup_of_mem hmem
        exact ⟨f old, by rw [HashMap.lookup_modify, hold]; rfl, hhealthy old⟩
      · cases h
  | draw | sweep | verify => cases h

end ControlPlane

end TensorGrid
