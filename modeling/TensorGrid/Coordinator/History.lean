import TensorGrid.Coordinator.Draining

/-!
# What the coordinator knows of a node

All that the nodes map says about where a node stands can be read off the run. A node is listed
since it was inserted, until a tick finds it silent for more than 30 seconds. It is Draining since a
request to drain it, Suspect since it registered over gRPC or a tick found it silent for more than
10 seconds, and in both cases until a registration, a heartbeat or a probe revives it; a drain
counts for more than a doubt. Its last heartbeat is the latest one that named it, or what its
registration put there.

`node_step` is a node of the map across a step, `Known.step` the run lemma, `known_of_run` what it
says of every run.
-/

namespace TensorGrid.ControlPlane

open Rust

variable {S : SignatureScheme} {parseStr : String → Option Uuid}
  {sha256 : List UInt8 → List UInt8}

/-! ## What happens to a node -/

/-- A request to drain the node. -/
def AsksToDrain (parseStr : String → Option Uuid) (id : NodeId) (_ : ControlPlane S)
    (e : CoordinatorEvent) : Prop :=
  ∃ req, e = .drain req ∧ parseStr req.nodeId = some id

/-- A heartbeat or a successful probe for the node. -/
def Wakes (parseStr : String → Option Uuid) (id : NodeId) : CoordinatorEvent → Prop
  | .sendHeartbeat nodeId _ _ => parseStr nodeId = some id
  | .heartbeat req _ => parseStr req.nodeId = some id
  | .probe req (.ok _) => parseStr req.nodeId = some id
  | _ => False

def Revives (parseStr : String → Option Uuid) (id : NodeId) (c : ControlPlane S)
    (e : CoordinatorEvent) : Prop :=
  Inserts id c e ∨ Wakes parseStr id e

/-- The node is inserted by a registration over gRPC, or a tick finds it silent for more than 10
seconds. -/
def Doubts (id : NodeId) (c : ControlPlane S) (e : CoordinatorEvent) : Prop :=
  (∃ i registration, e = .insertNode i ∧ c.registering[i]? = some registration ∧
    registration.node.id = id ∧ registration.challenge.isSome) ∨
  (e = .sweep ∧ ∃ now node, c.monitor = some now ∧ c.cluster.nodes.lookup id = some node ∧
    10 < node.silence now)

/-- The reading that the node was last heard of with. -/
def contact (parseStr : String → Option Uuid) (id : NodeId) (c : ControlPlane S)
    (e : CoordinatorEvent) (known : Option DateTime) : Option DateTime :=
  match e with
  | .insertNode i =>
    match c.registering[i]? with
    | some registration =>
      if registration.node.id = id then some registration.node.lastHeartbeat else known
    | none => known
  | .sendHeartbeat nodeId _ now => if parseStr nodeId = some id then some now else known
  | .heartbeat req now => if parseStr req.nodeId = some id then some now else known
  | _ => known

def lastContact (parseStr : String → Option Uuid) (sha256 : List UInt8 → List UInt8)
    (c₀ : ControlPlane S) (es : List CoordinatorEvent) (id : NodeId) : Option DateTime :=
  Lts.observe (step parseStr sha256) (contact parseStr id) c₀ es none

/-- A registration over gRPC waits with a Suspect node, one over HTTP with a Healthy one. -/
def Arriving (c : ControlPlane S) : Prop := ∀ registration ∈ c.registering,
  registration.node.status = if registration.challenge.isSome then .suspect else .healthy

/-- The node was to be drained, and nothing has revived it since. -/
def Drained (parseStr : String → Option Uuid) (sha256 : List UInt8 → List UInt8)
    (c₀ : ControlPlane S) (es : List CoordinatorEvent) (id : NodeId) : Prop :=
  Lts.Since (step parseStr sha256) (AsksToDrain parseStr id) (Revives parseStr id) c₀ es

/-- The node was in doubt, and nothing has revived it since. -/
def Doubted (parseStr : String → Option Uuid) (sha256 : List UInt8 → List UInt8)
    (c₀ : ControlPlane S) (es : List CoordinatorEvent) (id : NodeId) : Prop :=
  Lts.Since (step parseStr sha256) (Doubts id) (Revives parseStr id) c₀ es

open Classical in
/-- What a run says of a listed node. -/
structure Known (parseStr : String → Option Uuid) (sha256 : List UInt8 → List UInt8)
    (c₀ : ControlPlane S) (es : List CoordinatorEvent) (id : NodeId) (node : PhysicalNode) :
    Prop where
  status : node.status =
    if Drained parseStr sha256 c₀ es id then .draining
    else if Doubted parseStr sha256 c₀ es id then .suspect else .healthy
  lastHeartbeat : lastContact parseStr sha256 c₀ es id = some node.lastHeartbeat

/-! ## Steps -/

theorem register_arriving {s s' : ClusterState S} {req : NodeControl.RegisterRequest}
    {nodeId : NodeId} {challenge : Vector UInt8 32} {drawnAt now : DateTime}
    {registration : Registration}
    (h : NodeControl.register parseStr s req nodeId challenge drawnAt now =
      (.ok (.inr registration), s')) :
    registration.node.status = .suspect ∧ registration.challenge.isSome = true := by
  unfold NodeControl.register at h
  split at h
  · cases h
  · split_ifs at h
    · cases h
    · cases h
    · simp only [PairingManager.generateChallenge, Prod.mk.injEq, Outcome.ok.injEq,
        Sum.inr.injEq] at h
      obtain ⟨rfl, -⟩ := h
      exact ⟨rfl, rfl⟩

theorem arriving_init (clusterId : ClusterId) (key : S.SecretKey) :
    Arriving (init clusterId key) := fun registration hmem => by cases hmem

theorem arriving_step {c t : ControlPlane S} {e : CoordinatorEvent} (h : Arriving c)
    (he : c.step parseStr sha256 e = some t) : Arriving t := by
  cases e with
  | registerNode req nodeId now =>
    cases he
    intro registration hmem
    obtain hold | hnew := List.mem_append.1 hmem
    · exact h registration hold
    · rw [List.mem_singleton.1 hnew]
      rfl
  | register req nodeId challenge drawnAt now =>
    simp only [step] at he
    split at he
    · next heq =>
      split at he
      · cases he
      · cases he
        intro registration hmem
        obtain hold | hnew := List.mem_append.1 hmem
        · exact h registration hold
        · obtain ⟨hstatus, hsome⟩ := register_arriving heq
          rw [List.mem_singleton.1 hnew, hstatus, if_pos hsome]
    · cases he
      exact h
  | insertNode i =>
    simp only [step] at he
    split at he
    · cases he
    · cases he
      exact fun registration hmem => h registration (List.mem_of_mem_eraseIdx hmem)
  | sendHeartbeat | heartbeat | probe | drain =>
    cases he
    exact h
  | tick | sweep | verifyResponse =>
    simp only [step] at he
    split at he
    · cases he
    · cases he
      exact h

/-- **A node of the map across a step.** -/
inductive NodeStep (parseStr : String → Option Uuid) (c : ControlPlane S) (id : NodeId)
    (node : PhysicalNode) : CoordinatorEvent → Prop
  | insert {i : Nat} {registration : Registration} (hget : c.registering[i]? = some registration)
      (hid : registration.node.id = id) (hnode : node = registration.node) :
    NodeStep parseStr c id node (.insertNode i)
  | write {e : CoordinatorEvent} {f : PhysicalNode → PhysicalNode} {old : PhysicalNode}
      (hupdate : update parseStr e = some (id, f))
      (hold : c.cluster.nodes.lookup id = some old) (hnode : node = f old) :
    NodeStep parseStr c id node e
  | sweep {now : DateTime} {old : PhysicalNode} (hnow : c.monitor = some now)
      (hold : c.cluster.nodes.lookup id = some old) (hkept : old.silence now ≤ 30)
      (hnode : node = if 10 < old.silence now ∧ old.status = .healthy then
        { old with status := .suspect } else old) :
    NodeStep parseStr c id node .sweep
  | same {e : CoordinatorEvent} (hold : c.cluster.nodes.lookup id = some node)
      (hinsert : ¬ Inserts id c e) (hupdate : ∀ f, update parseStr e ≠ some (id, f))
      (hsweep : e ≠ .sweep) : NodeStep parseStr c id node e

theorem node_step {c t : ControlPlane S} {e : CoordinatorEvent}
    (he : c.step parseStr sha256 e = some t) {id : NodeId} {node : PhysicalNode}
    (hid : t.cluster.nodes.lookup id = some node) : NodeStep parseStr c id node e := by
  by_cases hsweep : e = .sweep
  · subst hsweep
    cases hnow : c.monitor with
    | none =>
      simp only [step, hnow] at he
      cases he
    | some now =>
      rw [step_sweep hnow he] at hid
      obtain ⟨old, hold, hkept, hnode⟩ := Monitor.lookup_sweep_eq_some hid
      exact .sweep hnow hold hkept hnode
  have hstep := cluster_step he
  generalize t.cluster = cluster at hid hstep
  cases hstep with
  | same hupdate hinsert =>
    refine .same hid (fun hinserts => ?_) (fun f hf => ?_) hsweep
    · obtain ⟨i, _, hi, -⟩ := hinserts
      exact hinsert i hi
    · rw [hupdate] at hf
      cases hf
  | draw | verify =>
    refine .same hid (fun hinserts => ?_) (fun f hf => ?_) hsweep
    · obtain ⟨i, _, hi, -⟩ := hinserts
      cases hi
    · cases hf
  | @insert i registration hget =>
    by_cases hkey : registration.node.id = id
    · subst hkey
      rw [AList.lookup_insert] at hid
      cases hid
      exact .insert hget rfl rfl
    · rw [AList.lookup_insert_ne (Ne.symm hkey)] at hid
      refine .same hid (fun hinserts => hkey ?_) (fun f hf => ?_) hsweep
      · obtain ⟨i', registration', hi, hget', hkey'⟩ := hinserts
        cases hi
        rwa [Option.some.inj (hget.symm.trans hget')]
      · cases hf
  | @modify _ k f hupdate =>
    by_cases hkey : id = k
    · subst hkey
      rw [HashMap.lookup_modify] at hid
      obtain ⟨old, hold, hnode⟩ := Option.map_eq_some_iff.1 hid
      exact .write hupdate hold hnode.symm
    · rw [HashMap.lookup_modify_ne hkey] at hid
      refine .same hid (fun hinserts => ?_) (fun f' hf => hkey ?_) hsweep
      · obtain ⟨i, _, hi, -⟩ := hinserts
        subst hi
        cases hupdate
      · exact congrArg Prod.fst (Option.some.inj (hf.symm.trans hupdate))
  | sweep => exact absurd rfl hsweep

theorem not_asksToDrain {c : ControlPlane S} {e : CoordinatorEvent} {id : NodeId}
    (h : ∀ req, e ≠ .drain req) : ¬ AsksToDrain parseStr id c e :=
  fun ⟨req, he, _⟩ => h req he

/-- **What a write to a node is**: a drain, which keeps the reading it was last heard of with, or
a heartbeat or a probe, which keeps it or brings a new one. -/
theorem update_kind {c : ControlPlane S} {e : CoordinatorEvent} {id : NodeId}
    {f : PhysicalNode → PhysicalNode} (h : update parseStr e = some (id, f)) (old : PhysicalNode) :
    contact parseStr id c e (some old.lastHeartbeat) = some (f old).lastHeartbeat ∧
      (AsksToDrain parseStr id c e ∧ ¬ Wakes parseStr id e ∧ (f old).status = .draining ∨
        ¬ AsksToDrain parseStr id c e ∧ Wakes parseStr id e ∧ (f old).status = .healthy) := by
  cases e with
  | sendHeartbeat nodeId req now =>
    obtain ⟨k, hparse, ⟨⟩⟩ := Option.map_eq_some_iff.1 h
    exact ⟨if_pos hparse, .inr ⟨not_asksToDrain fun _ h => (by cases h), hparse, rfl⟩⟩
  | heartbeat req now =>
    obtain ⟨k, hparse, ⟨⟩⟩ := Option.map_eq_some_iff.1 h
    exact ⟨if_pos hparse, .inr ⟨not_asksToDrain fun _ h => (by cases h), hparse, rfl⟩⟩
  | probe req probed =>
    cases probed with
    | error e => cases h
    | ok capabilities =>
      obtain ⟨k, hparse, ⟨⟩⟩ := Option.map_eq_some_iff.1 h
      exact ⟨rfl, .inr ⟨not_asksToDrain fun _ h => (by cases h), hparse, rfl⟩⟩
  | drain req =>
    obtain ⟨k, hparse, ⟨⟩⟩ := Option.map_eq_some_iff.1 h
    exact ⟨rfl, .inl ⟨⟨req, rfl, hparse⟩, fun hwakes => hwakes, rfl⟩⟩
  | registerNode | register | insertNode | tick | sweep | verifyResponse => cases h

/-- A step that neither inserts the node nor writes to it says nothing new of it. -/
theorem unmentioned {c : ControlPlane S} {e : CoordinatorEvent} {id : NodeId}
    (hinsert : ¬ Inserts id c e) (hupdate : ∀ f, update parseStr e ≠ some (id, f)) :
    ¬ AsksToDrain parseStr id c e ∧ ¬ Revives parseStr id c e ∧
      ∀ known, contact parseStr id c e known = known := by
  cases e with
  | insertNode i =>
    refine ⟨not_asksToDrain fun _ h => (by cases h), fun hrevives => ?_, fun known => ?_⟩
    · exact hrevives.elim hinsert fun hwakes => hwakes
    · simp only [contact]
      split
      · next registration hget =>
        exact if_neg fun hid => hinsert ⟨i, registration, rfl, hget, hid⟩
      · rfl
  | sendHeartbeat nodeId req now =>
    have hparse : parseStr nodeId ≠ some id := fun hparse => hupdate _ (by rw [update, hparse]; rfl)
    exact ⟨not_asksToDrain fun _ h => (by cases h), fun hrevives => hrevives.elim hinsert hparse,
      fun known => if_neg hparse⟩
  | heartbeat req now =>
    have hparse : parseStr req.nodeId ≠ some id := fun hparse =>
      hupdate _ (by rw [update, hparse]; rfl)
    exact ⟨not_asksToDrain fun _ h => (by cases h), fun hrevives => hrevives.elim hinsert hparse,
      fun known => if_neg hparse⟩
  | probe req probed =>
    refine ⟨not_asksToDrain fun _ h => (by cases h), fun hrevives => ?_, fun known => rfl⟩
    cases probed with
    | error e => exact hrevives.elim hinsert fun hwakes => hwakes
    | ok capabilities =>
      have hparse : parseStr req.nodeId ≠ some id := fun hparse =>
        hupdate _ (by rw [update, hparse]; rfl)
      exact hrevives.elim hinsert hparse
  | drain req =>
    refine ⟨fun hasks => ?_, fun hrevives => ?_, fun known => rfl⟩
    · obtain ⟨req', hreq, hparse⟩ := hasks
      cases hreq
      exact hupdate _ (by rw [update, hparse]; rfl)
    · exact hrevives.elim hinsert fun hwakes => hwakes
  | registerNode | register | tick | sweep | verifyResponse =>
    exact ⟨not_asksToDrain fun _ h => (by cases h),
      fun hrevives => hrevives.elim hinsert fun hwakes => hwakes, fun known => rfl⟩

/-! ## Runs -/

section
variable {c₀ c t : ControlPlane S} {es : List CoordinatorEvent} {e : CoordinatorEvent}
  {id : NodeId} {node : PhysicalNode}

theorem drained_concat (hes : Lts.exec (step parseStr sha256) c₀ es = some c)
    (he : c.step parseStr sha256 e = some t) : Drained parseStr sha256 c₀ (es ++ [e]) id ↔
      AsksToDrain parseStr id c e ∨ Drained parseStr sha256 c₀ es id ∧ ¬ Revives parseStr id c e :=
  Lts.since_concat hes he

theorem doubted_concat (hes : Lts.exec (step parseStr sha256) c₀ es = some c)
    (he : c.step parseStr sha256 e = some t) : Doubted parseStr sha256 c₀ (es ++ [e]) id ↔
      Doubts id c e ∨ Doubted parseStr sha256 c₀ es id ∧ ¬ Revives parseStr id c e :=
  Lts.since_concat hes he

theorem Known.step (hes : Lts.exec (step parseStr sha256) c₀ es = some c) (harriving : Arriving c)
    (h : ∀ old, c.cluster.nodes.lookup id = some old → Known parseStr sha256 c₀ es id old)
    (he : c.step parseStr sha256 e = some t) (hid : t.cluster.nodes.lookup id = some node) :
    Known parseStr sha256 c₀ (es ++ [e]) id node := by
  classical
  have hcontact : lastContact parseStr sha256 c₀ (es ++ [e]) id =
      ControlPlane.contact parseStr id c e (lastContact parseStr sha256 c₀ es id) :=
    Lts.observe_concat hes he
  cases node_step he hid with
  | @insert i registration hget hkey hnode =>
    have hrevives : Revives parseStr id c (.insertNode i) :=
      .inl ⟨i, registration, rfl, hget, hkey⟩
    have hdrain : ¬ AsksToDrain parseStr id c (.insertNode i) :=
      not_asksToDrain fun _ h => by cases h
    have hdoubt : Doubts id c (.insertNode i) ↔ registration.challenge.isSome = true := by
      constructor
      · intro hdoubts
        obtain ⟨i', registration', hi, hget', -, hsome⟩ | ⟨hsweep, -⟩ := hdoubts
        · cases hi
          rwa [Option.some.inj (hget.symm.trans hget')]
        · cases hsweep
      · exact fun hsome => .inl ⟨i, registration, rfl, hget, hkey, hsome⟩
    subst hnode
    constructor
    · rw [harriving _ (List.mem_of_getElem? hget)]
      simp only [drained_concat hes he, doubted_concat hes he, hdrain, hdoubt, hrevives,
        not_true_eq_false, and_false, or_false, if_false]
    · rw [hcontact]
      simp only [contact, hget, if_pos hkey]
  | @write _ f old hupdate hold hnode =>
    have hinsert : ¬ Inserts id c e := fun ⟨i, _, hi, _⟩ => by
      subst hi
      cases hupdate
    have hsweep : ¬ Doubts id c e := fun hdoubts => by
      obtain ⟨i, _, hi, _⟩ | ⟨hi, _⟩ := hdoubts
      · subst hi
        cases hupdate
      · subst hi
        cases hupdate
    obtain ⟨hknown, hkind⟩ := update_kind (c := c) hupdate old
    subst hnode
    constructor
    · simp only [drained_concat hes he, doubted_concat hes he, hsweep, Revives, hinsert]
      obtain ⟨hdrains, hwakes, hstatus⟩ | ⟨hdrains, hwakes, hstatus⟩ := hkind
      · rw [hstatus, if_pos (.inl hdrains)]
      · simp only [hdrains, hwakes, hstatus, or_true, not_true_eq_false, and_false, or_false,
          if_false]
    · rw [hcontact, (h old hold).lastHeartbeat, hknown]
  | @sweep now old hnow hold _ hnode =>
    have hdrain : ¬ AsksToDrain parseStr id c .sweep := not_asksToDrain fun _ h => by cases h
    have hrevives : ¬ Revives parseStr id c .sweep := fun hrevives => by
      obtain ⟨i, _, hi, _⟩ | hwakes := hrevives
      · cases hi
      · exact hwakes
    have hdoubt : Doubts id c .sweep ↔ 10 < old.silence now := by
      constructor
      · intro hdoubts
        obtain ⟨i, _, hi, _⟩ | ⟨-, now', old', hnow', hold', hsilence⟩ := hdoubts
        · cases hi
        · rw [Option.some.inj (hnow.symm.trans hnow'), Option.some.inj (hold.symm.trans hold')]
          exact hsilence
      · exact fun hsilence => .inr ⟨rfl, now, old, hnow, hold, hsilence⟩
    obtain ⟨hstatus, hlast⟩ := h old hold
    constructor
    · simp only [drained_concat hes he, doubted_concat hes he, hdrain, hrevives, hdoubt,
        not_false_eq_true, and_true, false_or, hnode]
      by_cases hsilence : 10 < old.silence now
      · -- only a Healthy node is marked
        simp only [hsilence, true_and, true_or, if_true, hstatus]
        split_ifs <;> simp_all
      · simp only [hsilence, false_and, false_or, if_false, hstatus]
    · rw [hcontact, hnode]
      show lastContact parseStr sha256 c₀ es id = _
      rw [hlast]
      split <;> rfl
  | same hold hinsert hupdate hsweep =>
    obtain ⟨hdrain, hrevives, hknown⟩ := unmentioned hinsert hupdate
    have hdoubt : ¬ Doubts id c e := fun hdoubts => by
      obtain ⟨i, registration, hi, hget, hkey, -⟩ | ⟨hi, -⟩ := hdoubts
      · exact hinsert ⟨i, registration, hi, hget, hkey⟩
      · exact hsweep hi
    obtain ⟨hstatus, hlast⟩ := h node hold
    constructor
    · simp only [drained_concat hes he, doubted_concat hes he, hdrain, hrevives, hdoubt,
        not_false_eq_true, and_true, false_or, hstatus]
    · rw [hcontact, hknown, hlast]

theorem mem_of_inserts (he : c.step parseStr sha256 e = some t) (h : Inserts id c e) :
    id ∈ t.cluster.nodes := by
  obtain ⟨i, registration, rfl, hget, rfl⟩ := h
  simp only [step, hget] at he
  cases he
  obtain ⟨node, challenge, hstatus⟩ := registration
  cases challenge with
  | none => exact AList.mem_insert _ |>.2 (.inl rfl)
  | some challenge => exact AList.mem_insert _ |>.2 (.inl rfl)

/-- **Who is listed**: the nodes inserted since a tick last removed them. -/
theorem listed_step (hes : Lts.exec (step parseStr sha256) c₀ es = some c)
    (he : c.step parseStr sha256 e = some t)
    (h : id ∈ c.cluster.nodes ↔
      Lts.Since (step parseStr sha256) (Inserts id) (Removes id) c₀ es) :
    id ∈ t.cluster.nodes ↔
      Lts.Since (step parseStr sha256) (Inserts id) (Removes id) c₀ (es ++ [e]) := by
  rw [Lts.since_concat hes he, ← h]
  constructor
  · intro hmem
    obtain ⟨node, hid⟩ := HashMap.lookup_of_mem hmem
    cases node_step he hid with
    | insert hget hkey => exact .inl ⟨_, _, rfl, hget, hkey⟩
    | write hupdate hold =>
      refine .inr ⟨HashMap.mem_of_lookup hold, fun ⟨hsweep, _⟩ => ?_⟩
      subst hsweep
      cases hupdate
    | sweep hnow hold hkept =>
      refine .inr ⟨HashMap.mem_of_lookup hold, fun ⟨_, now', old', hnow', hold', hsilence⟩ => ?_⟩
      obtain rfl := Option.some.inj (hnow.symm.trans hnow')
      obtain rfl := Option.some.inj (hold.symm.trans hold')
      omega
    | same hold _ _ hsweep =>
      exact .inr ⟨HashMap.mem_of_lookup hold, fun ⟨he, _⟩ => hsweep he⟩
  · intro hcases
    obtain hinsert | ⟨hmem, hkept⟩ := hcases
    · exact mem_of_inserts he hinsert
    · exact (mem_step he hmem).resolve_right hkept

end

/-- **All that the nodes map says about where a node stands can be read off the run.** -/
theorem known_of_run (clusterId : ClusterId) (key : S.SecretKey) (es : List CoordinatorEvent)
    (c : ControlPlane S) (hes : Lts.exec (step parseStr sha256) (init clusterId key) es = some c)
    (id : NodeId) :
    (id ∈ c.cluster.nodes ↔
      Lts.Since (step parseStr sha256) (Inserts id) (Removes id) (init clusterId key) es) ∧
    ∀ node, c.cluster.nodes.lookup id = some node →
      Known parseStr sha256 (init clusterId key) es id node := by
  have harriving {es : List CoordinatorEvent} {c : ControlPlane S}
      (hes : Lts.exec (step parseStr sha256) (init clusterId key) es = some c) : Arriving c :=
    Lts.exec_inv (fun _ _ _ hs he => arriving_step hs he) hes (arriving_init clusterId key)
  refine Lts.exec_induction (P := fun es (c : ControlPlane S) => (id ∈ c.cluster.nodes ↔
      Lts.Since (step parseStr sha256) (Inserts id) (Removes id) (init clusterId key) es) ∧
    ∀ node, c.cluster.nodes.lookup id = some node →
      Known parseStr sha256 (init clusterId key) es id node)
    ⟨?_, fun node hid => ?_⟩ (fun es s e t hes ih he => ?_) hes
  · exact iff_of_false (fun hmem => by cases hmem) fun hsince => hsince
  · rw [init, AList.lookup_empty] at hid
    cases hid
  · exact ⟨listed_step hes he ih.1, fun node hid => Known.step hes (harriving hes) ih.2 he hid⟩

/-- Node 1 registers and is drained. -/
def registeredAndDrained : List CoordinatorEvent :=
  registerAndTick.take 2 ++ [.drain ⟨(⟨1⟩ : Uuid).hyphenated, false⟩]

theorem known_of_drained : ∃ c node,
    Lts.exec (step parseNodeOne id) initSymbolic registeredAndDrained = some c ∧
      c.cluster.nodes.lookup ⟨1⟩ = some node ∧ node.status = .draining ∧
      Known parseNodeOne id initSymbolic registeredAndDrained ⟨1⟩ node := by
  obtain ⟨c, hc, node, hnode, hstatus⟩ : ∃ c : ControlPlane .symbolic,
      Lts.exec (step parseNodeOne id) initSymbolic registeredAndDrained = some c ∧
        ∃ node, c.cluster.nodes.lookup ⟨1⟩ = some node ∧ node.status = .draining :=
    ⟨_, rfl, _, rfl, rfl⟩
  exact ⟨c, node, hc, hnode, hstatus, (known_of_run _ _ _ c hc ⟨1⟩).2 node hnode⟩

end TensorGrid.ControlPlane
