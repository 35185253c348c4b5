import TensorGrid.NodeAgent.Model

/-!
# The identity in the heartbeats

`start_heartbeat_loop` reads the node id once, before the loop; a registration inside the loop
stores its id in the agent, but the loop goes on with the first one.

* `turn_of_step`: all that a step can do.
* `LoopIdentity`: in the loop the local id is that of the first registration (`loopIdentity_step`).
* `always_current_iff`: every heartbeat carries the id of the latest registration exactly along the
  runs in which, whenever a heartbeat is sent, the latest registration returned the id of the first.
* `stale_heartbeat`: a failed heartbeat, a registration under a new id, a heartbeat under the old.
-/

namespace TensorGrid

open Rust

/-- What a registration does: it stores the id that it is answered with and a client, or it changes
nothing. -/
theorem NodeAgent.register_cases (parseUuid : String → Option Uuid) (agent : NodeAgent)
    (addr : String) (o : RegistrationOutcome) :
    (∃ nodeId response, agent.register parseUuid addr o = (.ok nodeId, { agent with
        nodeId := some nodeId, coordinatorClient := some (CoordinatorClient.connect addr) }) ∧
      (∃ url request, o.response url request = .ok response) ∧
      parseUuid response.nodeId = some nodeId) ∨
    ∃ e, agent.register parseUuid addr o = (.err e, agent) := by
  unfold NodeAgent.register
  dsimp only
  split
  · exact .inr ⟨_, rfl⟩
  split
  · exact .inr ⟨_, rfl⟩
  next response hresponse =>
    split
    · exact .inr ⟨_, rfl⟩
    split
    · exact .inr ⟨_, rfl⟩
    next nodeId hparse =>
      exact .inl ⟨nodeId, response, rfl, ⟨_, _, hresponse⟩, hparse⟩

namespace AgentRun

variable {parseUuid : String → Option Uuid}

/-- The id of the latest registration in a trace. -/
def lastRegistered : List AgentEvent → Option NodeId
  | [] => none
  | .registered nodeId :: _ => some nodeId
  | .heartbeat _ _ _ :: es => lastRegistered es

/-- The id of the first registration in a trace. -/
def firstRegistered : List AgentEvent → Option NodeId
  | [] => none
  | .registered nodeId :: es => (firstRegistered es).or (some nodeId)
  | .heartbeat _ _ _ :: es => firstRegistered es

/-- Every heartbeat carries the id of the latest registration before it. -/
def Current : List AgentEvent → Prop
  | [] => True
  | .registered _ :: es => Current es
  | .heartbeat nodeId _ _ :: es => lastRegistered es = some nodeId ∧ Current es

def decidableCurrent : (es : List AgentEvent) → Decidable (Current es)
  | [] => .isTrue trivial
  | .registered _ :: es => decidableCurrent es
  | .heartbeat _ _ _ :: es => @instDecidableAnd _ _ inferInstance (decidableCurrent es)

instance : DecidablePred Current := decidableCurrent

/-! ## What a step does -/

/-- The phase is the loop under the id `nodeId`, or the end. -/
def Continues (nodeId : NodeId) : AgentPhase → Prop
  | .starting => False
  | .looping l => l.nodeId = nodeId
  | .stopped => True

/-- All that a step can do. -/
inductive Turn (s t : AgentRun) : AgentLabel → Prop
  | first (o : RegistrationOutcome) (nodeId : NodeId) : s.phase = .starting →
      Continues nodeId t.phase → t.trace = .registered nodeId :: s.trace → Turn s t (.register o)
  | refused (o : RegistrationOutcome) : s.phase = .starting → t.phase = .stopped →
      t.trace = s.trace → Turn s t (.register o)
  | again (o : RegistrationOutcome) (l : HeartbeatLoop) (nodeId : NodeId) : s.phase = .looping l →
      Continues l.nodeId t.phase → t.trace = .registered nodeId :: s.trace → Turn s t (.register o)
  | failed (o : RegistrationOutcome) (l : HeartbeatLoop) : s.phase = .looping l →
      Continues l.nodeId t.phase → t.trace = s.trace → Turn s t (.register o)
  | heartbeat (resources : NodeResources) (response : Except String HeartbeatResponse)
      (l : HeartbeatLoop) (url : String) (request : HeartbeatRequest) : s.phase = .looping l →
      Continues l.nodeId t.phase → t.trace = .heartbeat l.nodeId url request :: s.trace →
      Turn s t (.heartbeat resources response)

/-- A successful registration stores the id it returns. -/
theorem nodeId_register {agent agent' : NodeAgent} {addr : String} {o : RegistrationOutcome}
    {nodeId : NodeId} (h : agent.register parseUuid addr o = (.ok nodeId, agent')) :
    agent'.nodeId = some nodeId := by
  rcases agent.register_cases parseUuid addr o with ⟨id, response, hok, -⟩ | ⟨e, herr⟩
  · rw [hok] at h
    cases h
    rfl
  · rw [herr] at h
    cases h

theorem continues_fail (l : HeartbeatLoop) : Continues l.nodeId (.ofLoop l.fail) := by
  unfold HeartbeatLoop.fail
  simp only
  split
  · trivial
  · rfl

theorem turn_registerFirst {s : AgentRun} (h : s.phase = .starting) (o : RegistrationOutcome) :
    Turn s (s.registerFirst parseUuid o) (.register o) := by
  unfold registerFirst
  split
  · next nodeId agent heq =>
    refine .first o nodeId h ?_ rfl
    rw [HeartbeatLoop.start, nodeId_register heq]
    rfl
  · exact .refused o h rfl rfl
  · exact .refused o h rfl rfl

theorem turn_registerAgain {s : AgentRun} {l : HeartbeatLoop} (h : s.phase = .looping l)
    (o : RegistrationOutcome) : Turn s (s.registerAgain parseUuid l o) (.register o) := by
  unfold registerAgain
  split
  · next nodeId agent heq => exact .again o l nodeId h rfl rfl
  · exact .failed o l h (continues_fail l) rfl
  · exact .failed o l h trivial rfl

theorem turn_sendHeartbeat {s : AgentRun} {l : HeartbeatLoop} (h : s.phase = .looping l)
    (client : CoordinatorClient) (resources : NodeResources)
    (response : Except String HeartbeatResponse) :
    Turn s (s.sendHeartbeat l client resources response) (.heartbeat resources response) := by
  unfold sendHeartbeat
  split
  · exact .heartbeat resources _ l _ _ h rfl rfl
  · exact .heartbeat resources _ l _ _ h (continues_fail l) rfl

theorem turn_of_step {s t : AgentRun} {e : AgentLabel} (h : s.step parseUuid e = some t) :
    Turn s t e := by
  cases e with
  | register o =>
    rw [step] at h
    split at h
    · next hphase =>
      cases h
      exact turn_registerFirst hphase o
    · next l hphase _ =>
      cases h
      exact turn_registerAgain hphase o
    · cases h
    · cases h
  | heartbeat resources response =>
    rw [step] at h
    split at h
    · next l client hphase _ =>
      cases h
      exact turn_sendHeartbeat hphase client resources response
    · cases h
    · cases h
    · cases h

/-! ## Runs -/

/-- The loop's id is that of the first registration; before the loop there is none. -/
def LoopIdentity (s : AgentRun) : Prop :=
  match s.phase with
  | .starting => firstRegistered s.trace = none
  | .looping l => firstRegistered s.trace = some l.nodeId
  | .stopped => True

theorem LoopIdentity.looping {s : AgentRun} {l : HeartbeatLoop} (h : LoopIdentity s)
    (hl : s.phase = .looping l) : firstRegistered s.trace = some l.nodeId := by
  rw [LoopIdentity, hl] at h
  exact h

theorem LoopIdentity.of_continues {s : AgentRun} {nodeId : NodeId}
    (h : Continues nodeId s.phase) (hfirst : firstRegistered s.trace = some nodeId) :
    LoopIdentity s := by
  unfold LoopIdentity
  split
  · next hphase =>
    rw [hphase] at h
    exact h.elim
  · next l hphase =>
    rw [hphase] at h
    rw [hfirst, ← h]
  · trivial

theorem loopIdentity_step (s : AgentRun) (e : AgentLabel) (t : AgentRun) (h : LoopIdentity s)
    (he : s.step parseUuid e = some t) : LoopIdentity t := by
  cases turn_of_step he with
  | first o nodeId hphase hnext htrace =>
    refine .of_continues hnext ?_
    rw [LoopIdentity, hphase] at h
    rw [htrace, firstRegistered, h]
    rfl
  | refused o hphase hnext htrace =>
    rw [LoopIdentity, hnext]
    trivial
  | again o l nodeId hphase hnext htrace =>
    refine .of_continues hnext ?_
    rw [htrace, firstRegistered, h.looping hphase]
    rfl
  | failed o l hphase hnext htrace =>
    refine .of_continues hnext ?_
    rw [htrace, h.looping hphase]
  | heartbeat resources response l url request hphase hnext htrace =>
    refine .of_continues hnext ?_
    rw [htrace, firstRegistered, h.looping hphase]

/-- A heartbeat is sent only while the latest registration has returned the id of the first. -/
def SameIdentity (s : AgentRun) : AgentLabel → Prop
  | .register _ => True
  | .heartbeat _ _ => lastRegistered s.trace = firstRegistered s.trace

theorem current_step_iff (s : AgentRun) (e : AgentLabel) (t : AgentRun) (h : LoopIdentity s)
    (hc : Current s.trace) (he : s.step parseUuid e = some t) :
    Current t.trace ↔ SameIdentity s e := by
  cases turn_of_step he with
  | first o nodeId hphase hnext htrace =>
    rw [htrace]
    exact ⟨fun _ => trivial, fun _ => hc⟩
  | refused o hphase hnext htrace =>
    rw [htrace]
    exact ⟨fun _ => trivial, fun _ => hc⟩
  | again o l nodeId hphase hnext htrace =>
    rw [htrace]
    exact ⟨fun _ => trivial, fun _ => hc⟩
  | failed o l hphase hnext htrace =>
    rw [htrace]
    exact ⟨fun _ => trivial, fun _ => hc⟩
  | heartbeat resources response l url request hphase hnext htrace =>
    rw [htrace, Current, SameIdentity, h.looping hphase]
    exact ⟨And.left, fun hlast => ⟨hlast, hc⟩⟩

/-- **Heartbeats carry the current identity exactly along the runs in which no heartbeat is sent
after a registration under another id than the first.** -/
theorem always_current_iff (parseUuid : String → Option Uuid) (clusterId : ClusterId)
    (coordinatorAddr : String) (es : List AgentLabel) :
    Lts.Always (step parseUuid) (fun s => Current s.trace) (init clusterId coordinatorAddr) es ↔
      Lts.Meets (step parseUuid) SameIdentity (init clusterId coordinatorAddr) es :=
  Lts.always_iff_meets loopIdentity_step current_step_iff rfl trivial

/-! ## A stale heartbeat -/

def idleResources : NodeResources := ⟨0.0, 0, 0, [], 0.0, 0.0, none⟩

/-- A registration that is answered with `nodeId`. -/
def registeredAs (nodeId : NodeId) : RegistrationOutcome where
  hostname := "node.local"
  capabilities := .ok (smallNode ⟨1⟩ ⟨0⟩).capabilities
  resources := idleResources
  response := fun _ _ => .ok ⟨true, nodeId.hyphenated, none⟩

/-- `Uuid::parse_str` on the texts of two identifiers. -/
def parseEither (u v : Uuid) (text : String) : Option Uuid :=
  if text = u.hyphenated then some u else if text = v.hyphenated then some v else none

/-- Registered as `u`, a failed heartbeat, registered as `v`, a heartbeat. -/
def reregister (u v : NodeId) : List AgentLabel :=
  [.register (registeredAs u), .heartbeat idleResources (.error "Request failed"),
    .register (registeredAs v), .heartbeat idleResources (.ok ⟨true, none⟩)]

/-- The last heartbeat still carries the id `1`. -/
theorem stale_heartbeat :
    ¬ Lts.Always (step (parseEither ⟨1⟩ ⟨2⟩)) (fun s => Current s.trace)
      (init ⟨0⟩ "http://localhost:8080") (reregister ⟨1⟩ ⟨2⟩) := by
  intro h
  have hrun : (Lts.exec (step (parseEither ⟨1⟩ ⟨2⟩)) (init ⟨0⟩ "http://localhost:8080")
      (reregister ⟨1⟩ ⟨2⟩)).map (fun s => decide (Current s.trace)) = some false := by
    decide +kernel
  obtain ⟨t, ht, hstale⟩ := Option.map_eq_some_iff.1 hrun
  exact of_decide_eq_false hstale (h.last ht)

end AgentRun

end TensorGrid
