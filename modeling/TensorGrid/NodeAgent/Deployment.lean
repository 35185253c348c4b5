import TensorGrid.NodeAgent.Identity
import TensorGrid.Coordinator.Leases

/-!
# A node agent and its coordinator

`Deployment` is a node agent and the coordinator with the request between them: it goes out, is
handled, and its answer comes back, each at some time, or the agent sees a failure at any point of
that. Everything else that happens to the coordinator (other nodes' requests, a request the agent
has given up on, the monitor) comes in between as the coordinator's own events.

The agent looks at the `success` of a registration, but of a heartbeat it takes any answer for a
success.

* `register_eq`, `receive_enabled`: a turn of the agent is its request and the answer to it, and the
  agent takes every answer.
* `answersTrue_step`: an answer that was made while the id was missing says so.
* `not_nextRegisters_of_answer`: after any answer to a heartbeat comes the next heartbeat.
* `reregisters_iff`: the agent registers again after every such answer exactly in the runs in which
  it gets none.
-/

namespace TensorGrid

open Rust

/-! ## Requests and answers -/

/-- What the agent registers with once the probe has gone well. -/
structure Probed where
  hostname : String
  capabilities : NodeCapabilities
  resources : NodeResources
deriving DecidableEq, Repr

def NodeAgent.registerRequest (agent : NodeAgent) (probed : Probed) : RegisterRequest where
  nodeName := probed.hostname
  hostname := probed.hostname
  clusterId := agent.clusterId.hyphenated
  capabilities := probed.capabilities
  resources := probed.resources

def Probed.outcome (probed : Probed) (response : Except String RegisterResponse) :
    RegistrationOutcome where
  hostname := probed.hostname
  capabilities := .ok probed.capabilities
  resources := probed.resources
  response := fun _ _ => response

/-- The body of the request as the coordinator reads it. -/
def RegisterRequest.received (request : RegisterRequest) : Api.RegisterNodeRequest where
  nodeName := request.nodeName
  hostname := request.hostname
  clusterId := request.clusterId
  capabilities := request.capabilities
  resources := request.resources

/-- The body of the answer as the agent reads it. -/
def Api.RegisterNodeResponse.received (response : Api.RegisterNodeResponse) : RegisterResponse where
  success := response.success
  nodeId := response.nodeId
  errorMessage := response.errorMessage

/-- The body of the answer as the agent reads it. -/
def Api.HeartbeatResponse.received (response : Api.HeartbeatResponse) :
    TensorGrid.HeartbeatResponse where
  success := response.success
  errorMessage := response.errorMessage

/-- A registration is its request and the answer to it. -/
theorem register_eq {parseUuid : String → Option Uuid} (agent : NodeAgent) (addr : String)
    {o : RegistrationOutcome} {probed : Probed} (hname : o.hostname = probed.hostname)
    (hcapabilities : o.capabilities = .ok probed.capabilities)
    (hresources : o.resources = probed.resources) :
    agent.register parseUuid addr o = agent.register parseUuid addr (probed.outcome (o.response
      (CoordinatorClient.connect addr).registerUrl (agent.registerRequest probed))) := by
  unfold NodeAgent.register NodeAgent.registerRequest Probed.outcome
  rw [hcapabilities, hname, hresources]

inductive AgentRequest
  | register
  | heartbeat (nodeId : NodeId) (sequence : UInt64)
deriving DecidableEq, Repr

namespace AgentRun

/-- The next request of the agent. -/
def nextRequest (s : AgentRun) : Option AgentRequest :=
  match s.phase, s.agent.coordinatorClient with
  | .starting, _ => some .register
  | .looping _, none => some .register
  | .looping l, some _ => some (.heartbeat l.nodeId l.sequence)
  | .stopped, _ => none

variable {parseUuid : String → Option Uuid}

theorem isSome_step_register {s : AgentRun} {o : RegistrationOutcome} :
    (s.step parseUuid (.register o)).isSome ↔ s.nextRequest = some .register := by
  unfold step nextRequest
  cases s.phase <;> cases s.agent.coordinatorClient <;> simp

theorem isSome_step_heartbeat {s : AgentRun} {resources : NodeResources}
    {response : Except String HeartbeatResponse} :
    (s.step parseUuid (.heartbeat resources response)).isSome ↔
      ∃ nodeId sequence, s.nextRequest = some (.heartbeat nodeId sequence) := by
  unfold step nextRequest
  cases s.phase <;> cases s.agent.coordinatorClient <;> simp

/-- After any answer to a heartbeat the next request is the next heartbeat, under the same id. -/
theorem nextRequest_of_answer {s t : AgentRun} {resources : NodeResources}
    {response : HeartbeatResponse}
    (h : s.step parseUuid (.heartbeat resources (.ok response)) = some t) :
    ∃ nodeId sequence, s.nextRequest = some (.heartbeat nodeId sequence) ∧
      t.nextRequest = some (.heartbeat nodeId (sequence + 1)) := by
  rw [step] at h
  split at h
  · next l client hphase hclient =>
    cases h
    exact ⟨l.nodeId, l.sequence, by simp [nextRequest, hphase, hclient],
      by simp [nextRequest, sendHeartbeat, hclient]⟩
  all_goals cases h

end AgentRun

/-! ## The deployment -/

/-- How far the agent's request has come. -/
inductive Exchange
  | idle
  /-- A registration is on its way. -/
  | registering (probed : Probed)
  /-- Its handler waits for the lock of the nodes map, to insert the node of this id. -/
  | inserting (probed : Probed) (nodeId : NodeId)
  | registered (probed : Probed) (response : Api.RegisterNodeResponse)
  /-- A heartbeat is on its way. -/
  | beating (resources : NodeResources)
  /-- The answer to it, and whether the id of the heartbeat was missing when it was handled. -/
  | answered (resources : NodeResources) (response : Api.HeartbeatResponse) (missing : Bool)
deriving DecidableEq, Repr

inductive DeploymentLabel
  /-- The agent sends a registration. -/
  | register (probed : Probed)
  /-- The agent sends a heartbeat. -/
  | heartbeat (resources : NodeResources)
  /-- The probe before a registration fails, and no request is made. -/
  | probeFails (hostname : String) (resources : NodeResources) (message : String)
  | handleRegistration (nodeId : NodeId) (now : DateTime)
  | handleHeartbeat (now : DateTime)
  /-- The answer reaches the agent. -/
  | receive
  /-- The agent sees its request fail, whatever has become of it. -/
  | fail (message : String)
  | coordinator (e : CoordinatorEvent)

/-- The label is a request of the agent. -/
def DeploymentLabel.isRequest : DeploymentLabel → Bool
  | .register _ | .heartbeat _ => true
  | .probeFails _ _ _ | .handleRegistration _ _ | .handleHeartbeat _ | .receive | .fail _
  | .coordinator _ => false

/-- The agent, the coordinator, the request between them, and whether the agent has made no request
since it got `success = false` for a heartbeat whose id was missing. -/
structure Deployment (S : SignatureScheme) where
  agent : AgentRun
  control : ControlPlane S
  exchange : Exchange
  refused : Bool

namespace Deployment

variable {S : SignatureScheme}

section
variable (parseStr : String → Option Uuid) (sha256 : List UInt8 → List UInt8)

/-- The agent's cluster id is its own. -/
def init (agentCluster : ClusterId) (coordinatorAddr : String) (clusterId : ClusterId)
    (key : S.SecretKey) : Deployment S :=
  ⟨.init agentCluster coordinatorAddr, .init clusterId key, .idle, false⟩

/-- The id in the text is not in the nodes map. -/
def missing (c : ControlPlane S) (text : String) : Bool :=
  (parseStr text).any (· ∉ c.cluster.nodes)

/-- A handler that waits answers once it has inserted its node. -/
def answerInserted (c : ControlPlane S) : CoordinatorEvent → Exchange → Exchange
  | .insertNode i, .inserting probed nodeId =>
    match c.registering[i]? with
    | some registration =>
      if registration.node.id = nodeId then
        .registered probed (Api.insertNode c.cluster registration.node).1
      else .inserting probed nodeId
    | none => .inserting probed nodeId
  | _, exchange => exchange

/-- The turn of the agent that ends in a failed request. -/
def failed (message : String) : Exchange → Option AgentLabel
  | .idle => none
  | .registering probed | .inserting probed _ | .registered probed _ =>
    some (.register (probed.outcome (.error message)))
  | .beating resources | .answered resources _ _ => some (.heartbeat resources (.error message))

def step (d : Deployment S) : DeploymentLabel → Option (Deployment S)
  | .register probed =>
    match d.exchange, d.agent.nextRequest with
    | .idle, some .register => some { d with exchange := .registering probed, refused := false }
    | _, _ => none
  | .heartbeat resources =>
    match d.exchange, d.agent.nextRequest with
    | .idle, some (.heartbeat _ _) =>
      some { d with exchange := .beating resources, refused := false }
    | _, _ => none
  | .probeFails hostname resources message =>
    match d.exchange with
    | .idle =>
      let o := ⟨hostname, .error message, resources, fun _ _ => .error message⟩
      (d.agent.step parseStr (.register o)).map fun agent => { d with agent }
    | _ => none
  | .handleRegistration nodeId now =>
    match d.exchange with
    | .registering probed =>
      let request := (d.agent.agent.registerRequest probed).received
      (d.control.step parseStr sha256 (.registerNode request nodeId now)).map fun control =>
        { d with control, exchange := .inserting probed nodeId }
    | _ => none
  | .handleHeartbeat now =>
    match d.exchange, d.agent.nextRequest with
    | .beating resources, some (.heartbeat nodeId sequence) =>
      -- the path of the request has the text of the id
      let text := nodeId.hyphenated
      let request := ⟨sequence, resources⟩
      let response := (Api.sendHeartbeat parseStr d.control.cluster text request now).1
      (d.control.step parseStr sha256 (.sendHeartbeat text request now)).map fun control =>
        { d with
          control
          exchange := .answered resources response (missing parseStr d.control text) }
    | _, _ => none
  | .receive =>
    match d.exchange with
    | .registered probed response =>
      (d.agent.step parseStr (.register (probed.outcome (.ok response.received)))).map fun agent =>
        { d with agent, exchange := .idle }
    | .answered resources response missing =>
      (d.agent.step parseStr (.heartbeat resources (.ok response.received))).map fun agent =>
        { d with agent, exchange := .idle, refused := missing && !response.success }
    | _ => none
  | .fail message => do
    let turn ← failed message d.exchange
    let agent ← d.agent.step parseStr turn
    some { d with agent, exchange := .idle }
  | .coordinator e =>
    (d.control.step parseStr sha256 e).map fun control =>
      { d with control, exchange := answerInserted d.control e d.exchange }

/-- Whatever happens before it, the next request of the agent is a registration. -/
def NextRegisters (d : Deployment S) : Prop :=
  ∀ es e t u, Lts.exec (step parseStr sha256) d es = some t → (∀ e' ∈ es, ¬ e'.isRequest) →
    t.step parseStr sha256 e = some u → e.isRequest → ∃ probed, e = .register probed

/-- After a heartbeat was refused because its id is missing, the next request is a registration. -/
def Reregisters (d : Deployment S) : Prop := d.refused → NextRegisters parseStr sha256 d

/-- The agent gets no answer that was made while the id of its heartbeat was missing. -/
def AnsweredKnown (d : Deployment S) (e : DeploymentLabel) : Prop :=
  ∀ resources response missing, d.exchange = .answered resources response missing →
    e = .receive → missing = false

end

variable {parseStr : String → Option Uuid} {sha256 : List UInt8 → List UInt8}

/-! ## Answers -/

/-- An answer made while the id was missing says that there is no such node. -/
def AnswersTrue (d : Deployment S) : Prop := ∀ resources response,
  d.exchange = .answered resources response true → response = ⟨false, some "Node not found"⟩

theorem answer_of_missing {c : ControlPlane S} {text : String} {request : Api.HeartbeatRequest}
    {now : DateTime} (h : missing parseStr c text) :
    (Api.sendHeartbeat parseStr c.cluster text request now).1 =
      ⟨false, some "Node not found"⟩ := by
  unfold missing at h
  unfold Api.sendHeartbeat
  cases hparse : parseStr text with
  | none => simp [hparse] at h
  | some id =>
    have hid : id ∉ c.cluster.nodes := by simpa [hparse] using h
    simp only [if_neg hid]

/-- Only a registration that waits is answered by an insertion. -/
theorem answerInserted_cases (c : ControlPlane S) (e : CoordinatorEvent) (exchange : Exchange) :
    answerInserted c e exchange = exchange ∨ ∃ probed nodeId response,
      exchange = .inserting probed nodeId ∧
        answerInserted c e exchange = .registered probed response := by
  unfold answerInserted
  split
  · next i probed nodeId =>
    split
    · split
      · exact .inr ⟨probed, nodeId, _, rfl, rfl⟩
      · exact .inl rfl
    · exact .inl rfl
  · exact .inl rfl

/-- What a step does to the answers under way and to `refused`. -/
inductive Turn (parseStr : String → Option Uuid) (d d' : Deployment S) : DeploymentLabel → Prop
  /-- A heartbeat is handled. -/
  | handle (resources : NodeResources) (text : String) (request : Api.HeartbeatRequest)
      (now : DateTime) : d'.refused = d.refused →
      d'.exchange = .answered resources
        (Api.sendHeartbeat parseStr d.control.cluster text request now).1
        (missing parseStr d.control text) → Turn parseStr d d' (.handleHeartbeat now)
  /-- The agent gets the answer to a heartbeat. -/
  | receive (resources : NodeResources) (response : Api.HeartbeatResponse) (missing : Bool) :
      d.exchange = .answered resources response missing →
      d.agent.step parseStr (.heartbeat resources (.ok response.received)) = some d'.agent →
      d'.exchange = .idle → d'.refused = (missing && !response.success) →
      Turn parseStr d d' .receive
  | other (e : DeploymentLabel) : (d'.refused = d.refused ∨ d'.refused = false) →
      (∀ resources response missing, d.exchange = .answered resources response missing →
        e ≠ .receive) →
      (∀ resources response missing, d'.exchange = .answered resources response missing →
        d.exchange = .answered resources response missing) → Turn parseStr d d' e

theorem turn_of_step {d d' : Deployment S} {e : DeploymentLabel}
    (he : d.step parseStr sha256 e = some d') : Turn parseStr d d' e := by
  cases e with
  | register probed =>
    simp only [step] at he
    split at he <;> cases he
    exact .other _ (.inr rfl) nofun nofun
  | heartbeat resources =>
    simp only [step] at he
    split at he <;> cases he
    exact .other _ (.inr rfl) nofun nofun
  | probeFails hostname resources message =>
    simp only [step] at he
    split at he
    · obtain ⟨_, -, rfl⟩ := Option.map_eq_some_iff.1 he
      exact .other _ (.inl rfl) nofun fun _ _ _ h => h
    · cases he
  | handleRegistration nodeId now =>
    simp only [step] at he
    split at he
    · obtain ⟨_, -, rfl⟩ := Option.map_eq_some_iff.1 he
      exact .other _ (.inl rfl) nofun nofun
    · cases he
  | handleHeartbeat now =>
    simp only [step] at he
    split at he
    · obtain ⟨_, -, rfl⟩ := Option.map_eq_some_iff.1 he
      exact .handle _ _ _ now rfl rfl
    · cases he
  | receive =>
    simp only [step] at he
    split at he
    · next hexchange =>
      obtain ⟨_, -, rfl⟩ := Option.map_eq_some_iff.1 he
      refine .other _ (.inl rfl) (fun _ _ _ h => ?_) nofun
      cases hexchange.symm.trans h
    · next hexchange =>
      obtain ⟨_, hagent, rfl⟩ := Option.map_eq_some_iff.1 he
      exact .receive _ _ _ hexchange hagent rfl rfl
    · cases he
  | fail message =>
    simp only [step] at he
    obtain ⟨_, -, he⟩ := Option.bind_eq_some_iff.1 he
    obtain ⟨_, -, he⟩ := Option.bind_eq_some_iff.1 he
    cases he
    exact .other _ (.inl rfl) nofun nofun
  | coordinator e =>
    obtain ⟨_, -, rfl⟩ := Option.map_eq_some_iff.1 he
    refine .other _ (.inl rfl) nofun fun _ _ _ h => ?_
    rcases answerInserted_cases d.control e d.exchange with hsame | ⟨_, _, _, -, hregistered⟩
    · exact hsame.symm.trans h
    · cases hregistered.symm.trans h

theorem answersTrue_step {d d' : Deployment S} {e : DeploymentLabel} (h : AnswersTrue d)
    (he : d.step parseStr sha256 e = some d') : AnswersTrue d' := by
  intro resources response hanswered
  cases turn_of_step he with
  | handle _ text request now _ hexchange =>
    rw [hexchange, Exchange.answered.injEq] at hanswered
    obtain ⟨-, rfl, hmissing⟩ := hanswered
    exact answer_of_missing hmissing
  | receive _ _ _ _ _ hidle => cases hidle.symm.trans hanswered
  | other _ _ _ hold => exact h resources response (hold _ _ _ hanswered)

/-! ## The agent waits for its answer -/

/-- The request under way is the one the agent is at. -/
def Awaits (agent : AgentRun) : Exchange → Prop
  | .idle => True
  | .registering _ | .inserting _ _ | .registered _ _ => agent.nextRequest = some .register
  | .beating _ | .answered _ _ _ => ∃ nodeId sequence,
      agent.nextRequest = some (.heartbeat nodeId sequence)

theorem awaits_step {d d' : Deployment S} {e : DeploymentLabel} (h : Awaits d.agent d.exchange)
    (he : d.step parseStr sha256 e = some d') : Awaits d'.agent d'.exchange := by
  cases e with
  | register probed =>
    simp only [step] at he
    split at he
    · next hnext => cases he; exact hnext
    · cases he
  | heartbeat resources =>
    simp only [step] at he
    split at he
    · next nodeId sequence _ hnext => cases he; exact ⟨nodeId, sequence, hnext⟩
    · cases he
  | probeFails hostname resources message =>
    simp only [step] at he
    split at he
    · next hidle =>
      obtain ⟨_, -, rfl⟩ := Option.map_eq_some_iff.1 he
      rw [hidle]
      trivial
    · cases he
  | handleRegistration nodeId now =>
    simp only [step] at he
    split at he
    · next hexchange =>
      obtain ⟨_, -, rfl⟩ := Option.map_eq_some_iff.1 he
      rw [hexchange] at h
      exact h
    · cases he
  | handleHeartbeat now =>
    simp only [step] at he
    split at he
    · next hexchange _ =>
      obtain ⟨_, -, rfl⟩ := Option.map_eq_some_iff.1 he
      rw [hexchange] at h
      exact h
    · cases he
  | receive =>
    simp only [step] at he
    split at he
    · obtain ⟨_, -, rfl⟩ := Option.map_eq_some_iff.1 he
      trivial
    · obtain ⟨_, -, rfl⟩ := Option.map_eq_some_iff.1 he
      trivial
    · cases he
  | fail message =>
    simp only [step] at he
    obtain ⟨_, -, he⟩ := Option.bind_eq_some_iff.1 he
    obtain ⟨_, -, he⟩ := Option.bind_eq_some_iff.1 he
    cases he
    trivial
  | coordinator e =>
    obtain ⟨control, -, rfl⟩ := Option.map_eq_some_iff.1 he
    obtain hsame | ⟨probed, nodeId, response, hwaits, hregistered⟩ :=
      answerInserted_cases d.control e d.exchange
    · rwa [hsame]
    · rw [hwaits] at h
      rw [hregistered]
      exact h

/-- The agent can take every answer that comes back, and see every request fail. -/
theorem receive_enabled {agentCluster : ClusterId} {coordinatorAddr : String}
    {clusterId : ClusterId} {key : S.SecretKey} {d : Deployment S}
    (h : Lts.Reachable (step parseStr sha256)
      (init agentCluster coordinatorAddr clusterId key) d) :
    (∀ probed response, d.exchange = .registered probed response →
      (d.step parseStr sha256 .receive).isSome) ∧
    (∀ resources response missing, d.exchange = .answered resources response missing →
      (d.step parseStr sha256 .receive).isSome) ∧
    (d.exchange ≠ .idle → ∀ message, (d.step parseStr sha256 (.fail message)).isSome) := by
  have hawaits : Awaits d.agent d.exchange := h.inv trivial fun _ _ _ h he => awaits_step h he
  have hregister (o : RegistrationOutcome) (hnext : d.agent.nextRequest = some .register) :
      (d.agent.step parseStr (.register o)).isSome := AgentRun.isSome_step_register.2 hnext
  have hheartbeat (resources : NodeResources) (response : Except String HeartbeatResponse)
      (hnext : ∃ nodeId sequence, d.agent.nextRequest = some (.heartbeat nodeId sequence)) :
      (d.agent.step parseStr (.heartbeat resources response)).isSome :=
    AgentRun.isSome_step_heartbeat.2 hnext
  refine ⟨fun probed response hexchange => ?_, fun resources response missing hexchange => ?_,
    fun hbusy message => ?_⟩
  · rw [hexchange] at hawaits
    simp only [step, hexchange, Option.isSome_map, hregister _ hawaits]
  · rw [hexchange] at hawaits
    simp only [step, hexchange, Option.isSome_map, hheartbeat _ _ hawaits]
  · obtain ⟨turn, hturn, hagent⟩ : ∃ turn, failed message d.exchange = some turn ∧
        (d.agent.step parseStr turn).isSome := by
      cases hexchange : d.exchange <;> rw [hexchange] at hawaits
      case idle => exact absurd hexchange hbusy
      case registering | inserting | registered => exact ⟨_, rfl, hregister _ hawaits⟩
      case beating | answered => exact ⟨_, rfl, hheartbeat _ _ hawaits⟩
    obtain ⟨agent, hagent⟩ := Option.isSome_iff_exists.1 hagent
    simp only [step, hturn, hagent, Option.bind_eq_bind, Option.bind_some, Option.isSome_some]

/-! ## After a refusal -/

/-- The agent is told that its id is missing exactly when it gets an answer made so. -/
theorem refused_step {d d' : Deployment S} {e : DeploymentLabel} (h : AnswersTrue d)
    (hrefused : d.refused = false) (he : d.step parseStr sha256 e = some d') :
    d'.refused = false ↔ AnsweredKnown d e := by
  cases turn_of_step he with
  | handle _ _ _ _ hsame _ =>
    rw [hsame, hrefused]
    exact iff_of_true rfl nofun
  | receive resources response missing hexchange _ _ hrefused' =>
    rw [hrefused']
    constructor
    · rintro hknown resources' response' missing' hexchange' -
      cases hexchange.symm.trans hexchange'
      cases missing with
      | false => rfl
      | true =>
        rw [h resources response hexchange] at hknown
        cases hknown
    · intro hknown
      rw [hknown _ _ _ hexchange rfl, Bool.false_and]
  | other _ hsame hno _ =>
    refine iff_of_true ?_ fun _ _ _ hexchange heq => absurd heq (hno _ _ _ hexchange)
    exact hsame.elim (fun hsame => hsame.trans hrefused) fun hfalse => hfalse

/-- The agent does not look at the answer to a heartbeat: whatever it says, the next request is the
next heartbeat, under the same id. -/
theorem not_nextRegisters_of_answer {d d' : Deployment S} {resources : NodeResources}
    {response : Api.HeartbeatResponse}
    (hagent : d.agent.step parseStr (.heartbeat resources (.ok response.received)) = some d'.agent)
    (hidle : d'.exchange = .idle) : ¬ NextRegisters parseStr sha256 d' := by
  obtain ⟨nodeId, sequence, -, hnext⟩ := AgentRun.nextRequest_of_answer hagent
  have hstep : d'.step parseStr sha256 (.heartbeat resources) =
      some { d' with exchange := .beating resources, refused := false } := by
    simp only [step, hidle, hnext]
  intro hregisters
  obtain ⟨_, hregister⟩ := hregisters [] _ d' _ rfl (by simp) hstep rfl
  cases hregister

/-- **A removed node registers again** exactly in the runs in which its agent gets no answer that
was made while the id of its heartbeat was missing from the nodes map. -/
theorem reregisters_iff (agentCluster : ClusterId) (coordinatorAddr : String)
    (clusterId : ClusterId) (key : S.SecretKey) (es : List DeploymentLabel) :
    Lts.Always (step parseStr sha256) (Reregisters parseStr sha256)
        (init agentCluster coordinatorAddr clusterId key) es ↔
      Lts.Meets (step parseStr sha256) AnsweredKnown
        (init agentCluster coordinatorAddr clusterId key) es := by
  refine Lts.always_iff_meets_of_inv
    (I := fun d : Deployment S => AnswersTrue d ∧ d.refused = false) ?_ ?_ ?_ ⟨nofun, rfl⟩
  · rintro d ⟨-, hrefused⟩ hyes
    cases hrefused.symm.trans hyes
  · rintro d e d' ⟨htrue, hrefused⟩ hknown he
    exact ⟨answersTrue_step htrue he, (refused_step htrue hrefused he).2 hknown⟩
  · rintro d e d' ⟨htrue, hrefused⟩ he hre
    refine (refused_step htrue hrefused he).1 (Bool.eq_false_iff.2 fun hyes => ?_)
    cases turn_of_step he with
    | receive _ _ _ _ hagent hidle _ => exact not_nextRegisters_of_answer hagent hidle (hre hyes)
    | handle _ _ _ _ hsame _ => cases (hsame.trans hrefused).symm.trans hyes
    | other _ hsame _ _ =>
      rcases hsame with hsame | hfalse
      · cases (hsame.trans hrefused).symm.trans hyes
      · cases hfalse.symm.trans hyes

/-! ## A removed node -/

def smallProbed : Probed :=
  ⟨"node.local", (smallNode ⟨1⟩ ⟨0⟩).capabilities, AgentRun.idleResources⟩

/-- Node 1 registers, is silent for 35 seconds and removed by the monitor; then comes its
heartbeat. -/
def removed : List DeploymentLabel :=
  [.register smallProbed, .handleRegistration ⟨1⟩ ⟨0⟩, .coordinator (.insertNode 0), .receive,
    .coordinator (.tick ⟨35000000000⟩), .coordinator .sweep, .heartbeat AgentRun.idleResources,
    .handleHeartbeat ⟨36000000000⟩, .receive]

def initRemoved : Deployment .symbolic :=
  init ⟨7⟩ "http://localhost:8080" ⟨0⟩ (Vector.replicate 32 0)

/-- The agent goes on with its next heartbeat. -/
theorem removed_not_reregisters :
    ¬ Lts.Always (step (AgentRun.parseEither ⟨1⟩ ⟨2⟩) id)
      (Reregisters (AgentRun.parseEither ⟨1⟩ ⟨2⟩) id) initRemoved removed := by
  intro h
  have hrun : (Lts.exec (step (AgentRun.parseEither ⟨1⟩ ⟨2⟩) id) initRemoved removed).map
      (fun d => (d.refused, (d.step (AgentRun.parseEither ⟨1⟩ ⟨2⟩) id
        (.heartbeat AgentRun.idleResources)).isSome)) = some (true, true) := by decide +kernel
  obtain ⟨d, hd, heq⟩ := Option.map_eq_some_iff.1 hrun
  obtain ⟨hrefused, hnext⟩ := Prod.mk.inj heq
  obtain ⟨d', hd'⟩ := Option.isSome_iff_exists.1 hnext
  have hregisters := h.last hd hrefused
  obtain ⟨_, hregister⟩ := hregisters [] _ d d' rfl (by simp) hd' rfl
  cases hregister

end Deployment

end TensorGrid
