import TensorGrid.Lib.Simulation
import TensorGrid.NodeAgent.Wire

/-!
# The deployment over its bodies

`Deployment` hands requests and answers over as values. `WireDeployment` is the same system with the
JSON bodies between the agent and the coordinator: the client encodes its request, the extractor of
the handler decodes it, and refuses it with a text that is no JSON if it cannot; the client decodes
the answer, and a body that it cannot decode is an error.

Over bodies the deployment does what it does over values (`simulation`), with two differences. The
coordinator gets the readings as they are parsed back. A request with a required reading that is not
finite never reaches its handler: to the agent it is a failed request.
-/

namespace TensorGrid

open Rust

/-- How far the agent's request has come, with its body or that of the answer. -/
inductive WireExchange
  | idle
  | registering (probed : Probed) (body : Json)
  | inserting (probed : Probed) (nodeId : NodeId)
  | registered (probed : Probed) (body : Json)
  | beating (resources : NodeResources) (body : Json)
  | answered (resources : NodeResources) (body : Json)
  /-- The extractor has refused the body of a registration. -/
  | unregistrable (probed : Probed)
  /-- The extractor has refused the body of a heartbeat. -/
  | unbeatable (resources : NodeResources)

structure WireDeployment (S : SignatureScheme) where
  agent : AgentRun
  control : ControlPlane S
  exchange : WireExchange

namespace WireDeployment

variable {S : SignatureScheme}

section
variable (ser : Serializer) (parseFailed : String)
  (parseStr : String → Option Uuid) (sha256 : List UInt8 → List UInt8)

def init (agentCluster : ClusterId) (coordinatorAddr : String) (clusterId : ClusterId)
    (key : S.SecretKey) : WireDeployment S :=
  ⟨.init agentCluster coordinatorAddr, .init clusterId key, .idle⟩

/-- A handler that waits answers once it has inserted its node. -/
def answerInserted (c : ControlPlane S) : CoordinatorEvent → WireExchange → WireExchange
  | .insertNode i, .inserting probed nodeId =>
    match c.registering[i]? with
    | some registration =>
      if registration.node.id = nodeId then
        .registered probed (Api.insertNode c.cluster registration.node).1.serialize
      else .inserting probed nodeId
    | none => .inserting probed nodeId
  | _, exchange => exchange

/-- The turn of the agent that ends in a failed request. -/
def failed (message : String) : WireExchange → Option AgentLabel
  | .idle => none
  | .registering probed _ | .inserting probed _ | .registered probed _ | .unregistrable probed =>
    some (.register (probed.outcome (.error message)))
  | .beating resources _ | .answered resources _ | .unbeatable resources =>
    some (.heartbeat resources (.error message))

/-- The turn of the agent that the answer ends. -/
def answered : WireExchange → Option AgentLabel
  | .registered probed body =>
    match RegisterResponse.deserialize body with
    | some response => some (.register (probed.outcome (.ok response)))
    | none => some (.register (probed.outcome (.error parseFailed)))
  | .answered resources body =>
    match HeartbeatResponse.deserialize body with
    | some response => some (.heartbeat resources (.ok response))
    | none => some (.heartbeat resources (.error parseFailed))
  | .unregistrable probed => some (.register (probed.outcome (.error parseFailed)))
  | .unbeatable resources => some (.heartbeat resources (.error parseFailed))
  | _ => none

def step (d : WireDeployment S) : DeploymentLabel → Option (WireDeployment S)
  | .register probed =>
    match d.exchange, d.agent.nextRequest with
    | .idle, some .register =>
      let body := (d.agent.agent.registerRequest probed).serialize ser
      some { d with exchange := .registering probed body }
    | _, _ => none
  | .heartbeat resources =>
    match d.exchange, d.agent.nextRequest with
    | .idle, some (.heartbeat _ sequence) =>
      let body := HeartbeatRequest.serialize ser ⟨sequence, resources⟩
      some { d with exchange := .beating resources body }
    | _, _ => none
  | .probeFails hostname resources message =>
    match d.exchange with
    | .idle =>
      let o := ⟨hostname, .error message, resources, fun _ _ => .error message⟩
      (d.agent.step parseStr (.register o)).map fun agent => { d with agent }
    | _ => none
  | .handleRegistration nodeId now =>
    match d.exchange with
    | .registering probed body =>
      match Api.RegisterNodeRequest.deserialize body with
      | some request =>
        (d.control.step parseStr sha256 (.registerNode request nodeId now)).map fun control =>
          { d with control, exchange := .inserting probed nodeId }
      | none => some { d with exchange := .unregistrable probed }
    | _ => none
  | .handleHeartbeat now =>
    match d.exchange, d.agent.nextRequest with
    | .beating resources body, some (.heartbeat nodeId _) =>
      let text := nodeId.hyphenated
      match Api.HeartbeatRequest.deserialize body with
      | some request =>
        let response := (Api.sendHeartbeat parseStr d.control.cluster text request now).1
        (d.control.step parseStr sha256 (.sendHeartbeat text request now)).map fun control =>
          { d with control, exchange := .answered resources response.serialize }
      | none => some { d with exchange := .unbeatable resources }
    | _, _ => none
  | .receive => do
    let turn ← answered parseFailed d.exchange
    let agent ← d.agent.step parseStr turn
    some { d with agent, exchange := .idle }
  | .fail message => do
    let turn ← failed message d.exchange
    let agent ← d.agent.step parseStr turn
    some { d with agent, exchange := .idle }
  | .coordinator e =>
    (d.control.step parseStr sha256 e).map fun control =>
      { d with control, exchange := answerInserted d.control e d.exchange }

end

end WireDeployment

/-! ## Readings -/

section
variable (parse : Float32 → Float32)

/-- What the coordinator reads of the probed resources. -/
def Probed.read (probed : Probed) : Probed :=
  { probed with resources := probed.resources.read parse }

def RegistrationOutcome.read (o : RegistrationOutcome) : RegistrationOutcome :=
  { o with resources := o.resources.read parse }

def AgentLabel.read : AgentLabel → AgentLabel
  | .register o => .register (o.read parse)
  | .heartbeat resources response => .heartbeat (resources.read parse) response

def AgentEvent.read : AgentEvent → AgentEvent
  | .registered nodeId => .registered nodeId
  | .heartbeat nodeId url request =>
    .heartbeat nodeId url { request with resources := request.resources.read parse }

/-- The agent with the heartbeats in its trace as the coordinator reads them. -/
def AgentRun.read (s : AgentRun) : AgentRun :=
  { s with trace := s.trace.map (AgentEvent.read parse) }

end

/-- The answer does not depend on the request. -/
def AgentLabel.Indifferent : AgentLabel → Prop
  | .register o => ∀ url request request', o.response url request = o.response url request'
  | .heartbeat _ _ => True

variable {parse : Float32 → Float32} {parseStr : String → Option Uuid}

theorem register_read (parse : Float32 → Float32) (agent : NodeAgent) (addr : String)
    {o : RegistrationOutcome}
    (h : ∀ url request request', o.response url request = o.response url request') :
    agent.register parseStr addr (o.read parse) = agent.register parseStr addr o := by
  unfold NodeAgent.register
  simp only [RegistrationOutcome.read]
  cases o.capabilities with
  | error message => rfl
  | ok capabilities =>
    dsimp only
    rw [h _ _ ⟨o.hostname, o.hostname, _, capabilities, o.resources⟩]

/-- The agent goes on in the same way whatever is read of its resources. -/
theorem step_read (parse : Float32 → Float32) (s : AgentRun) {e : AgentLabel}
    (h : e.Indifferent) :
    (s.read parse).step parseStr (e.read parse) =
      (s.step parseStr e).map (AgentRun.read parse) := by
  cases e with
  | register o =>
    have hregister : s.agent.register parseStr s.agent.coordinatorAddr (o.read parse) =
        s.agent.register parseStr s.agent.coordinatorAddr o := register_read parse _ _ h
    have hfirst : (s.read parse).registerFirst parseStr (o.read parse) =
        (s.registerFirst parseStr o).read parse := by
      simp only [AgentRun.registerFirst, AgentRun.read, hregister]
      split <;> rfl
    have hagain (l : HeartbeatLoop) : (s.read parse).registerAgain parseStr l (o.read parse) =
        (s.registerAgain parseStr l o).read parse := by
      simp only [AgentRun.registerAgain, AgentRun.read, hregister]
      split <;> rfl
    simp only [AgentRun.step, AgentLabel.read, hfirst, hagain]
    simp only [AgentRun.read]
    cases s.phase <;> cases s.agent.coordinatorClient <;> rfl
  | heartbeat resources response =>
    simp only [AgentRun.step, AgentLabel.read, AgentRun.read]
    cases s.phase <;> cases s.agent.coordinatorClient <;> try rfl
    cases response <;> rfl

theorem step_read_of_eq (parse : Float32 → Float32) {s t : AgentRun} {e : AgentLabel}
    (he : s.step parseStr e = some t) (h : e.Indifferent) :
    (s.read parse).step parseStr (e.read parse) = some (t.read parse) := by
  rw [step_read parse s h, he]
  rfl

theorem nextRequest_read (s : AgentRun) : (s.read parse).nextRequest = s.nextRequest := rfl

/-! ## The same runs over values -/

/-- The exchange over values that an exchange over bodies is: each body is the one that was encoded,
and a refused request is one that nobody has handled. -/
inductive Bodies (ser : Serializer) (parse : Float32 → Float32) (agent : AgentRun) :
    WireExchange → Exchange → Prop
  | idle : Bodies ser parse agent .idle .idle
  | registering (probed : Probed) : Bodies ser parse agent
      (.registering probed ((agent.agent.registerRequest probed).serialize ser))
      (.registering (probed.read parse))
  | inserting (probed : Probed) (nodeId : NodeId) : Bodies ser parse agent
      (.inserting probed nodeId) (.inserting (probed.read parse) nodeId)
  | registered (probed : Probed) (response : Api.RegisterNodeResponse) : Bodies ser parse agent
      (.registered probed response.serialize) (.registered (probed.read parse) response)
  | beating (resources : NodeResources) {nodeId : NodeId} {sequence : UInt64}
      (hnext : agent.nextRequest = some (.heartbeat nodeId sequence)) : Bodies ser parse agent
      (.beating resources (HeartbeatRequest.serialize ser ⟨sequence, resources⟩))
      (.beating (resources.read parse))
  | answered (resources : NodeResources) (response : Api.HeartbeatResponse) (missing : Bool) :
      Bodies ser parse agent (.answered resources response.serialize)
        (.answered (resources.read parse) response missing)
  | unregistrable (probed : Probed) : Bodies ser parse agent (.unregistrable probed)
      (.registering (probed.read parse))
  | unbeatable (resources : NodeResources) : Bodies ser parse agent (.unbeatable resources)
      (.beating (resources.read parse))

namespace WireDeployment

variable {S : SignatureScheme} {ser : Serializer} {parseFailed : String}
  {sha256 : List UInt8 → List UInt8}

/-- The deployment over values is in the same state, up to the readings in the agent's trace. -/
structure Shows (ser : Serializer) (parse : Float32 → Float32) (w : WireDeployment S)
    (d : Deployment S) : Prop where
  agent : d.agent = w.agent.read parse
  control : d.control = w.control
  exchange : Bodies ser parse w.agent w.exchange d.exchange

/-- A step over values for each step over bodies: nothing where the extractor refuses a request, and
a failure where the agent gets that answer. -/
def render (parse : Float32 → Float32) (parseFailed : String) (d : WireDeployment S) :
    DeploymentLabel → List DeploymentLabel
  | .register probed => [.register (probed.read parse)]
  | .heartbeat resources => [.heartbeat (resources.read parse)]
  | .probeFails hostname resources message =>
    [.probeFails hostname (resources.read parse) message]
  | .handleRegistration nodeId now =>
    match d.exchange with
    | .registering probed _ =>
      if probed.resources.finite then [.handleRegistration nodeId now] else []
    | _ => []
  | .handleHeartbeat now =>
    match d.exchange with
    | .beating resources _ => if resources.finite then [.handleHeartbeat now] else []
    | _ => []
  | .receive =>
    match d.exchange with
    | .unregistrable _ | .unbeatable _ => [.fail parseFailed]
    | _ => [.receive]
  | .fail message => [.fail message]
  | .coordinator e => [.coordinator e]

theorem bodies_answerInserted {agent : AgentRun} {c : ControlPlane S} {e : CoordinatorEvent}
    {exchange : WireExchange} {exchange' : Exchange}
    (h : Bodies ser parse agent exchange exchange') :
    Bodies ser parse agent (answerInserted c e exchange)
      (Deployment.answerInserted c e exchange') := by
  cases e with
  | insertNode i =>
    cases h with
    | inserting probed nodeId =>
      cases hget : c.registering[i]? with
      | none =>
        simp only [answerInserted, Deployment.answerInserted, hget]
        exact .inserting probed nodeId
      | some registration =>
        simp only [answerInserted, Deployment.answerInserted, hget]
        split
        · exact .registered probed _
        · exact .inserting probed nodeId
    | idle => exact .idle
    | registering probed => exact .registering probed
    | registered probed response => exact .registered probed response
    | beating resources hnext => exact .beating resources hnext
    | answered resources response missing => exact .answered resources response missing
    | unregistrable probed => exact .unregistrable probed
    | unbeatable resources => exact .unbeatable resources
  | _ => exact h

/-- The turn of the agent when its request fails. -/
theorem failed_read {agent : AgentRun} {exchange : WireExchange} {exchange' : Exchange}
    (h : Bodies ser parse agent exchange exchange') {message : String} {turn : AgentLabel}
    (hturn : failed message exchange = some turn) :
    turn.Indifferent ∧ Deployment.failed message exchange' = some (turn.read parse) := by
  cases h with
  | idle => cases hturn
  | registering | inserting | registered | unregistrable =>
    cases hturn
    exact ⟨fun _ _ _ => rfl, rfl⟩
  | beating | answered | unbeatable =>
    cases hturn
    exact ⟨trivial, rfl⟩

/-! ### Labels -/

section
variable {w w' : WireDeployment S} {d : Deployment S}

theorem Shows.exists_eq (h : Shows ser parse w d) : ∃ exchange refused,
    Bodies ser parse w.agent w.exchange exchange ∧
      d = ⟨w.agent.read parse, w.control, exchange, refused⟩ := by
  obtain ⟨agent, control, exchange, refused⟩ := d
  obtain ⟨hagent, hcontrol, hexchange⟩ := h
  dsimp only at hagent hcontrol hexchange
  subst hagent hcontrol
  exact ⟨exchange, refused, hexchange, rfl⟩

theorem Shows.register (h : Shows ser parse w d) {probed : Probed}
    (he : w.step ser parseFailed parseStr sha256 (.register probed) = some w') :
    ∃ d', d.step parseStr sha256 (.register (probed.read parse)) = some d' ∧
      Shows ser parse w' d' := by
  obtain ⟨exchange', refused, hexchange, rfl⟩ := h.exists_eq
  obtain ⟨agent, control, exchange⟩ := w
  dsimp only at hexchange
  simp only [step] at he
  split at he
  · next hnext =>
    cases he
    cases hexchange
    refine ⟨⟨agent.read parse, _, .registering (probed.read parse), false⟩, ?_, rfl, rfl,
      .registering probed⟩
    simp only [Deployment.step, nextRequest_read, hnext]
  · cases he

theorem Shows.heartbeat (h : Shows ser parse w d) {resources : NodeResources}
    (he : w.step ser parseFailed parseStr sha256 (.heartbeat resources) = some w') :
    ∃ d', d.step parseStr sha256 (.heartbeat (resources.read parse)) = some d' ∧
      Shows ser parse w' d' := by
  obtain ⟨exchange', refused, hexchange, rfl⟩ := h.exists_eq
  obtain ⟨agent, control, exchange⟩ := w
  dsimp only at hexchange
  simp only [step] at he
  split at he
  · next nodeId sequence hnext =>
    cases he
    cases hexchange
    refine ⟨⟨agent.read parse, _, .beating (resources.read parse), false⟩, ?_, rfl, rfl,
      .beating resources hnext⟩
    simp only [Deployment.step, nextRequest_read, hnext]
  · cases he

theorem Shows.probeFails (h : Shows ser parse w d) {hostname message : String}
    {resources : NodeResources} (he : w.step ser parseFailed parseStr sha256
      (.probeFails hostname resources message) = some w') :
    ∃ d', d.step parseStr sha256 (.probeFails hostname (resources.read parse) message) = some d' ∧
      Shows ser parse w' d' := by
  obtain ⟨exchange', refused, hexchange, rfl⟩ := h.exists_eq
  obtain ⟨agent, control, exchange⟩ := w
  dsimp only at hexchange
  simp only [step] at he
  split at he
  · obtain ⟨t, ht, rfl⟩ := Option.map_eq_some_iff.1 he
    cases hexchange
    have hstep := step_read_of_eq parse ht fun _ _ _ => rfl
    exact ⟨⟨t.read parse, _, .idle, refused⟩, Option.map_eq_some_iff.2 ⟨_, hstep, rfl⟩, rfl, rfl,
      .idle⟩
  · cases he

/-- The request arrives with finite readings only. -/
theorem Shows.handleRegistration (hser : ser.Reads parse) (h : Shows ser parse w d)
    {nodeId : NodeId} {now : DateTime}
    (he : w.step ser parseFailed parseStr sha256 (.handleRegistration nodeId now) = some w') :
    ∃ d', Lts.exec (Deployment.step parseStr sha256) d
        (render parse parseFailed w (.handleRegistration nodeId now)) = some d' ∧
      Shows ser parse w' d' := by
  obtain ⟨exchange', refused, hexchange, rfl⟩ := h.exists_eq
  obtain ⟨agent, control, exchange⟩ := w
  dsimp only at hexchange
  simp only [step] at he
  split at he
  · next probed body =>
    cases hexchange
    have hresources : (agent.agent.registerRequest probed).resources = probed.resources := rfl
    rw [Api.RegisterNodeRequest.deserialize_serialize hser, hresources] at he
    by_cases hfinite : probed.resources.finite
    · rw [if_pos hfinite] at he
      obtain ⟨control', hcontrol, rfl⟩ := Option.map_eq_some_iff.1 he
      refine ⟨⟨agent.read parse, control', .inserting (probed.read parse) nodeId, refused⟩, ?_,
        rfl, rfl, .inserting probed nodeId⟩
      simp only [render, if_pos hfinite, Lts.exec_singleton, Deployment.step]
      exact Option.map_eq_some_iff.2 ⟨control', hcontrol, rfl⟩
    · rw [if_neg hfinite] at he
      cases he
      refine ⟨⟨agent.read parse, control, .registering (probed.read parse), refused⟩, ?_, rfl, rfl,
        .unregistrable probed⟩
      simp only [render, if_neg hfinite, Lts.exec_nil]
  · cases he

theorem Shows.handleHeartbeat (hser : ser.Reads parse) (h : Shows ser parse w d) {now : DateTime}
    (he : w.step ser parseFailed parseStr sha256 (.handleHeartbeat now) = some w') :
    ∃ d', Lts.exec (Deployment.step parseStr sha256) d
        (render parse parseFailed w (.handleHeartbeat now)) = some d' ∧
      Shows ser parse w' d' := by
  obtain ⟨exchange', refused, hexchange, rfl⟩ := h.exists_eq
  obtain ⟨agent, control, exchange⟩ := w
  dsimp only at hexchange
  simp only [step] at he
  split at he
  · next resources body nodeId _ hnext =>
    cases hexchange with
    | beating _ hsent =>
    cases hnext.symm.trans hsent
    rw [Api.HeartbeatRequest.deserialize_serialize hser] at he
    by_cases hfinite : resources.finite
    · rw [if_pos hfinite] at he
      obtain ⟨control', hcontrol, rfl⟩ := Option.map_eq_some_iff.1 he
      refine ⟨⟨agent.read parse, control', .answered (resources.read parse) _
        (Deployment.missing parseStr control nodeId.hyphenated), refused⟩, ?_, rfl, rfl,
        .answered resources _ _⟩
      simp only [render, if_pos hfinite, Lts.exec_singleton, Deployment.step, nextRequest_read,
        hnext]
      exact Option.map_eq_some_iff.2 ⟨control', hcontrol, rfl⟩
    · rw [if_neg hfinite] at he
      cases he
      refine ⟨⟨agent.read parse, control, .beating (resources.read parse), refused⟩, ?_, rfl, rfl,
        .unbeatable resources⟩
      simp only [render, if_neg hfinite, Lts.exec_nil]
  · cases he

/-- The agent sees its request fail in both deployments. -/
theorem Shows.turn_fails (h : Shows ser parse w d) {message : String} {turn : AgentLabel}
    {t : AgentRun} (ht : w.agent.step parseStr turn = some t) (hindifferent : turn.Indifferent)
    (hfailed : Deployment.failed message d.exchange = some (turn.read parse)) :
    ∃ d', d.step parseStr sha256 (.fail message) = some d' ∧
      Shows ser parse { w with agent := t, exchange := .idle } d' := by
  have hstep := step_read_of_eq parse ht hindifferent
  rw [← h.agent] at hstep
  refine ⟨{ d with agent := t.read parse, exchange := .idle }, ?_, rfl, h.control, .idle⟩
  exact Option.bind_eq_some_iff.2 ⟨_, hfailed, Option.bind_eq_some_iff.2 ⟨_, hstep, rfl⟩⟩

theorem Shows.fail (h : Shows ser parse w d) {message : String}
    (he : w.step ser parseFailed parseStr sha256 (.fail message) = some w') :
    ∃ d', d.step parseStr sha256 (.fail message) = some d' ∧ Shows ser parse w' d' := by
  obtain ⟨turn, hturn, he⟩ := Option.bind_eq_some_iff.1 he
  obtain ⟨t, ht, he⟩ := Option.bind_eq_some_iff.1 he
  cases he
  obtain ⟨hindifferent, hfailed⟩ := failed_read h.exchange hturn
  exact h.turn_fails ht hindifferent hfailed

/-- The agent gets an answer of its handler, or the failure that a refused request is. -/
theorem Shows.receive (h : Shows ser parse w d)
    (he : w.step ser parseFailed parseStr sha256 .receive = some w') :
    ∃ d', Lts.exec (Deployment.step parseStr sha256) d (render parse parseFailed w .receive) =
      some d' ∧ Shows ser parse w' d' := by
  obtain ⟨turn, hturn, he⟩ := Option.bind_eq_some_iff.1 he
  obtain ⟨t, ht, he⟩ := Option.bind_eq_some_iff.1 he
  cases he
  obtain ⟨exchange', refused, hexchange, rfl⟩ := h.exists_eq
  obtain ⟨agent, control, exchange⟩ := w
  dsimp only at hexchange
  cases hexchange with
  | idle | registering | inserting | beating => cases hturn
  | registered probed response =>
    simp only [answered, RegisterResponse.deserialize_serialize, Option.some.injEq] at hturn
    subst hturn
    have hstep := step_read_of_eq parse ht fun _ _ _ => rfl
    refine ⟨⟨t.read parse, control, .idle, refused⟩, ?_, rfl, rfl, .idle⟩
    simp only [render, Lts.exec_singleton, Deployment.step]
    exact Option.map_eq_some_iff.2 ⟨_, hstep, rfl⟩
  | answered resources response missing =>
    simp only [answered, HeartbeatResponse.deserialize_serialize, Option.some.injEq] at hturn
    subst hturn
    have hstep := step_read_of_eq parse ht trivial
    refine ⟨⟨t.read parse, control, .idle, missing && !response.success⟩, ?_, rfl, rfl, .idle⟩
    simp only [render, Lts.exec_singleton, Deployment.step]
    exact Option.map_eq_some_iff.2 ⟨_, hstep, rfl⟩
  | unregistrable probed =>
    cases hturn
    rw [render, Lts.exec_singleton]
    exact h.turn_fails ht (fun _ _ _ => rfl) rfl
  | unbeatable resources =>
    cases hturn
    rw [render, Lts.exec_singleton]
    exact h.turn_fails ht trivial rfl

theorem Shows.coordinator (h : Shows ser parse w d) {e : CoordinatorEvent}
    (he : w.step ser parseFailed parseStr sha256 (.coordinator e) = some w') :
    ∃ d', d.step parseStr sha256 (.coordinator e) = some d' ∧ Shows ser parse w' d' := by
  obtain ⟨control, hcontrol, rfl⟩ := Option.map_eq_some_iff.1 he
  rw [← h.control] at hcontrol
  refine ⟨_, Option.map_eq_some_iff.2 ⟨control, hcontrol, rfl⟩, h.agent, rfl, ?_⟩
  rw [h.control]
  exact bodies_answerInserted h.exchange

end

theorem simulation (hser : ser.Reads parse) :
    Lts.Simulation (step (S := S) ser parseFailed parseStr sha256)
      (Deployment.step parseStr sha256) (Shows ser parse) (render parse parseFailed) := by
  intro w d e w' h he
  cases e with
  | register => simpa only [render, Lts.exec_singleton] using h.register he
  | heartbeat => simpa only [render, Lts.exec_singleton] using h.heartbeat he
  | probeFails => simpa only [render, Lts.exec_singleton] using h.probeFails he
  | handleRegistration => exact h.handleRegistration hser he
  | handleHeartbeat => exact h.handleHeartbeat hser he
  | receive => exact h.receive he
  | fail => simpa only [render, Lts.exec_singleton] using h.fail he
  | coordinator => simpa only [render, Lts.exec_singleton] using h.coordinator he

/-- **The deployment over bodies** runs as the one over values. A request arrives exactly if its
required readings are finite, with the readings as they are parsed back; otherwise its handler does
not run, and the agent sees a failed request. Every answer arrives as it was made. -/
theorem over_values (hser : ser.Reads parse) {agentCluster : ClusterId}
    {coordinatorAddr : String} {clusterId : ClusterId} {key : S.SecretKey}
    {es : List DeploymentLabel} {w : WireDeployment S}
    (hes : Lts.exec (step ser parseFailed parseStr sha256)
      (init agentCluster coordinatorAddr clusterId key) es = some w) :
    ∃ d, Lts.exec (Deployment.step parseStr sha256)
        (.init agentCluster coordinatorAddr clusterId key)
        (Lts.rendered (step ser parseFailed parseStr sha256) (render parse parseFailed)
          (init agentCluster coordinatorAddr clusterId key) es) = some d ∧
      d.control = w.control ∧ d.agent = w.agent.read parse ∧
      Bodies ser parse w.agent w.exchange d.exchange := by
  have hinit : Shows ser parse (init agentCluster coordinatorAddr clusterId key)
      (.init agentCluster coordinatorAddr clusterId key) := ⟨rfl, rfl, .idle⟩
  obtain ⟨d, hd, hshows⟩ := (simulation hser).exec hinit hes
  exact ⟨d, hd, hshows.control, hshows.agent, hshows.exchange⟩

/-- Readings written and parsed bit by bit. -/
def bitSerializer : Serializer where
  f32 x := if x.isFinite then .number (.float x.toFloat.toBits) else .null
  dateTime _ := "1970-01-01T00:00:00Z"

def bitParse (x : Float32) : Float32 := (Float.ofBits x.toFloat.toBits).toFloat32

theorem reads_bitSerializer : bitSerializer.Reads bitParse where
  finite x hx := by
    simp only [bitSerializer, if_pos hx]
    rfl
  null x hx := if_neg hx

def initWire : WireDeployment .symbolic :=
  init ⟨7⟩ "http://localhost:8080" ⟨0⟩ (Vector.replicate 32 0)

/-- A registration and a heartbeat, both answered. -/
def registerAndBeat : List DeploymentLabel :=
  [.register Deployment.smallProbed, .handleRegistration ⟨1⟩ ⟨0⟩, .coordinator (.insertNode 0),
    .receive, .heartbeat AgentRun.idleResources, .handleHeartbeat ⟨1000000000⟩, .receive]

def wireStep : WireDeployment .symbolic → DeploymentLabel → Option (WireDeployment .symbolic) :=
  step bitSerializer "no JSON" (AgentRun.parseEither ⟨1⟩ ⟨2⟩) id

/-- The agent has read its id, and that the heartbeat was answered: its sequence goes on. -/
theorem over_values_answered : ∃ w, Lts.exec wireStep initWire registerAndBeat = some w ∧
    w.agent.nextRequest = some (.heartbeat ⟨1⟩ 1) ∧
    ∃ d, Lts.exec (Deployment.step (AgentRun.parseEither ⟨1⟩ ⟨2⟩) id)
        (.init ⟨7⟩ "http://localhost:8080" ⟨0⟩ (Vector.replicate 32 0))
        (Lts.rendered wireStep (render bitParse "no JSON") initWire registerAndBeat) = some d ∧
      d.control = w.control ∧ d.agent = w.agent.read bitParse ∧
      Bodies bitSerializer bitParse w.agent w.exchange d.exchange := by
  have hrun : (Lts.exec wireStep initWire registerAndBeat).map (·.agent.nextRequest) =
      some (some (.heartbeat ⟨1⟩ 1)) := by decide +kernel
  obtain ⟨w, hw, hnext⟩ := Option.map_eq_some_iff.1 hrun
  exact ⟨w, hw, hnext, over_values reads_bitSerializer hw⟩

end WireDeployment

end TensorGrid
