import TensorGrid.Lib.Lts
import TensorGrid.Lib.Outcome
import TensorGrid.UuidText

/-!
# The node agent

The registration and the heartbeat loop of `services/node-agent`, with its HTTP client. What a
request can meet outside the agent (the probe of the hardware, the request, the decoding of the
answer) is its outcome, an argument; so is `Uuid::parse_str`.

`AgentRun.step` is `main`: the registration before the loop, then the turns of the loop, each of
them a registration if there is no client and a heartbeat otherwise. The trace records the ids that
registrations returned and the heartbeats sent, the latest first. Sleeps are left out.
-/

namespace TensorGrid

open Rust

/-! ## The HTTP client -/

structure RegisterRequest where
  nodeName : String
  hostname : String
  clusterId : String
  capabilities : NodeCapabilities
  resources : NodeResources
deriving DecidableEq, Repr

structure RegisterResponse where
  success : Bool
  nodeId : String
  errorMessage : Option String
deriving DecidableEq, Repr

structure HeartbeatRequest where
  sequence : UInt64
  resources : NodeResources
deriving DecidableEq, Repr

structure HeartbeatResponse where
  success : Bool
  errorMessage : Option String
deriving DecidableEq, Repr

structure CoordinatorClient where
  baseUrl : String
deriving DecidableEq, Repr

namespace CoordinatorClient

def connect (addr : String) : CoordinatorClient :=
  if addr.startsWith "http://" || addr.startsWith "https://" then ⟨addr⟩
  else ⟨"http://" ++ addr⟩

def registerUrl (client : CoordinatorClient) : String := client.baseUrl ++ "/api/nodes/register"

def heartbeatUrl (client : CoordinatorClient) (nodeId : NodeId) : String :=
  client.baseUrl ++ "/api/nodes/" ++ nodeId.hyphenated ++ "/heartbeat"

end CoordinatorClient

/-! ## Registration -/

structure NodeAgent where
  nodeId : Option NodeId
  clusterId : ClusterId
  coordinatorAddr : String
  coordinatorClient : Option CoordinatorClient
deriving DecidableEq, Repr

inductive AgentError
  | probe (message : String)
  | request (message : String)
  | registration (message : String)
  | invalidNodeId
deriving DecidableEq, Repr

/-- What a registration meets: the host name, the probed hardware, the resources, and the answer to
the request at its URL, or the message of the failure. -/
structure RegistrationOutcome where
  hostname : String
  capabilities : Except String NodeCapabilities
  resources : NodeResources
  response : String → RegisterRequest → Except String RegisterResponse

namespace NodeAgent

variable (parseUuid : String → Option Uuid)

def new (clusterId : ClusterId) (coordinatorAddr : String) : NodeAgent :=
  ⟨none, clusterId, coordinatorAddr, none⟩

/-- The outcome carries the id that a successful registration stores. -/
def register (agent : NodeAgent) (coordinatorAddr : String) (o : RegistrationOutcome) :
    Outcome AgentError NodeId × NodeAgent :=
  let client := CoordinatorClient.connect coordinatorAddr
  match o.capabilities with
  | .error message => (.err (.probe message), agent)
  | .ok capabilities =>
    let request : RegisterRequest :=
      { nodeName := o.hostname
        hostname := o.hostname
        clusterId := agent.clusterId.hyphenated
        capabilities
        resources := o.resources }
    match o.response client.registerUrl request with
    | .error message => (.err (.request message), agent)
    | .ok response =>
      if !response.success then
        (.err (.registration
          ("Registration failed: " ++ response.errorMessage.getD "Unknown error")), agent)
      else
        match parseUuid response.nodeId with
        | none => (.err .invalidNodeId, agent)
        | some nodeId =>
          (.ok nodeId, { agent with nodeId := some nodeId, coordinatorClient := some client })

end NodeAgent

/-! ## The heartbeat loop -/

/-- The local variables of `start_heartbeat_loop`. -/
structure HeartbeatLoop where
  nodeId : NodeId
  sequence : UInt64
  reconnectAttempts : UInt32
deriving DecidableEq, Repr

namespace HeartbeatLoop

def maxReconnectAttempts : UInt32 := 5

/-- The loop starts with the agent's node id; without one `expect` panics. -/
def start (agent : NodeAgent) : Option HeartbeatLoop :=
  agent.nodeId.map fun nodeId => ⟨nodeId, 0, 0⟩

/-- A failed attempt is counted; at the limit the loop is left. -/
def fail (l : HeartbeatLoop) : Option HeartbeatLoop :=
  let attempts := l.reconnectAttempts + 1
  if attempts ≥ maxReconnectAttempts then none else some { l with reconnectAttempts := attempts }

end HeartbeatLoop

inductive AgentPhase
  | starting
  | looping (l : HeartbeatLoop)
  | stopped
deriving DecidableEq, Repr

def AgentPhase.ofLoop : Option HeartbeatLoop → AgentPhase
  | some l => looping l
  | none => stopped

inductive AgentEvent
  | registered (nodeId : NodeId)
  | heartbeat (nodeId : NodeId) (url : String) (request : HeartbeatRequest)
deriving DecidableEq, Repr

inductive AgentLabel
  | register (o : RegistrationOutcome)
  | heartbeat (resources : NodeResources) (response : Except String HeartbeatResponse)

structure AgentRun where
  agent : NodeAgent
  phase : AgentPhase
  trace : List AgentEvent
deriving DecidableEq, Repr

namespace AgentRun

variable (parseUuid : String → Option Uuid)

def init (clusterId : ClusterId) (coordinatorAddr : String) : AgentRun :=
  ⟨.new clusterId coordinatorAddr, .starting, []⟩

/-- The registration in `main`: an error ends the program. -/
def registerFirst (s : AgentRun) (o : RegistrationOutcome) : AgentRun :=
  match s.agent.register parseUuid s.agent.coordinatorAddr o with
  | (.ok nodeId, agent) =>
    ⟨agent, .ofLoop (HeartbeatLoop.start agent), .registered nodeId :: s.trace⟩
  | (.err _, agent) => ⟨agent, .stopped, s.trace⟩
  | (.panic, agent) => ⟨agent, .stopped, s.trace⟩

/-- A turn of the loop without a client, up to the heartbeat. -/
def registerAgain (s : AgentRun) (l : HeartbeatLoop) (o : RegistrationOutcome) : AgentRun :=
  match s.agent.register parseUuid s.agent.coordinatorAddr o with
  | (.ok nodeId, agent) =>
    ⟨agent, .looping { l with reconnectAttempts := 0 }, .registered nodeId :: s.trace⟩
  | (.err _, agent) => ⟨agent, .ofLoop l.fail, s.trace⟩
  | (.panic, agent) => ⟨agent, .stopped, s.trace⟩

/-- The heartbeat of a turn. The content of an answer is not looked at. -/
def sendHeartbeat (s : AgentRun) (l : HeartbeatLoop) (client : CoordinatorClient)
    (resources : NodeResources) (response : Except String HeartbeatResponse) : AgentRun :=
  let event := .heartbeat l.nodeId (client.heartbeatUrl l.nodeId) ⟨l.sequence, resources⟩
  let trace := event :: s.trace
  match response with
  | .ok _ =>
    ⟨s.agent, .looping { l with sequence := l.sequence + 1, reconnectAttempts := 0 }, trace⟩
  | .error _ => ⟨{ s.agent with coordinatorClient := none }, .ofLoop l.fail, trace⟩

def step (s : AgentRun) : AgentLabel → Option AgentRun
  | .register o =>
    match s.phase, s.agent.coordinatorClient with
    | .starting, _ => some (s.registerFirst parseUuid o)
    | .looping l, none => some (s.registerAgain parseUuid l o)
    | .looping _, some _ => none
    | .stopped, _ => none
  | .heartbeat resources response =>
    match s.phase, s.agent.coordinatorClient with
    | .looping l, some client => some (s.sendHeartbeat l client resources response)
    | .looping _, none => none
    | .starting, _ => none
    | .stopped, _ => none

end AgentRun

end TensorGrid
