import TensorGrid.Lib.Overflow
import TensorGrid.SecurePairing.Model

/-!
# The cluster coordinator

The coordinator's state and the operations that write to it: registration and heartbeat over HTTP
(`api.rs`), registration, heartbeat, probe and drain over gRPC (`node_control.rs`), and the
heartbeat monitor (`main.rs`). Drawn ids and challenges, clock readings, the result of the hardware
probe and `Uuid::parse_str` are arguments; a handler returns its reply and the state after it.
`prepare_plan` only reads the state and returns its reply.

`ControlPlane.step` is the coordinator with its tasks. Both registrations build their node before
they get the lock of the nodes map, and the monitor reads the clock before it: what they hold while
they wait is part of the state, and everything else can run in between. A gRPC registration keeps
the pairing manager's lock until it ends. Clock readings may come in any order.
-/

namespace TensorGrid

open Rust

/-! ## State -/

structure ClusterState (S : SignatureScheme) where
  clusterId : ClusterId
  nodes : HashMap NodeId PhysicalNode
  pairingManager : PairingManager S

/-- The permissions of a node registered on either path. -/
def initialPermissions : NodePermissions where
  maxCpuPercent := 80
  maxCpuThreads := none
  maxRamBytes := 16 * 1024 * 1024 * 1024
  gpuEnabled := true
  maxVramBytes := 8 * 1024 * 1024 * 1024
  maxStorageBytes := 100 * 1024 * 1024 * 1024
  allowWhenOnBattery := false
  pauseWhenUserActive := true
  allowedSchedule := none

/-- A registration that waits for the lock of the nodes map: the node to insert, and the challenge
to return if it came over gRPC. -/
structure Registration where
  node : PhysicalNode
  challenge : Option PairingChallenge
  status : node.status = .healthy ∨ node.status = .suspect

/-! ## HTTP -/

namespace Api

structure RegisterNodeRequest where
  nodeName : String
  hostname : String
  clusterId : String
  capabilities : NodeCapabilities
  resources : NodeResources
deriving DecidableEq, Repr

structure RegisterNodeResponse where
  success : Bool
  nodeId : String
  errorMessage : Option String
deriving DecidableEq, Repr

structure HeartbeatRequest where
  sequence : UInt64
  resources : NodeResources
deriving DecidableEq, Repr

structure HeartbeatResponse where
  success : Bool
  errorMessage : Option String
deriving DecidableEq, Repr

variable {S : SignatureScheme} (parseStr : String → Option Uuid)

/-- `register_node` up to its wait for the lock. -/
def registerNode (s : ClusterState S) (req : RegisterNodeRequest) (nodeId : NodeId)
    (now : DateTime) : Registration where
  node :=
    { id := nodeId
      name := req.nodeName
      hostname := req.hostname
      clusterId := (parseStr req.clusterId).getD s.clusterId
      capabilities := req.capabilities
      resources := req.resources
      permissions := initialPermissions
      status := .healthy
      lastHeartbeat := now
      certificateFingerprint := none }
  challenge := none
  status := .inl rfl

/-- The rest of `register_node`. -/
def insertNode (s : ClusterState S) (node : PhysicalNode) :
    RegisterNodeResponse × ClusterState S :=
  ({ success := true, nodeId := node.id.hyphenated, errorMessage := none },
    { s with nodes := s.nodes.insert node.id node })

def sendHeartbeat (s : ClusterState S) (nodeId : String) (req : HeartbeatRequest)
    (now : DateTime) : HeartbeatResponse × ClusterState S :=
  match parseStr nodeId with
  | none => ({ success := false, errorMessage := some "Invalid node ID" }, s)
  | some nodeUuid =>
    if nodeUuid ∈ s.nodes then
      ({ success := true, errorMessage := none },
        { s with nodes := s.nodes.modify nodeUuid fun node =>
            { node with lastHeartbeat := now, resources := req.resources, status := .healthy } })
    else ({ success := false, errorMessage := some "Node not found" }, s)

end Api

/-! ## gRPC -/

/-- Its text with `{:?}`. -/
def NodeStatus.debug : NodeStatus → String
  | healthy => "Healthy"
  | suspect => "Suspect"
  | unavailable => "Unavailable"
  | draining => "Draining"
  | maintenance => "Maintenance"

namespace NodeControl

/-- `tonic::Status`. -/
inductive Status
  | invalidArgument (text : String)
  | notFound (text : String)
  | internal (text : String)
deriving DecidableEq, Repr

structure RegisterRequest where
  nodeName : String
  hostname : String
  clusterId : String
  pairingSignature : List UInt8
deriving DecidableEq, Repr

structure RegisterResponse where
  success : Bool
  nodeId : String
  deviceCertificate : List UInt8
  errorMessage : String
deriving DecidableEq, Repr

/-- The `GpuUsage` of the wire format. -/
structure GpuUsage where
  deviceId : String
  utilizationPercent : Float32
  vramUsedBytes : UInt64
  temperatureCelsius : Float32
  powerDrawWatts : Float32
deriving DecidableEq, Repr

/-- The `NodeResources` of the wire format. -/
structure NodeResources where
  cpuUsagePercent : Float32
  memoryUsedBytes : UInt64
  memoryCommittedBytes : UInt64
  gpuUsage : List GpuUsage
  networkTxMbps : Float32
  networkRxMbps : Float32
  temperatureCelsius : Float32
deriving DecidableEq, Repr

structure HeartbeatRequest where
  nodeId : String
  sequence : UInt64
  resources : NodeResources
deriving DecidableEq, Repr

/-- The reply also carries commands, always none. -/
structure HeartbeatResponse where
  acknowledged : Bool
  expectedSequence : UInt64
deriving DecidableEq, Repr

structure ProbeRequest where
  nodeId : String
deriving DecidableEq, Repr

structure DrainRequest where
  nodeId : String
  emergency : Bool
deriving DecidableEq, Repr

structure DrainResponse where
  draining : Bool
  estimatedSeconds : UInt32
deriving DecidableEq, Repr

/-- The size of a shard. -/
structure ModelShardSpec where
  bytes : UInt64
deriving DecidableEq, Repr

structure PreparePlanRequest where
  nodeId : String
  shards : List ModelShardSpec
deriving DecidableEq, Repr

structure PreparePlanResponse where
  accepted : Bool
  rejectionReason : String
  estimatedLoadTimeMs : UInt32
deriving DecidableEq, Repr

def convertNodeResources (resources : NodeResources) : TensorGrid.NodeResources where
  cpuUsagePercent := resources.cpuUsagePercent
  memoryUsedBytes := resources.memoryUsedBytes
  memoryCommittedBytes := resources.memoryCommittedBytes
  gpuUsage := resources.gpuUsage.map fun gpu =>
    { deviceId := gpu.deviceId
      utilizationPercent := gpu.utilizationPercent
      vramUsedBytes := gpu.vramUsedBytes
      temperatureCelsius := gpu.temperatureCelsius
      powerDrawWatts :=
        if gpu.powerDrawWatts > (0 : Float32) then some gpu.powerDrawWatts else none }
  networkTxMbps := resources.networkTxMbps
  networkRxMbps := resources.networkRxMbps
  temperatureCelsius :=
    if resources.temperatureCelsius > (0 : Float32) then some resources.temperatureCelsius else none

/-- The capabilities of a node that has not been probed. -/
def unknownCapabilities : NodeCapabilities where
  cpu := ⟨"unknown", 0, 0, 0, [], 1⟩
  gpus := []
  memory := ⟨0, 0, 0⟩
  storage := ⟨0, 0, 0, 0⟩
  network := ⟨[]⟩
  supportedRuntimes := []

variable {S : SignatureScheme} (parseStr : String → Option Uuid)

/-- `register` up to its wait for the lock of the nodes map: a reply, or the registration to go on
with. The fingerprint is a slice of eight bytes, and panics if there are fewer. -/
def register (s : ClusterState S) (req : RegisterRequest) (nodeId : NodeId)
    (challenge : Vector UInt8 32) (drawnAt now : DateTime) :
    Outcome Status (RegisterResponse ⊕ Registration) × ClusterState S :=
  match parseStr req.clusterId with
  | none => (.err (.invalidArgument "Invalid cluster ID"), s)
  | some clusterId =>
    if clusterId ≠ s.clusterId then
      (.ok (.inl { success := false, nodeId := "", deviceCertificate := []
                   errorMessage := "Cluster ID mismatch" }), s)
    else if req.pairingSignature.length < 8 then (.panic, s)
    else
      let fingerprint := Hex.encode (req.pairingSignature.take 8)
      let pairingReq : PairingRequest :=
        { nodeName := req.nodeName, hostname := req.hostname, clusterId
          publicKey := req.pairingSignature, fingerprint }
      let (challenge, manager) :=
        s.pairingManager.generateChallenge pairingReq nodeId challenge drawnAt
      let node : PhysicalNode :=
        { id := challenge.nodeId
          name := req.nodeName
          hostname := req.hostname
          clusterId
          capabilities := unknownCapabilities
          resources := ⟨0, 0, 0, [], 0, 0, none⟩
          permissions := initialPermissions
          status := .suspect
          lastHeartbeat := now
          certificateFingerprint := some fingerprint }
      (.ok (.inr ⟨node, some challenge, .inr rfl⟩), { s with pairingManager := manager })

/-- The rest of `register`. -/
def insertNode (s : ClusterState S) (node : PhysicalNode) (challenge : PairingChallenge) :
    RegisterResponse × ClusterState S :=
  ({ success := true, nodeId := node.id.hyphenated
     deviceCertificate := challenge.coordinatorPublicKey, errorMessage := "" },
    { s with nodes := s.nodes.insert node.id node })

/-- The heartbeat of an unknown node is acknowledged too. The sequence number wraps, as in a release
build. -/
def heartbeat (s : ClusterState S) (req : HeartbeatRequest) (now : DateTime) :
    Outcome Status HeartbeatResponse × ClusterState S :=
  match parseStr req.nodeId with
  | none => (.err (.invalidArgument "Invalid node ID"), s)
  | some nodeId =>
    (.ok { acknowledged := true, expectedSequence := req.sequence + 1 },
      { s with nodes := s.nodes.modify nodeId fun node =>
          { node with resources := convertNodeResources req.resources, lastHeartbeat := now,
                      status := .healthy } })

/-- `probed` is the result of `HardwareProbe::probe_all`. The reply is the wire format of the
capabilities. -/
def probe (s : ClusterState S) (req : ProbeRequest) (probed : Except String NodeCapabilities) :
    Outcome Status NodeCapabilities × ClusterState S :=
  match parseStr req.nodeId with
  | none => (.err (.invalidArgument "Invalid node ID"), s)
  | some nodeId =>
    match probed with
    | .error e => (.err (.internal ("Hardware probe failed: " ++ e)), s)
    | .ok capabilities =>
      (.ok capabilities, { s with nodes := s.nodes.modify nodeId fun node =>
        { node with capabilities, status := .healthy } })

def drain (s : ClusterState S) (req : DrainRequest) :
    Outcome Status DrainResponse × ClusterState S :=
  match parseStr req.nodeId with
  | none => (.err (.invalidArgument "Invalid node ID"), s)
  | some nodeId =>
    (.ok { draining := true, estimatedSeconds := if req.emergency then 5 else 30 },
      { s with nodes := s.nodes.modify nodeId fun node => { node with status := .draining } })

/-- The part of `prepare_plan` for a Healthy node. -/
def preparePlanOn (overflowChecks : Bool) (node : PhysicalNode) (shards : List ModelShardSpec) :
    Outcome Status PreparePlanResponse := do
  let totalWeightBytes ← sumU64 overflowChecks (fun shard => .ok shard.bytes) shards
  let availableVram ← sumU64 overflowChecks (fun gpu => .ok gpu.vramBytes) node.capabilities.gpus
  let availableRam := node.capabilities.memory.availableBytes
  let available ← u64Op overflowChecks (availableVram.toNat + availableRam.toNat)
  if totalWeightBytes > available then
    .ok { accepted := false, rejectionReason := "Insufficient memory for requested shards"
          estimatedLoadTimeMs := 0 }
  else
    let seconds := (totalWeightBytes / (100 * 1024 * 1024)).toUInt32
    let estimatedLoadTimeMs ← u32Op overflowChecks (seconds.toNat * 1000)
    .ok { accepted := true, rejectionReason := "", estimatedLoadTimeMs }

def preparePlan (overflowChecks : Bool) (s : ClusterState S) (req : PreparePlanRequest) :
    Outcome Status PreparePlanResponse :=
  match parseStr req.nodeId with
  | none => .err (.invalidArgument "Invalid node ID")
  | some nodeId =>
    match s.nodes.lookup nodeId with
    | none => .err (.notFound "Node not found")
    | some node =>
      if node.status ≠ .healthy then
        .ok { accepted := false, rejectionReason := "Node status: " ++ node.status.debug
              estimatedLoadTimeMs := 0 }
      else preparePlanOn overflowChecks node req.shards

end NodeControl

/-! ## The heartbeat monitor -/

/-- Whole seconds since the last heartbeat, truncated toward zero. -/
def PhysicalNode.silence (node : PhysicalNode) (now : DateTime) : Int :=
  (now.nanos - node.lastHeartbeat.nanos).tdiv 1000000000

namespace Monitor

/-- One round of the loop: the node after it, and whether its id goes to `nodes_to_remove`. -/
def check (now : DateTime) (node : PhysicalNode) : PhysicalNode × Bool :=
  let node :=
    if node.silence now > 10 ∧ node.status = .healthy then { node with status := .suspect }
    else node
  if node.silence now > 30 then ({ node with status := .unavailable }, true) else (node, false)

/-- What a tick does once it has the lock. -/
def sweep (now : DateTime) (nodes : HashMap NodeId PhysicalNode) : HashMap NodeId PhysicalNode :=
  let nodesToRemove := nodes.entries.filterMap fun e =>
    if (check now e.2).2 then some e.1 else none
  (nodes.mapValues fun node => (check now node).1).eraseAll nodesToRemove

end Monitor

/-! ## Runs -/

inductive CoordinatorEvent
  /-- An HTTP registration comes as far as the lock. -/
  | registerNode (req : Api.RegisterNodeRequest) (nodeId : NodeId) (now : DateTime)
  /-- A gRPC registration comes as far as the lock. -/
  | register (req : NodeControl.RegisterRequest) (nodeId : NodeId) (challenge : Vector UInt8 32)
      (drawnAt now : DateTime)
  /-- The `i`th waiting registration gets the lock. -/
  | insertNode (i : Nat)
  | sendHeartbeat (nodeId : String) (req : Api.HeartbeatRequest) (now : DateTime)
  | heartbeat (req : NodeControl.HeartbeatRequest) (now : DateTime)
  | probe (req : NodeControl.ProbeRequest) (probed : Except String NodeCapabilities)
  | drain (req : NodeControl.DrainRequest)
  /-- The monitor reads the clock. -/
  | tick (now : DateTime)
  /-- The monitor gets the lock. -/
  | sweep
  | verifyResponse (response : PairingResponse) (nodePublicKey : List UInt8)
      (checkedAt now : DateTime)

/-- The state, the registrations that wait for the lock, and the clock reading of a tick that
does. -/
structure ControlPlane (S : SignatureScheme) where
  cluster : ClusterState S
  registering : List Registration
  monitor : Option DateTime

namespace ControlPlane

variable {S : SignatureScheme} (parseStr : String → Option Uuid)
  (sha256 : List UInt8 → List UInt8)

/-- `ClusterState::new`; the id and the key are drawn. -/
def init (clusterId : ClusterId) (key : S.SecretKey) : ControlPlane S :=
  ⟨⟨clusterId, ∅, .newCoordinator clusterId key⟩, [], none⟩

/-- A gRPC registration holds the pairing manager's lock. -/
def pairingLocked (c : ControlPlane S) : Bool := c.registering.any (·.challenge.isSome)

def step (c : ControlPlane S) : CoordinatorEvent → Option (ControlPlane S)
  | .registerNode req nodeId now =>
    let registration := Api.registerNode parseStr c.cluster req nodeId now
    some { c with registering := c.registering ++ [registration] }
  | .register req nodeId challenge drawnAt now =>
    match NodeControl.register parseStr c.cluster req nodeId challenge drawnAt now with
    | (.ok (.inr registration), cluster) =>
      if c.pairingLocked then none
      else some { c with cluster, registering := c.registering ++ [registration] }
    | (_, cluster) => some { c with cluster }
  | .insertNode i =>
    match c.registering[i]? with
    | none => none
    | some registration =>
      let cluster := match registration.challenge with
        | none => (Api.insertNode c.cluster registration.node).2
        | some challenge => (NodeControl.insertNode c.cluster registration.node challenge).2
      some { c with cluster, registering := c.registering.eraseIdx i }
  | .sendHeartbeat nodeId req now =>
    some { c with cluster := (Api.sendHeartbeat parseStr c.cluster nodeId req now).2 }
  | .heartbeat req now =>
    some { c with cluster := (NodeControl.heartbeat parseStr c.cluster req now).2 }
  | .probe req probed =>
    some { c with cluster := (NodeControl.probe parseStr c.cluster req probed).2 }
  | .drain req => some { c with cluster := (NodeControl.drain parseStr c.cluster req).2 }
  | .tick now => if c.monitor.isSome then none else some { c with monitor := some now }
  | .sweep =>
    match c.monitor with
    | none => none
    | some now =>
      some { c with
        cluster := { c.cluster with nodes := Monitor.sweep now c.cluster.nodes }, monitor := none }
  | .verifyResponse response nodePublicKey checkedAt now =>
    if c.pairingLocked then none
    else
      some { c with cluster := { c.cluster with
        pairingManager := (c.cluster.pairingManager.verifyResponse sha256 response nodePublicKey
          checkedAt now).2 } }

end ControlPlane

end TensorGrid
