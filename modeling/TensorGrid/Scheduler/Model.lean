import TensorGrid.ClusterTypes
import TensorGrid.Lib.Outcome

/-!
# The scheduler

The scheduling service of `services/scheduler`: admission, node selection, the reservation of the
allocations in `node_allocations`, and the release of a session. The sections that run under one
held lock are functions of their own (`reserveResources`, `storeSession`, `takeSession`,
`freeSession`); `schedule` and `releaseSession` run them one after the other.

The order in which a loop visits a `HashMap` is a `HashMap.Visit`, except for the cluster's node
map, which never changes: its entry order is its iteration order in every call. The clock is an
argument; log lines and metric counters are left out. `u64` additions and subtractions are those of
`UInt64`.
-/

namespace TensorGrid

open Rust

inductive RequestPriority
  | low | normal | high | interactive
deriving DecidableEq, Repr

structure ScheduleRequest where
  sessionId : SessionId
  modelId : ModelId
  contextLength : UInt32
  batchSize : UInt32
  priority : RequestPriority
deriving DecidableEq, Repr

structure ResourceAllocation where
  nodeId : NodeId
  cpuPercent : Float32
  ramBytes : UInt64
  vramBytes : UInt64
deriving DecidableEq, Repr

structure ScheduledSession where
  sessionId : SessionId
  modelId : ModelId
  assignedNodes : List NodeId
  allocatedResources : HashMap NodeId ResourceAllocation
  priority : RequestPriority
  scheduledAt : DateTime
  estimatedTokensPerSecond : Float32

structure NodeAllocation where
  allocatedCpuPercent : Float32
  allocatedRamBytes : UInt64
  allocatedVramBytes : UInt64
  activeSessions : List SessionId
deriving DecidableEq, Repr

/-- The entry `or_insert_with` starts from. -/
def NodeAllocation.zero : NodeAllocation := ⟨0.0, 0, 0, []⟩

def NodeAllocation.reserve (sessionId : SessionId) (a : ResourceAllocation) (n : NodeAllocation) :
    NodeAllocation :=
  { allocatedCpuPercent := n.allocatedCpuPercent + a.cpuPercent
    allocatedRamBytes := n.allocatedRamBytes + a.ramBytes
    allocatedVramBytes := n.allocatedVramBytes + a.vramBytes
    activeSessions := n.activeSessions ++ [sessionId] }

def NodeAllocation.release (sessionId : SessionId) (a : ResourceAllocation) (n : NodeAllocation) :
    NodeAllocation :=
  { allocatedCpuPercent := n.allocatedCpuPercent - a.cpuPercent
    allocatedRamBytes := n.allocatedRamBytes - a.ramBytes
    allocatedVramBytes := n.allocatedVramBytes - a.vramBytes
    activeSessions := n.activeSessions.filter (· != sessionId) }

inductive ScheduleError
  | admissionRejected
  | noAvailableNodes
  | insufficientResources (nodeId : NodeId)
  | sessionNotFound
  | internal (message : String)
deriving DecidableEq, Repr

structure Scheduler where
  cluster : LogicalCluster
  sessions : HashMap SessionId ScheduledSession
  nodeAllocations : HashMap NodeId NodeAllocation

namespace Scheduler

def new (cluster : LogicalCluster) : Scheduler := ⟨cluster, ∅, ∅⟩

/-- `1024.0 * 1024.0 * 1024.0`. -/
def gib : Float32 := 1024.0 * 1024.0 * 1024.0

def checkAdmission (request : ScheduleRequest) (cluster : LogicalCluster) : Bool :=
  let totalRam := cluster.logicalResources.hostMemoryBytes
  let totalVram := cluster.logicalResources.deviceMemoryBytes
  let requiredRam := request.contextLength.toUInt64 * 1024
  let requiredVram := request.contextLength.toUInt64 * 512
  totalRam > requiredRam && totalVram > requiredVram

def calculateNodeScore (node : PhysicalNode) : Float32 :=
  let score := 0.0 + node.capabilities.cpu.cores.toFloat32 * 10.0
  let availableRam := node.capabilities.memory.availableBytes.toFloat32
  let score := score + availableRam / gib * 5.0
  let score := node.capabilities.gpus.foldl
    (fun score gpu => score + gpu.vramBytes.toFloat32 / gib * 20.0) score
  if node.resources.cpuUsagePercent > 80.0 then score * 0.5 else score

/-- The scored healthy nodes, in the iteration order of the node map. -/
def nodeScores (cluster : LogicalCluster) : List (NodeId × Float32) :=
  (cluster.nodes.entries.filter fun e => e.2.status = .healthy).map
    fun e => (e.1, calculateNodeScore e.2)

/-- The stable sort by descending score, cut to three nodes. `partial_cmp(..).unwrap()` panics when
a NaN score is compared, which a sort of two or more elements does. -/
def selectNodes (cluster : LogicalCluster) : Outcome ScheduleError (List NodeId) :=
  let scores := nodeScores cluster
  if 2 ≤ scores.length ∧ scores.any (·.2.isNaN) then .panic
  else .ok (((scores.insertionSort fun a b => ¬ a.2 < b.2).take 3).map (·.1))

/-- 30 % CPU, 4 GB RAM and 2 GB VRAM per node. -/
def nodeShare (nodeId : NodeId) : ResourceAllocation :=
  { nodeId, cpuPercent := 30.0, ramBytes := 4 * 1024 * 1024 * 1024,
    vramBytes := 2 * 1024 * 1024 * 1024 }

def calculateAllocations (nodes : List NodeId) : HashMap NodeId ResourceAllocation :=
  nodes.foldl (fun allocations nodeId => allocations.insert nodeId (nodeShare nodeId)) ∅

def estimateThroughput (nodes : List NodeId) (cluster : LogicalCluster) : Float32 :=
  let totalScore := nodes.foldl (fun (score : Float32) nodeId =>
    match cluster.nodes.lookup nodeId with
    | none => score
    | some node =>
      node.capabilities.gpus.foldl
        (fun score gpu => score + gpu.vramBytes.toFloat32 / gib * 2.0)
        (score + node.capabilities.cpu.cores.toFloat32)) 0.0
  if totalScore * 0.5 < 50.0 then totalScore * 0.5 else 50.0

/-! ## The ledger -/

/-- The ledger entry of a node, zero if it has none. -/
def ledgerOf (ledger : HashMap NodeId NodeAllocation) (nodeId : NodeId) : NodeAllocation :=
  (ledger.lookup nodeId).getD NodeAllocation.zero

/-- The loop of `reserve_resources`: it commits node by node and stops at the first node whose CPU
share would exceed 100 %. -/
def reserveLoop (sessionId : SessionId) : List (Σ _ : NodeId, ResourceAllocation) →
    HashMap NodeId NodeAllocation → Outcome ScheduleError Unit × HashMap NodeId NodeAllocation
  | [], ledger => (.ok (), ledger)
  | ⟨nodeId, allocation⟩ :: rest, ledger =>
    if (ledgerOf ledger nodeId).allocatedCpuPercent + allocation.cpuPercent > 100.0 then
      (.err (.insufficientResources nodeId), ledger.upsert nodeId NodeAllocation.zero id)
    else
      reserveLoop sessionId rest
        (ledger.upsert nodeId NodeAllocation.zero (NodeAllocation.reserve sessionId allocation))

/-- `reserve_resources`, under the write lock of `node_allocations`. -/
def reserveResources (visit : HashMap.Visit NodeId ResourceAllocation) (sessionId : SessionId)
    (allocations : HashMap NodeId ResourceAllocation) (ledger : HashMap NodeId NodeAllocation) :
    Outcome ScheduleError Unit × HashMap NodeId NodeAllocation :=
  reserveLoop sessionId (visit.order allocations) ledger

/-- The loop of `release_session` over the allocations of the session it removed. -/
def releaseLoop (sessionId : SessionId) (allocations : List (Σ _ : NodeId, ResourceAllocation))
    (ledger : HashMap NodeId NodeAllocation) : HashMap NodeId NodeAllocation :=
  allocations.foldl
    (fun ledger e => ledger.modify e.1 (NodeAllocation.release sessionId e.2)) ledger

def releaseResources (visit : HashMap.Visit NodeId ResourceAllocation) (sessionId : SessionId)
    (allocations : HashMap NodeId ResourceAllocation) (ledger : HashMap NodeId NodeAllocation) :
    HashMap NodeId NodeAllocation :=
  releaseLoop sessionId (visit.order allocations) ledger

/-! ## Calls -/

/-- `schedule` up to the reservation: the selected nodes. It only reads the cluster. -/
def plan (request : ScheduleRequest) (cluster : LogicalCluster) :
    Outcome ScheduleError (List NodeId) := do
  if !checkAdmission request cluster then .err .admissionRejected else
  let selectedNodes ← selectNodes cluster
  if selectedNodes.isEmpty then .err .noAvailableNodes else
  pure selectedNodes

/-- The session `schedule` stores. -/
def mkSession (request : ScheduleRequest) (cluster : LogicalCluster) (selectedNodes : List NodeId)
    (now : DateTime) : ScheduledSession :=
  { sessionId := request.sessionId, modelId := request.modelId, assignedNodes := selectedNodes
    allocatedResources := calculateAllocations selectedNodes, priority := request.priority
    scheduledAt := now, estimatedTokensPerSecond := estimateThroughput selectedNodes cluster }

/-- `sessions.insert(session_id, session)`, under the write lock of `sessions`. -/
def storeSession (s : Scheduler) (session : ScheduledSession) : Scheduler :=
  { s with sessions := s.sessions.insert session.sessionId session }

/-- `sessions.remove(session_id)`, under the write lock of `sessions`. -/
def takeSession (s : Scheduler) (sessionId : SessionId) : Scheduler :=
  { s with sessions := s.sessions.erase sessionId }

/-- The release loop of `release_session`, under the write lock of `node_allocations` (and still
that of `sessions`). -/
def freeSession (s : Scheduler) (visit : HashMap.Visit NodeId ResourceAllocation)
    (sessionId : SessionId) (session : ScheduledSession) : Scheduler :=
  { s with nodeAllocations :=
      releaseResources visit sessionId session.allocatedResources s.nodeAllocations }

/-- `schedule`, run to completion: the reservation visits the allocations in the order `visit`. -/
def schedule (s : Scheduler) (request : ScheduleRequest)
    (visit : HashMap.Visit NodeId ResourceAllocation) (now : DateTime) :
    Outcome ScheduleError ScheduledSession × Scheduler :=
  match plan request s.cluster with
  | .err e => (.err e, s)
  | .panic => (.panic, s)
  | .ok selectedNodes =>
    let (reserved, nodeAllocations) := reserveResources visit request.sessionId
      (calculateAllocations selectedNodes) s.nodeAllocations
    let s := { s with nodeAllocations }
    match reserved with
    | .err e => (.err e, s)
    | .panic => (.panic, s)
    | .ok () =>
      let session := mkSession request s.cluster selectedNodes now
      (.ok session, s.storeSession session)

/-- `release_session`, run to completion. -/
def releaseSession (s : Scheduler) (sessionId : SessionId)
    (visit : HashMap.Visit NodeId ResourceAllocation) : Outcome ScheduleError Unit × Scheduler :=
  match s.sessions.lookup sessionId with
  | none => (.err .sessionNotFound, s)
  | some session =>
    (.ok (), (s.takeSession sessionId).freeSession visit sessionId session)

/-- A complete call. -/
inductive Call
  | schedule (request : ScheduleRequest) (visit : HashMap.Visit NodeId ResourceAllocation)
      (now : DateTime)
  | releaseSession (sessionId : SessionId) (visit : HashMap.Visit NodeId ResourceAllocation)

/-- The scheduler after a complete call. -/
def apply (s : Scheduler) : Call → Scheduler
  | .schedule request visit now => (s.schedule request visit now).2
  | .releaseSession sessionId visit => (s.releaseSession sessionId visit).2

/-- A complete call as a step: every call is possible in every state. -/
def step (s : Scheduler) (call : Call) : Option Scheduler := some (s.apply call)

end Scheduler

end TensorGrid
