import TensorGrid.ClusterTypes
import TensorGrid.Lib.Outcome

/-!
# The pipeline executor

The sessions of `services/pipeline-executor` and the operations on them. Every operation holds the
lock of the session map from its first look at the map to its end, `execute` over the whole
generation, so a run is a sequence of calls. A call returns its outcome and the executor after it,
which is there after a panic too, with the session as far as it had come.

Clock readings are arguments: `clock r i` is read when stage `i` has run for the `r`th time in a
call, and `elapsed` is the time at its end since before it waited for the lock. `overflowChecks`
says whether the build checks `u32` arithmetic.
-/

namespace TensorGrid

open Rust

/-- `std::time::Duration`. -/
structure Duration where
  secs : UInt64
  nanos : UInt32
deriving DecidableEq, Repr

def Duration.asMillis (d : Duration) : Nat := d.secs.toNat * 1000 + d.nanos.toNat / 1000000

def Duration.asSecsF32 (d : Duration) : Float32 :=
  d.secs.toFloat32 + d.nanos.toFloat32 / 1000000000

/-! ## State -/

inductive SessionStatus
  | initializing | running | paused | completed
  | failed (text : String)
deriving DecidableEq, Repr

/-- `Debug`. No session ever fails; `quote` stands for Rust's escapes. -/
def SessionStatus.debug : SessionStatus → String
  | initializing => "Initializing"
  | running => "Running"
  | paused => "Paused"
  | completed => "Completed"
  | failed text => "Failed(" ++ text.quote ++ ")"

inductive StageStatus
  | idle | ready | executing | completed
  | failed (text : String)
deriving DecidableEq, Repr

structure StageState where
  stageId : UInt32
  nodeId : NodeId
  status : StageStatus
  inputTensors : List String
  outputTensors : List String
  lastExecution : Option DateTime
deriving DecidableEq, Repr

structure SessionState where
  sessionId : SessionId
  plan : ExecutionPlan
  stageStates : List StageState
  tensorBuffer : HashMap String (List UInt8)
  status : SessionStatus
  createdAt : DateTime

structure ExecutionRequest where
  sessionId : SessionId
  inputTokens : List UInt32
  maxTokens : UInt32
  temperature : Float32
deriving DecidableEq, Repr

structure ExecutionResult where
  sessionId : SessionId
  tokens : List UInt32
  completionTimeMs : UInt32
  tokensPerSecond : Float32
deriving DecidableEq, Repr

/-- What `execute` returns for the tokens it has generated. -/
def ExecutionRequest.result (request : ExecutionRequest) (elapsed : Duration)
    (tokens : List UInt32) : ExecutionResult where
  sessionId := request.sessionId
  tokens := tokens
  completionTimeMs := UInt32.ofNat elapsed.asMillis
  tokensPerSecond := (UInt64.ofNat tokens.length).toFloat32 / elapsed.asSecsF32

inductive PipelineError
  | sessionNotFound (sessionId : SessionId)
  | sessionNotReady (text : String)
  | stageExecutionFailed (text : String)
  | tensorTransferFailed (text : String)
  | invalidPlan (text : String)
  | internal (text : String)
deriving DecidableEq, Repr

structure ExecutorStats where
  totalSessions : Nat
  runningSessions : Nat
  pausedSessions : Nat
deriving DecidableEq, Repr

structure PipelineExecutor where
  activeSessions : HashMap SessionId SessionState

/-- A `u32` sum or product whose exact value is `n`. -/
def u32Arith (overflowChecks : Bool) (n : Nat) : Outcome PipelineError UInt32 :=
  if overflowChecks ∧ UInt32.size ≤ n then .panic else .ok (UInt32.ofNat n)

namespace PipelineExecutor

def new : PipelineExecutor := ⟨∅⟩

/-! ## Sessions -/

def initializeSession (s : PipelineExecutor) (sessionId : SessionId) (plan : ExecutionPlan)
    (now : DateTime) : Outcome PipelineError Unit × PipelineExecutor :=
  let stageStates := plan.stages.map fun stage =>
    { stageId := stage.id, nodeId := stage.nodeId, status := .idle, inputTensors := []
      outputTensors := [], lastExecution := none }
  let sessionState : SessionState :=
    { sessionId, plan, stageStates, tensorBuffer := ∅, status := .initializing, createdAt := now }
  (.ok (), { s with activeSessions := s.activeSessions.insert sessionId sessionState })

def setStatus (s : PipelineExecutor) (sessionId : SessionId) (status : SessionStatus) :
    PipelineExecutor :=
  { s with activeSessions := s.activeSessions.modify sessionId fun session =>
      { session with status } }

def pauseSession (s : PipelineExecutor) (sessionId : SessionId) :
    Outcome PipelineError Unit × PipelineExecutor :=
  if sessionId ∈ s.activeSessions then (.ok (), s.setStatus sessionId .paused)
  else (.err (.sessionNotFound sessionId), s)

def resumeSession (s : PipelineExecutor) (sessionId : SessionId) :
    Outcome PipelineError Unit × PipelineExecutor :=
  match s.activeSessions.lookup sessionId with
  | some session =>
    if session.status = .paused then (.ok (), s.setStatus sessionId .running)
    else (.err (.sessionNotReady ("Cannot resume session in status: " ++ session.status.debug)), s)
  | none => (.err (.sessionNotFound sessionId), s)

def cancelSession (s : PipelineExecutor) (sessionId : SessionId) :
    Outcome PipelineError Unit × PipelineExecutor :=
  if sessionId ∈ s.activeSessions then
    (.ok (), { s with activeSessions := s.activeSessions.erase sessionId })
  else (.err (.sessionNotFound sessionId), s)

def getSessionStatus (s : PipelineExecutor) (sessionId : SessionId) :
    Outcome PipelineError SessionStatus :=
  match s.activeSessions.lookup sessionId with
  | some session => .ok session.status
  | none => .err (.sessionNotFound sessionId)

def getStats (s : PipelineExecutor) : ExecutorStats :=
  let sessions := s.activeSessions.entries.map (·.2)
  { totalSessions := sessions.length
    runningSessions := sessions.countP (·.status = .running)
    pausedSessions := sessions.countP (·.status = .paused) }

/-! ## Execution -/

section
variable (overflowChecks : Bool)

/-- The loop over the stages, which leaves each with `status`. -/
def runStages (status : StageStatus) (clock : Nat → DateTime) (stages : List StageState) :
    List StageState :=
  stages.mapIdx fun i stage => { stage with status, lastExecution := some (clock i) }

/-- A stage computes how long to sleep after it is marked as executing. -/
def executePrefill (stages : List StageState) (tokens : List UInt32) (clock : Nat → DateTime) :
    Outcome PipelineError (List UInt32) × List StageState :=
  match stages with
  | [] => (.ok tokens, [])
  | stage :: rest =>
    match u32Arith overflowChecks ((UInt32.ofNat tokens.length).toNat * 2) with
    | .ok _ => (.ok tokens, runStages .completed clock stages)
    | .err e => (.err e, { stage with status := .executing } :: rest)
    | .panic => (.panic, { stage with status := .executing } :: rest)

def executeDecode (stages : List StageState) (context : List UInt32) (clock : Nat → DateTime) :
    Outcome PipelineError UInt32 × List StageState :=
  (do
    let next ← u32Arith overflowChecks ((context.getLast?.getD 0).toNat + 1)
    pure (next % 1000), runStages .ready clock stages)

/-- The decode loop with `n` rounds to go, from the `r`th on. -/
def decodeLoop (clock : Nat → Nat → DateTime) (n r : Nat) (stages : List StageState)
    (tokens generatedTokens : List UInt32) :
    Outcome PipelineError (List UInt32) × List StageState :=
  match n with
  | 0 => (.ok generatedTokens, stages)
  | n + 1 =>
    match executeDecode overflowChecks stages tokens (clock r) with
    | (.ok decodeResult, stages) =>
      if decodeResult = 2 then (.ok (generatedTokens ++ [decodeResult]), stages)
      else decodeLoop clock n (r + 1) stages (tokens ++ [decodeResult])
        (generatedTokens ++ [decodeResult])
    | (.err e, stages) => (.err e, stages)
    | (.panic, stages) => (.panic, stages)

/-- Prefill and decode. -/
def generate (stages : List StageState) (request : ExecutionRequest)
    (clock : Nat → Nat → DateTime) : Outcome PipelineError (List UInt32) × List StageState :=
  match executePrefill overflowChecks stages request.inputTokens (clock 0) with
  | (.ok prefillResult, stages) =>
    decodeLoop overflowChecks clock request.maxTokens.toNat 1 stages
      (request.inputTokens ++ prefillResult) []
  | (.err e, stages) => (.err e, stages)
  | (.panic, stages) => (.panic, stages)

def execute (s : PipelineExecutor) (request : ExecutionRequest) (clock : Nat → Nat → DateTime)
    (elapsed : Duration) : Outcome PipelineError ExecutionResult × PipelineExecutor :=
  match s.activeSessions.lookup request.sessionId with
  | none => (.err (.sessionNotFound request.sessionId), s)
  | some session =>
    if session.status ≠ .initializing ∧ session.status ≠ .running then
      (.err (.sessionNotReady ("Session status: " ++ session.status.debug)), s)
    else
      let (generated, stageStates) := generate overflowChecks session.stageStates request clock
      (do
        let tokens ← generated
        pure (request.result elapsed tokens),
        { s with activeSessions := s.activeSessions.modify request.sessionId fun session =>
            { session with status := .running, stageStates } })

end

end PipelineExecutor

/-! ## Runs -/

inductive ExecutorEvent
  | initializeSession (sessionId : SessionId) (plan : ExecutionPlan) (now : DateTime)
  | execute (request : ExecutionRequest) (clock : Nat → Nat → DateTime) (elapsed : Duration)
  | pauseSession (sessionId : SessionId)
  | resumeSession (sessionId : SessionId)
  | cancelSession (sessionId : SessionId)

/-- A call can come at any time. -/
def PipelineExecutor.step (overflowChecks : Bool) (s : PipelineExecutor) :
    ExecutorEvent → Option PipelineExecutor
  | .initializeSession sessionId plan now => some (s.initializeSession sessionId plan now).2
  | .execute request clock elapsed => some (s.execute overflowChecks request clock elapsed).2
  | .pauseSession sessionId => some (s.pauseSession sessionId).2
  | .resumeSession sessionId => some (s.resumeSession sessionId).2
  | .cancelSession sessionId => some (s.cancelSession sessionId).2

end TensorGrid
