import TensorGrid.ClusterTypes
import TensorGrid.Lib.RwLock
import TensorGrid.Lib.Lts

/-!
# The fine-tuning service

The jobs of `services/fine-tuning`, the API calls on them and the training tasks that `start_job`
spawns. Every access to `jobs` is a section under one fair `RwLock`, so a call or a task is a
process that asks for a guard, runs a section once the guard is granted, and drops the guard where
its scope ends (`Proc.scope`); the system interleaves them (`System.step`).

The job id of `create_job` is a fresh v4 id. Whether the base model is registered and whether the
data set exists are arguments of the call. Sleeping is a process that has not asked for its next
guard yet. Log lines, the scheduler, the planner and the runtime are left out: the service does not
use them.
-/

namespace TensorGrid.FineTuning

open Rust

structure FineTuningConfig where
  baseModel : String
  datasetPath : String
  outputPath : String
  epochs : UInt32
  batchSize : UInt32
  learningRate : Float32
  loraRank : Option UInt32
  loraAlpha : Option Float32
deriving DecidableEq, Repr

inductive JobStatus
  | pending | running | paused | completed | failed | cancelled
deriving DecidableEq, Repr

/-- The `Debug` text of a status. -/
def JobStatus.debug : JobStatus → String
  | .pending => "Pending"
  | .running => "Running"
  | .paused => "Paused"
  | .completed => "Completed"
  | .failed => "Failed"
  | .cancelled => "Cancelled"

structure FineTuningJob where
  id : Uuid
  config : FineTuningConfig
  status : JobStatus
  progress : Float32
  epoch : UInt32
  totalEpochs : UInt32
  loss : Float32
  createdAt : DateTime
  startedAt : Option DateTime
  completedAt : Option DateTime
  error : Option String
deriving DecidableEq, Repr

inductive FineTuningError
  | modelNotFound (model : String)
  | datasetNotFound (path : String)
  | jobNotFound (jobId : Uuid)
  | invalidState (message : String)
  | trainingFailed (message : String)
  | internal (message : String)
deriving DecidableEq, Repr

structure ServiceStats where
  totalJobs : Nat
  runningJobs : Nat
  completedJobs : Nat
  failedJobs : Nat
deriving DecidableEq, Repr

abbrev Jobs := HashMap Uuid FineTuningJob

/-! ## Sections of the API calls -/

/-- The job `create_job` inserts. -/
def createJob (jobs : Jobs) (jobId : Uuid) (config : FineTuningConfig) (createdAt : DateTime) :
    Jobs :=
  jobs.insert jobId
    { id := jobId, config, status := .pending, progress := 0.0, epoch := 0
      totalEpochs := config.epochs, loss := 0.0, createdAt, startedAt := none, completedAt := none
      error := none }

/-- Look the job up, check its status and update it; the updated job is returned. -/
def updateJob (jobs : Jobs) (jobId : Uuid) (verb : String) (allowed : JobStatus → Bool)
    (f : FineTuningJob → FineTuningJob) : Except FineTuningError FineTuningJob × Jobs :=
  match jobs.lookup jobId with
  | none => (.error (.jobNotFound jobId), jobs)
  | some job =>
    if allowed job.status then (.ok (f job), jobs.modify jobId f)
    else (.error (.invalidState s!"Cannot {verb} job in {job.status.debug} state"), jobs)

def canStart (status : JobStatus) : Bool := status = .pending || status = .paused
def canPause (status : JobStatus) : Bool := status = .running
def canResume (status : JobStatus) : Bool := status = .paused
def canCancel (status : JobStatus) : Bool := !(status = .completed || status = .cancelled)
def canDelete (status : JobStatus) : Bool := status ≠ .running

def startJob (jobs : Jobs) (jobId : Uuid) (now : DateTime) :
    Except FineTuningError FineTuningJob × Jobs :=
  updateJob jobs jobId "start" canStart
    fun job => { job with status := .running, startedAt := some now }

def pauseJob (jobs : Jobs) (jobId : Uuid) : Except FineTuningError FineTuningJob × Jobs :=
  updateJob jobs jobId "pause" canPause fun job => { job with status := .paused }

def resumeJob (jobs : Jobs) (jobId : Uuid) : Except FineTuningError FineTuningJob × Jobs :=
  updateJob jobs jobId "resume" canResume fun job => { job with status := .running }

def cancelJob (jobs : Jobs) (jobId : Uuid) : Except FineTuningError FineTuningJob × Jobs :=
  updateJob jobs jobId "cancel" canCancel fun job => { job with status := .cancelled }

def deleteJob (jobs : Jobs) (jobId : Uuid) : Except FineTuningError Unit × Jobs :=
  match jobs.lookup jobId with
  | none => (.error (.jobNotFound jobId), jobs)
  | some job =>
    if canDelete job.status then (.ok (), jobs.erase jobId)
    else (.error (.invalidState "Cannot delete running job"), jobs)

def getJob (jobs : Jobs) (jobId : Uuid) : Except FineTuningError FineTuningJob :=
  match jobs.lookup jobId with
  | none => .error (.jobNotFound jobId)
  | some job => .ok job

def listJobs (jobs : Jobs) : List FineTuningJob := jobs.entries.map (·.2)

def getStats (jobs : Jobs) : ServiceStats :=
  let count (status : JobStatus) := (listJobs jobs).countP (·.status = status)
  { totalJobs := jobs.entries.length, runningJobs := count .running
    completedJobs := count .completed, failedJobs := count .failed }

inductive Call
  | createJob (jobId : Uuid) (config : FineTuningConfig) (modelExists datasetExists : Bool)
      (createdAt : DateTime)
  | startJob (jobId : Uuid)
  | pauseJob (jobId : Uuid)
  | resumeJob (jobId : Uuid)
  | cancelJob (jobId : Uuid)
  | deleteJob (jobId : Uuid)
  | getJob (jobId : Uuid)
  | listJobs
  | getStats
deriving DecidableEq, Repr

inductive Response
  | created (jobId : Uuid)
  | done
  | job (job : FineTuningJob)
  | jobs (jobs : List FineTuningJob)
  | stats (stats : ServiceStats)
deriving DecidableEq, Repr

/-- The checks of `create_job` before it asks for the lock. -/
def Call.rejected : Call → Option FineTuningError
  | .createJob _ config modelExists datasetExists _ =>
    if !modelExists then some (.modelNotFound config.baseModel)
    else if !datasetExists then some (.datasetNotFound config.datasetPath)
    else none
  | _ => none

/-- `jobs.read()` or `jobs.write()`. -/
def Call.mode : Call → Mode
  | .getJob _ | .listJobs | .getStats => .read
  | _ => .write

/-- The section of a call under its guard, with its result; `start_job` also spawns the training of
the job it returns. -/
def Call.section (now : DateTime) (jobs : Jobs) :
    Call → Except FineTuningError Response × Jobs × Option FineTuningConfig
  | .createJob jobId config _ _ createdAt =>
    (.ok (.created jobId), FineTuning.createJob jobs jobId config createdAt, none)
  | .startJob jobId =>
    let (result, jobs) := FineTuning.startJob jobs jobId now
    (result.map fun _ => .done, jobs, result.toOption.map (·.config))
  | .pauseJob jobId =>
    let (result, jobs) := FineTuning.pauseJob jobs jobId
    (result.map fun _ => .done, jobs, none)
  | .resumeJob jobId =>
    let (result, jobs) := FineTuning.resumeJob jobs jobId
    (result.map fun _ => .done, jobs, none)
  | .cancelJob jobId =>
    let (result, jobs) := FineTuning.cancelJob jobs jobId
    (result.map fun _ => .done, jobs, none)
  | .deleteJob jobId =>
    let (result, jobs) := FineTuning.deleteJob jobs jobId
    (result.map fun _ => .done, jobs, none)
  | .getJob jobId => ((FineTuning.getJob jobs jobId).map .job, jobs, none)
  | .listJobs => (.ok (.jobs (FineTuning.listJobs jobs)), jobs, none)
  | .getStats => (.ok (.stats (FineTuning.getStats jobs)), jobs, none)

/-! ## Sections of `run_training` -/

/-- Where a training task is. -/
inductive Point
  /-- About to ask for the guard of the check at the head of the epoch. -/
  | epochStart (epoch : UInt32)
  /-- The check at the head of the epoch. -/
  | check (epoch : UInt32)
  /-- Sleeping in the pause loop; the guard of the check is still in scope. -/
  | pauseSleep (epoch : UInt32)
  /-- The check in the pause loop, under a second guard. -/
  | poll (epoch : UInt32)
  /-- Training the epoch. -/
  | epochSleep (epoch : UInt32)
  /-- The progress update at the end of the epoch. -/
  | update (epoch : UInt32)
  /-- After the loop, about to ask for the guard of the completion. -/
  | epochsDone
  /-- The final section, which marks the job as completed. -/
  | complete
  | returned
deriving DecidableEq, Repr

/-- The next iteration of `for epoch in 1..=config.epochs`. -/
def Point.next (config : FineTuningConfig) (epoch : UInt32) : Point :=
  if epoch < config.epochs then .epochStart (epoch + 1) else .epochsDone

/-- The sleeping or starting task asks for its next guard; `true` is the second guard of the pause
loop. -/
def Point.wake : Point → Option (Point × Bool × Mode)
  | .epochStart epoch => some (.check epoch, false, .read)
  | .pauseSleep epoch => some (.poll epoch, true, .read)
  | .epochSleep epoch => some (.update epoch, false, .write)
  | .epochsDone => some (.complete, false, .write)
  | .check _ | .poll _ | .update _ | .complete | .returned => none

def updateProgress (config : FineTuningConfig) (epoch : UInt32) (job : FineTuningJob) :
    FineTuningJob :=
  { job with
    epoch := epoch
    progress := epoch.toFloat32 / config.epochs.toFloat32 * 100.0
    loss := 2.0 * (1.0 - epoch.toFloat32 / config.epochs.toFloat32) }

def markCompleted (now : DateTime) (job : FineTuningJob) : FineTuningJob :=
  { job with status := .completed, progress := 100.0, completedAt := some now }

/-- The status of a job, if it exists. -/
def statusOf (jobs : Jobs) (jobId : Uuid) : Option JobStatus := (jobs.lookup jobId).map (·.status)

/-- The section of a training task under its guard. -/
def Point.section (jobId : Uuid) (config : FineTuningConfig) (now : DateTime) (jobs : Jobs) :
    Point → Option (Jobs × Point)
  | .check epoch => some (jobs,
      match statusOf jobs jobId with
      | some .cancelled => .returned
      | some .paused => .pauseSleep epoch
      | _ => .epochSleep epoch)
  | .poll epoch => some (jobs,
      match statusOf jobs jobId with
      | some .running => .epochSleep epoch
      | some .cancelled => .returned
      | _ => .pauseSleep epoch)
  | .update epoch =>
    some (jobs.modify jobId (updateProgress config epoch), .next config epoch)
  | .complete => some (jobs.modify jobId (markCompleted now), .returned)
  | .epochStart _ | .pauseSleep _ | .epochSleep _ | .epochsDone | .returned => none

/-! ## The system -/

/-- A call with its result once it has returned, or a training task. -/
inductive Proc
  | call (call : Call) (result : Option (Except FineTuningError Response))
  | training (jobId : Uuid) (config : FineTuningConfig) (point : Point)
deriving DecidableEq, Repr

/-- A guard (or the request for it) of a process; `inner` is the second guard of the pause loop. -/
structure Guard where
  pid : Nat
  inner : Bool
deriving DecidableEq, Repr

/-- The guards a process has or waits for at its present point, by their scopes in the source. -/
def Proc.scope : Proc → Bool → Option Mode
  | .call c none, false => some c.mode
  | .training _ _ (.check _), false => some .read
  | .training _ _ (.pauseSleep _), false => some .read
  | .training _ _ (.poll _), _ => some .read
  | .training _ _ (.update _), false => some .write
  | .training _ _ .complete, false => some .write
  | _, _ => none

/-- Whether the next section runs under the second guard. -/
def Proc.inner : Proc → Bool
  | .training _ _ (.poll _) => true
  | _ => false

/-- The next section of a process: the jobs, the process and the task it spawns. -/
def Proc.section (now : DateTime) (jobs : Jobs) : Proc → Option (Jobs × Proc × List Proc)
  | .call c none =>
    let (result, jobs, spawned) := c.section now jobs
    some (jobs, .call c (some result), match c, spawned with
      | .startJob jobId, some config => [.training jobId config (.next config 0)]
      | _, _ => [])
  | .call _ (some _) => none
  | .training jobId config point =>
    (point.section jobId config now jobs).map
      fun (jobs, point) => (jobs, .training jobId config point, [])

structure System where
  jobs : Jobs
  lock : RwLock Guard
  procs : List Proc

def System.init : System := ⟨∅, .empty, []⟩

/-- The id `create_job` makes is not one of an earlier `create_job`. -/
def Call.fresh (procs : List Proc) : Call → Bool
  | .createJob jobId _ _ _ _ => procs.all fun
    | .call (.createJob jobId' _ _ _ _) _ => jobId' ≠ jobId
    | _ => true
  | _ => true

inductive Label
  | call (call : Call)
  | wake (pid : Nat)
  | grant
  | run (pid : Nat) (now : DateTime)

/-- One step: a call is made (and asks for its guard), a training task asks for its next guard, the
lock grants the first request, or a process runs the section whose guard it holds and drops the
guards whose scope has ended. -/
def System.step (s : System) : Label → Option System
  | .call call =>
    if call.fresh s.procs then
      match call.rejected with
      | some e => some { s with procs := s.procs ++ [.call call (some (.error e))] }
      | none => some { s with
          lock := s.lock.request ⟨s.procs.length, false⟩ call.mode
          procs := s.procs ++ [.call call none] }
    else none
  | .wake pid =>
    match s.procs[pid]? with
    | some (.training jobId config point) => point.wake.map fun (point, inner, mode) =>
      { s with
        lock := s.lock.request ⟨pid, inner⟩ mode
        procs := s.procs.set pid (.training jobId config point) }
    | _ => none
  | .grant => s.lock.grant.map fun lock => { s with lock }
  | .run pid now => do
    let proc ← s.procs[pid]?
    if s.lock.Holds ⟨pid, proc.inner⟩ then
      let (jobs, proc, spawned) ← proc.section now s.jobs
      some
        { jobs
          lock := s.lock.retain fun g => g.pid ≠ pid || (proc.scope g.inner).isSome
          procs := s.procs.set pid proc ++ spawned }
    else none

/-! ## A job of one epoch -/

def smallConfig : FineTuningConfig := ⟨"model", "data.jsonl", "out.gguf", 1, 1, 0.5, none, none⟩

/-- Job 1 is created (call 0) and started (call 1); its training is process 2. -/
def startLabels : List Label :=
  [.call (.createJob ⟨1⟩ smallConfig true true ⟨0⟩), .grant, .run 0 ⟨0⟩, .call (.startJob ⟨1⟩), .grant,
    .run 1 ⟨1⟩]

end TensorGrid.FineTuning
