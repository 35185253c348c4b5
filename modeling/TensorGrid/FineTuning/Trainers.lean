import TensorGrid.FineTuning.Completion

/-!
# One trainer per job

`start_job` spawns a task and accepts a paused job too, whose task is still there, waiting in the
pause loop for the job to be running again.

* `RecordStep`: all that one step can do to the record of a job (`record_step`, `record_new`).
* `Sole`: the invariant of the runs without a start of a paused job. A job has at most one task,
  which is live while the job is running or paused, and whose epoch is never behind the record.
* `trainsAlone_iff`: the runs with one trainer per job, and with records that only move forward, are
  exactly those without a start of a paused job.
-/

namespace TensorGrid.FineTuning

open Rust

/-! ## Records under one section -/

theorem lookup_updateJob {jobs : Jobs} {k jobId : Uuid} {verb : String}
    {allowed : JobStatus → Bool} {f : FineTuningJob → FineTuningJob} :
    (updateJob jobs k verb allowed f).2.lookup jobId = (jobs.lookup jobId).map fun job =>
      if jobId = k ∧ allowed job.status then f job else job := by
  unfold updateJob
  by_cases hk : jobId = k
  · subst hk
    cases hjob : jobs.lookup jobId with
    | none => simp [hjob]
    | some job => by_cases hallowed : allowed job.status <;> simp [hjob, hallowed]
  · simp only [hk, false_and, if_false, Option.map_id']
    cases hjob : jobs.lookup k with
    | none => rfl
    | some job => by_cases hallowed : allowed job.status <;> simp [hallowed, hk]

/-- The record after an update. -/
theorem updateJob_cases {jobs : Jobs} {k jobId : Uuid} {verb : String}
    {allowed : JobStatus → Bool} {f : FineTuningJob → FineTuningJob} {job job' : FineTuningJob}
    (hjob : jobs.lookup jobId = some job)
    (hjob' : (updateJob jobs k verb allowed f).2.lookup jobId = some job') :
    job' = job ∨ jobId = k ∧ allowed job.status ∧ job' = f job := by
  rw [lookup_updateJob, hjob, Option.map_some, Option.some.injEq] at hjob'
  split at hjob'
  · next hallowed => exact .inr ⟨hallowed.1, hallowed.2, hjob'.symm⟩
  · exact .inl hjob'.symm

theorem updateJob_none {jobs : Jobs} {k jobId : Uuid} {verb : String}
    {allowed : JobStatus → Bool} {f : FineTuningJob → FineTuningJob}
    (hjob : jobs.lookup jobId = none) :
    (updateJob jobs k verb allowed f).2.lookup jobId = none := by
  rw [lookup_updateJob, hjob, Option.map_none]

theorem lookup_deleteJob {jobs : Jobs} {k jobId : Uuid} {job : FineTuningJob}
    (h : (deleteJob jobs k).2.lookup jobId = some job) : jobs.lookup jobId = some job := by
  unfold deleteJob at h
  split at h
  · exact h
  · split at h
    · by_cases hk : jobId = k
      · rw [hk, AList.lookup_erase] at h
        cases h
      · rwa [AList.lookup_erase_ne hk] at h
    · exact h

theorem lookup_modify_cases {jobs : Jobs} {k jobId : Uuid} {f : FineTuningJob → FineTuningJob}
    {job job' : FineTuningJob} (hjob : jobs.lookup jobId = some job)
    (hjob' : (jobs.modify k f).lookup jobId = some job') :
    job' = job ∨ jobId = k ∧ job' = f job := by
  by_cases hk : jobId = k
  · subst hk
    rw [HashMap.lookup_modify, hjob] at hjob'
    exact .inr ⟨rfl, (Option.some.inj hjob').symm⟩
  · rw [HashMap.lookup_modify_ne hk, hjob] at hjob'
    exact .inl (Option.some.inj hjob').symm

/-- All that one step can do to the record of a job that exists before and after it. -/
inductive RecordStep (s : System) (l : Label) (jobId : Uuid) (job : FineTuningJob) :
    FineTuningJob → Prop
  | same : RecordStep s l jobId job job
  | start {job' : FineTuningJob} (h : Starts jobId s l) (hepoch : job'.epoch = job.epoch)
      (hstatus : job'.status = .running) : RecordStep s l jobId job job'
  | call {job' : FineTuningJob} (hepoch : job'.epoch = job.epoch)
      (hstatus : job.status = .running ∧ job'.status = .paused ∨
        job.status = .paused ∧ job'.status = .running ∨
        job.status ≠ .completed ∧ job'.status = .cancelled) : RecordStep s l jobId job job'
  | update {k : Nat} {config : FineTuningConfig} {epoch : UInt32}
      (h : Runs s l k (.training jobId config (.update epoch))) :
    RecordStep s l jobId job (updateProgress config epoch job)
  | complete {k : Nat} {config : FineTuningConfig}
      (h : Runs s l k (.training jobId config .complete)) (now : DateTime) :
    RecordStep s l jobId job (markCompleted now job)

section
variable {s s' : System} {l : Label} {jobId : Uuid} {job job' : FineTuningJob}

theorem statusOf_eq {jobs : Jobs} (h : jobs.lookup jobId = some job) :
    statusOf jobs jobId = some job.status := by
  rw [statusOf, h]
  rfl

theorem record_step (h : s.step l = some s') (hnp : NotPending s jobId)
    (hjob : s.jobs.lookup jobId = some job) (hjob' : s'.jobs.lookup jobId = some job') :
    RecordStep s l jobId job job' := by
  obtain ⟨pid, now, p, p', spawned, rfl, hp, -, hrun⟩ | ⟨hsame, -⟩ := step_section h
  swap
  · rw [hsame, hjob] at hjob'
    cases hjob'
    exact .same
  have hruns : Runs s (.run pid now) pid p := ⟨now, rfl, hp⟩
  generalize s'.jobs = jobs' at hrun hjob'
  cases p with
  | call c result =>
    cases result with
    | some => cases hrun
    | none =>
    cases c with
    | createJob k config modelExists datasetExists createdAt =>
      cases hrun
      have hk : jobId ≠ k := by
        rintro rfl
        exact hnp _ (List.mem_of_getElem? hp) _ _ _ _ rfl
      rw [createJob, AList.lookup_insert_ne hk, hjob] at hjob'
      cases hjob'
      exact .same
    | startJob k =>
      cases hrun
      obtain rfl | ⟨rfl, hallowed, rfl⟩ := updateJob_cases hjob hjob'
      · exact .same
      · exact .start ⟨pid, hruns, by rw [statusOf_eq hjob]; exact hallowed⟩ rfl rfl
    | pauseJob k =>
      cases hrun
      obtain rfl | ⟨rfl, hallowed, rfl⟩ := updateJob_cases hjob hjob'
      · exact .same
      · exact .call rfl (.inl ⟨of_decide_eq_true hallowed, rfl⟩)
    | resumeJob k =>
      cases hrun
      obtain rfl | ⟨rfl, hallowed, rfl⟩ := updateJob_cases hjob hjob'
      · exact .same
      · exact .call rfl (.inr (.inl ⟨of_decide_eq_true hallowed, rfl⟩))
    | cancelJob k =>
      cases hrun
      obtain rfl | ⟨rfl, hallowed, rfl⟩ := updateJob_cases hjob hjob'
      · exact .same
      · refine .call rfl (.inr (.inr ⟨fun hcompleted => ?_, rfl⟩))
        rw [hcompleted] at hallowed
        cases hallowed
    | deleteJob k =>
      cases hrun
      cases hjob.symm.trans (lookup_deleteJob hjob')
      exact .same
    | getJob | listJobs | getStats =>
      cases hrun
      cases hjob.symm.trans hjob'
      exact .same
  | training k config point =>
    obtain ⟨⟨jobs₁, point'⟩, hpoint, heq⟩ := Option.map_eq_some_iff.1 hrun
    cases heq
    cases point with
    | check | poll =>
      cases hpoint
      cases hjob.symm.trans hjob'
      exact .same
    | update epoch =>
      cases hpoint
      obtain hsame | ⟨rfl, rfl⟩ := lookup_modify_cases hjob hjob'
      · rw [hsame]
        exact .same
      · exact .update hruns
    | complete =>
      cases hpoint
      obtain hsame | ⟨rfl, rfl⟩ := lookup_modify_cases hjob hjob'
      · rw [hsame]
        exact .same
      · exact .complete hruns now
    | epochStart | pauseSleep | epochSleep | epochsDone | returned => cases hpoint

/-- A record that was not there before the step is that of a pending job, created by the step. -/
theorem record_new (h : s.step l = some s') (hjob : s.jobs.lookup jobId = none)
    (hjob' : s'.jobs.lookup jobId = some job') :
    ¬ NotPending s jobId ∧ job'.status = .pending ∧ job'.epoch = 0 := by
  obtain ⟨pid, now, p, p', spawned, rfl, hp, -, hrun⟩ | ⟨hsame, -⟩ := step_section h
  swap
  · rw [hsame, hjob] at hjob'
    cases hjob'
  generalize s'.jobs = jobs' at hrun hjob'
  cases p with
  | call c result =>
    cases result with
    | some => cases hrun
    | none =>
    cases c with
    | createJob k config modelExists datasetExists createdAt =>
      cases hrun
      by_cases hk : jobId = k
      · subst hk
        rw [createJob, AList.lookup_insert] at hjob'
        cases hjob'
        exact ⟨fun hnp => hnp _ (List.mem_of_getElem? hp) _ _ _ _ rfl, rfl, rfl⟩
      · rw [createJob, AList.lookup_insert_ne hk, hjob] at hjob'
        cases hjob'
    | startJob k | pauseJob k | resumeJob k | cancelJob k =>
      cases hrun
      cases (updateJob_none hjob).symm.trans hjob'
    | deleteJob k =>
      cases hrun
      cases hjob.symm.trans (lookup_deleteJob hjob')
    | getJob | listJobs | getStats =>
      cases hrun
      cases hjob.symm.trans hjob'
  | training k config point =>
    obtain ⟨⟨jobs₁, point'⟩, hpoint, heq⟩ := Option.map_eq_some_iff.1 hrun
    cases heq
    cases point with
    | check | poll =>
      cases hpoint
      cases hjob.symm.trans hjob'
    | update | complete =>
      cases hpoint
      have hmem := HashMap.mem_modify.1 (HashMap.mem_of_lookup hjob')
      exact absurd hmem (HashMap.notMem_of_lookup hjob)
    | epochStart | pauseSleep | epochSleep | epochsDone | returned => cases hpoint

theorem Proc.section_start {now : DateTime} {jobs jobs' : Jobs} {p' : Proc}
    {spawned : List Proc}
    (h : (Proc.call (.startJob jobId) none).section now jobs = some (jobs', p', spawned))
    (hcan : (statusOf jobs jobId).any canStart) :
    ∃ config, spawned = [.training jobId config (.next config 0)] := by
  cases h
  cases hjob : jobs.lookup jobId with
  | none => simp [statusOf, hjob] at hcan
  | some job =>
    have hallowed : canStart job.status := by simpa [statusOf_eq hjob] using hcan
    exact ⟨job.config, by simp [hallowed, Except.toOption]⟩

/-- A start that takes effect spawns a task and leaves the job running. -/
theorem Starts.spawns (hstarts : Starts jobId s l) (h : s.step l = some s') :
    (∃ config, s'.procs[s.procs.length]? = some (.training jobId config (.next config 0))) ∧
      statusOf s'.jobs jobId = some .running := by
  obtain ⟨pid, ⟨now, rfl, hp⟩, hcan⟩ := hstarts
  obtain ⟨p, jobs, p', spawned, hp', -, hrun, rfl⟩ := System.step_run.1 h
  cases hp.symm.trans hp'
  refine ⟨?_, ?_⟩
  · obtain ⟨config, rfl⟩ := Proc.section_start hrun hcan
    refine ⟨config, ?_⟩
    rw [List.getElem?_append_right (by rw [List.length_set]), List.length_set, Nat.sub_self]
    rfl
  · rw [Proc.statusOf_section hrun, Proc.effect, Call.effect, setIf_self, if_pos hcan]

end

/-! ## Tasks -/

/-- The epoch the task is in, which the next progress update will record. -/
def Point.epoch? : Point → Option UInt32
  | .epochStart epoch | .check epoch | .pauseSleep epoch | .poll epoch | .epochSleep epoch
  | .update epoch => some epoch
  | .epochsDone | .complete | .returned => none

section
variable {s s' : System} {l : Label} {pid : Nat} {jobId : Uuid} {config : FineTuningConfig}
  {point point' : Point}

theorem Point.next_ne_returned (config : FineTuningConfig) (epoch : UInt32) :
    Point.next config epoch ≠ .returned := by
  unfold Point.next
  split <;> nofun

theorem epoch?_next {epoch epoch' : UInt32} (h : (Point.next config epoch).epoch? = some epoch') :
    epoch ≤ epoch' := by
  unfold Point.next at h
  split at h
  · next hlt =>
    cases h
    have hle : epoch.toNat < config.epochs.toNat := hlt
    have hsize := config.epochs.toNat_lt
    rw [UInt32.le_iff_toNat_le, UInt32.toNat_add, UInt32.toNat_one, Nat.mod_eq_of_lt (by omega)]
    omega
  · cases h

/-- A task goes through its epochs in order. -/
theorem Point.Moves.epoch (h : point.Moves jobId config s s' point') {epoch' : UInt32}
    (hepoch : point'.epoch? = some epoch') :
    ∃ epoch, point.epoch? = some epoch ∧ epoch ≤ epoch' := by
  rcases h with rfl | ⟨_, _, hw⟩ | ⟨now, hr⟩
  · exact ⟨epoch', hepoch, UInt32.le_refl _⟩
  · cases point <;> cases hw <;> cases hepoch <;> exact ⟨_, rfl, UInt32.le_refl _⟩
  · cases point with
    | check epoch =>
      obtain ⟨-, rfl⟩ := Prod.mk.inj (Option.some.inj hr)
      refine ⟨epoch, rfl, ?_⟩
      revert hepoch
      split <;> rintro ⟨⟩ <;> exact UInt32.le_refl _
    | poll epoch =>
      obtain ⟨-, rfl⟩ := Prod.mk.inj (Option.some.inj hr)
      refine ⟨epoch, rfl, ?_⟩
      revert hepoch
      split <;> rintro ⟨⟩ <;> exact UInt32.le_refl _
    | update epoch =>
      obtain ⟨-, rfl⟩ := Prod.mk.inj (Option.some.inj hr)
      exact ⟨epoch, rfl, epoch?_next hepoch⟩
    | complete =>
      obtain ⟨-, rfl⟩ := Prod.mk.inj (Option.some.inj hr)
      cases hepoch
    | _ => cases hr

/-- A task returns only because its job is cancelled, or after its final section. -/
theorem Point.Moves.live (h : point.Moves jobId config s s' point') (hlive : point ≠ .returned)
    (hcancelled : statusOf s.jobs jobId ≠ some .cancelled) (hne : statusOf s.jobs jobId ≠ none)
    (hcompleted : statusOf s'.jobs jobId ≠ some .completed) : point' ≠ .returned := by
  rcases h with rfl | ⟨_, _, hw⟩ | ⟨now, hr⟩
  · exact hlive
  · cases point <;> cases hw <;> nofun
  · cases point with
    | check epoch =>
      obtain ⟨-, rfl⟩ := Prod.mk.inj (Option.some.inj hr)
      split
      · next heq => exact absurd heq hcancelled
      · nofun
      · nofun
    | poll epoch =>
      obtain ⟨-, rfl⟩ := Prod.mk.inj (Option.some.inj hr)
      split
      · nofun
      · next heq => exact absurd heq hcancelled
      · nofun
    | update epoch =>
      obtain ⟨-, rfl⟩ := Prod.mk.inj (Option.some.inj hr)
      exact Point.next_ne_returned config epoch
    | complete =>
      obtain ⟨hjobs, -⟩ := Prod.mk.inj (Option.some.inj hr)
      refine absurd ?_ hcompleted
      obtain ⟨status, hstatus⟩ := Option.ne_none_iff_exists'.1 hne
      rw [← hjobs, statusOf_modify (f := markCompleted now) fun _ => rfl, setIf_self, hstatus]
      rfl
    | _ => cases hr

end

/-! ## The invariant -/

/-- The process `k` is a task of the job. -/
def Trains (s : System) (jobId : Uuid) (k : Nat) : Prop :=
  ∃ config point, s.procs[k]? = some (.training jobId config point)

/-- The process `k` is a task of the job that has not returned. -/
def Live (s : System) (jobId : Uuid) (k : Nat) : Prop :=
  ∃ config point, s.procs[k]? = some (.training jobId config point) ∧ point ≠ .returned

/-- No `start_job` takes effect on a paused job. -/
def StartsPending (s : System) (l : Label) : Prop :=
  ∀ jobId, Starts jobId s l → statusOf s.jobs jobId ≠ some .paused

/-- What the jobs and the tasks have to do with each other, as long as no paused job is started. -/
structure Sole (s : System) : Prop where
  fresh : Fresh s
  unique : ∀ jobId k k', Trains s jobId k → Trains s jobId k' → k = k'
  pending : ∀ jobId job, s.jobs.lookup jobId = some job → job.status = .pending →
    job.epoch = 0 ∧ ∀ k, ¬ Trains s jobId k
  active : ∀ jobId job, s.jobs.lookup jobId = some job →
    job.status = .running ∨ job.status = .paused → ∃ k, Live s jobId k
  epoch : ∀ jobId job (k : Nat) config (point : Point) epoch, s.jobs.lookup jobId = some job →
    s.procs[k]? = some (.training jobId config point) → point.epoch? = some epoch →
    job.epoch ≤ epoch
  completed : ∀ jobId job (k : Nat) config point, s.jobs.lookup jobId = some job →
    job.status = .completed → s.procs[k]? = some (.training jobId config point) →
    point = .returned

theorem sole_init : Sole .init where
  fresh := fresh_init
  unique _ _ _ h := by obtain ⟨_, _, h⟩ := h; cases h
  pending _ _ h := by cases h
  active _ _ h := by cases h
  epoch _ _ _ _ _ _ h := by cases h
  completed _ _ _ _ _ h := by cases h

section
variable {s s' : System} {l : Label} {jobId : Uuid} {job job' : FineTuningJob}

theorem Live.trains {k : Nat} (h : Live s jobId k) : Trains s jobId k := by
  obtain ⟨config, point, hp, -⟩ := h
  exact ⟨config, point, hp⟩

theorem Runs.trains {k : Nat} {config : FineTuningConfig} {point : Point}
    (h : Runs s l k (.training jobId config point)) : Trains s jobId k := by
  obtain ⟨now, -, hp⟩ := h
  exact ⟨config, point, hp⟩

namespace Sole

/-- A job that is there was created by a call that has returned. -/
theorem notPending (h : Sole s) (hjob : s.jobs.lookup jobId = some job) : NotPending s jobId :=
  h.fresh.notPending (h.fresh.job jobId (by rw [statusOf_eq hjob]; nofun))

/-- A job that a step creates has no task. -/
theorem not_trains_new (h : Sole s) (hstep : s.step l = some s')
    (hjob : s.jobs.lookup jobId = none) (hjob' : s'.jobs.lookup jobId = some job') (k : Nat) :
    ¬ Trains s' jobId k := by
  obtain ⟨hpending, -⟩ := record_new hstep hjob hjob'
  rintro ⟨config, point', hp'⟩
  obtain ⟨point, hp, -⟩ | ⟨-, ⟨pid, -, hcan⟩, -⟩ := training_origin hstep hp'
  · exact hpending (h.fresh.notPending (h.fresh.training k jobId config point hp))
  · rw [statusOf, hjob] at hcan
    cases hcan

/-- A job that is started has no task yet, and no epoch behind it. -/
theorem starts_pending (h : Sole s) (hc : StartsPending s l) (hstarts : Starts jobId s l) :
    ∃ job, s.jobs.lookup jobId = some job ∧ job.status = .pending ∧ job.epoch = 0 ∧
      ∀ k, ¬ Trains s jobId k := by
  obtain ⟨pid, hruns, hcan⟩ := hstarts
  have hpaused := hc jobId ⟨pid, hruns, hcan⟩
  cases hjob : s.jobs.lookup jobId with
  | none =>
    rw [statusOf, hjob] at hcan
    cases hcan
  | some job =>
    rw [statusOf_eq hjob] at hcan hpaused
    have hstatus : job.status = .pending := by
      obtain hpending | hstatus := Bool.or_eq_true_iff.1 hcan
      · exact of_decide_eq_true hpending
      · exact absurd (congrArg some (of_decide_eq_true hstatus)) hpaused
    exact ⟨job, rfl, hstatus, h.pending jobId job hjob hstatus⟩

/-- A task of a running or paused job stays live until it completes the job. -/
theorem live_step (hstep : s.step l = some s') (hjob : s.jobs.lookup jobId = some job)
    (hactive : job.status = .running ∨ job.status = .paused)
    (hjob' : s'.jobs.lookup jobId = some job') (hcompleted : job'.status ≠ .completed) {k : Nat}
    (hlive : Live s jobId k) : Live s' jobId k := by
  obtain ⟨config, point, hp, hne⟩ := hlive
  obtain ⟨point', hp', hmoves⟩ := training_step hstep hp
  refine ⟨config, point', hp', hmoves.live hne ?_ ?_ ?_⟩
  · rw [statusOf_eq hjob]
    intro heq
    obtain hstatus | hstatus := hactive <;> cases hstatus.symm.trans (Option.some.inj heq)
  · rw [statusOf_eq hjob]
    nofun
  · rw [statusOf_eq hjob']
    exact fun heq => hcompleted (Option.some.inj heq)

theorem unique_step (h : Sole s) (hc : StartsPending s l) (hstep : s.step l = some s')
    {k k' : Nat} (hk : Trains s' jobId k) (hk' : Trains s' jobId k') : k = k' := by
  obtain ⟨config, point, hp⟩ := hk
  obtain ⟨config', point', hp'⟩ := hk'
  obtain ⟨point₀, hp₀, -⟩ | ⟨-, hstarts, -, hnew⟩ := training_origin hstep hp <;>
    obtain ⟨point₀', hp₀', -⟩ | ⟨-, hstarts', -, hnew'⟩ := training_origin hstep hp'
  · exact h.unique jobId k k' ⟨config, point₀, hp₀⟩ ⟨config', point₀', hp₀'⟩
  · obtain ⟨-, -, -, -, hno⟩ := h.starts_pending hc hstarts'
    exact absurd ⟨config, point₀, hp₀⟩ (hno k)
  · obtain ⟨-, -, -, -, hno⟩ := h.starts_pending hc hstarts
    exact absurd ⟨config', point₀', hp₀'⟩ (hno k')
  · rw [hnew, hnew']

theorem pending_step (h : Sole s) (hstep : s.step l = some s')
    (hjob' : s'.jobs.lookup jobId = some job') (hpending : job'.status = .pending) :
    job'.epoch = 0 ∧ ∀ k, ¬ Trains s' jobId k := by
  cases hjob : s.jobs.lookup jobId with
  | none => exact ⟨(record_new hstep hjob hjob').2.2, h.not_trains_new hstep hjob hjob'⟩
  | some job =>
    -- a start would have left the job running
    have hnew (k : Nat) (hno : ¬ Trains s jobId k) : ¬ Trains s' jobId k := by
      rintro ⟨config, point', hp'⟩
      obtain ⟨point, hp, -⟩ | ⟨-, hstarts, -⟩ := training_origin hstep hp'
      · exact hno ⟨config, point, hp⟩
      · have hrunning := (hstarts.spawns hstep).2
        rw [statusOf_eq hjob', hpending] at hrunning
        cases hrunning
    cases record_step hstep (h.notPending hjob) hjob hjob' with
    | same =>
      obtain ⟨hepoch, hno⟩ := h.pending jobId _ hjob hpending
      exact ⟨hepoch, fun k => hnew k (hno k)⟩
    | start _ _ hstatus => cases hstatus.symm.trans hpending
    | call _ hstatus =>
      obtain ⟨-, hstatus⟩ | ⟨-, hstatus⟩ | ⟨-, hstatus⟩ := hstatus <;>
        cases hstatus.symm.trans hpending
    | update hruns => exact absurd hruns.trains ((h.pending jobId job hjob hpending).2 _)
    | complete => cases hpending

theorem active_step (h : Sole s) (hstep : s.step l = some s')
    (hjob' : s'.jobs.lookup jobId = some job')
    (hactive : job'.status = .running ∨ job'.status = .paused) : ∃ k, Live s' jobId k := by
  have hcompleted : job'.status ≠ .completed := by
    obtain hstatus | hstatus := hactive <;> rw [hstatus] <;> nofun
  cases hjob : s.jobs.lookup jobId with
  | none =>
    obtain ⟨-, hpending, -⟩ := record_new hstep hjob hjob'
    obtain hstatus | hstatus := hactive <;> cases hstatus.symm.trans hpending
  | some job =>
    have hold (hstatus : job.status = .running ∨ job.status = .paused) : ∃ k, Live s' jobId k := by
      obtain ⟨k, hlive⟩ := h.active jobId job hjob hstatus
      exact ⟨k, live_step hstep hjob hstatus hjob' hcompleted hlive⟩
    cases record_step hstep (h.notPending hjob) hjob hjob' with
    | same => exact hold hactive
    | start hstarts =>
      obtain ⟨⟨config, hp⟩, -⟩ := hstarts.spawns hstep
      exact ⟨_, config, _, hp, Point.next_ne_returned config 0⟩
    | call _ hstatus =>
      obtain ⟨hrunning, -⟩ | ⟨hpaused, -⟩ | ⟨-, hcancelled⟩ := hstatus
      · exact hold (.inl hrunning)
      · exact hold (.inr hpaused)
      · obtain hstatus | hstatus := hactive <;> cases hstatus.symm.trans hcancelled
    | update => exact hold hactive
    | complete => exact absurd rfl hcompleted

theorem epoch_step (h : Sole s) (hc : StartsPending s l) (hstep : s.step l = some s')
    (hjob' : s'.jobs.lookup jobId = some job') {k : Nat} {config : FineTuningConfig}
    {point' : Point} (hp' : s'.procs[k]? = some (.training jobId config point')) {epoch : UInt32}
    (hepoch : point'.epoch? = some epoch) : job'.epoch ≤ epoch := by
  cases hjob : s.jobs.lookup jobId with
  | none => exact absurd ⟨config, point', hp'⟩ (h.not_trains_new hstep hjob hjob' k)
  | some job =>
    have hrecord := record_step hstep (h.notPending hjob) hjob hjob'
    obtain ⟨point, hp, hmoves⟩ | ⟨-, hstarts, -⟩ := training_origin hstep hp'
    · obtain ⟨epoch₀, hepoch₀, hle⟩ := hmoves.epoch hepoch
      have hjob_le := h.epoch jobId job k config point epoch₀ hjob hp hepoch₀
      cases hrecord with
      | same => exact UInt32.le_trans hjob_le hle
      | start _ hsame => exact hsame ▸ UInt32.le_trans hjob_le hle
      | call hsame => exact hsame ▸ UInt32.le_trans hjob_le hle
      | complete => exact UInt32.le_trans hjob_le hle
      | @update k₂ config₂ epoch₂ hruns =>
        -- the task that updates the record is the only one
        obtain rfl := h.unique jobId k k₂ ⟨config, point, hp⟩ hruns.trains
        obtain ⟨now, -, hp₂⟩ := hruns
        cases hp.symm.trans hp₂
        cases hepoch₀
        exact hle
    · obtain ⟨job₀, hjob₀, -, hzero, hno⟩ := h.starts_pending hc hstarts
      cases hjob.symm.trans hjob₀
      have hepoch_zero : job'.epoch = 0 := by
        cases hrecord with
        | same => exact hzero
        | start _ hsame => exact hsame.trans hzero
        | call hsame => exact hsame.trans hzero
        | update hruns => exact absurd hruns.trains (hno _)
        | complete hruns => exact absurd hruns.trains (hno _)
      rw [hepoch_zero]
      exact UInt32.zero_le

theorem completed_step (h : Sole s) (hstep : s.step l = some s')
    (hjob' : s'.jobs.lookup jobId = some job') (hcompleted : job'.status = .completed) {k : Nat}
    {config : FineTuningConfig} {point' : Point}
    (hp' : s'.procs[k]? = some (.training jobId config point')) : point' = .returned := by
  cases hjob : s.jobs.lookup jobId with
  | none =>
    cases (record_new hstep hjob hjob').2.1.symm.trans hcompleted
  | some job =>
    have horigin := training_origin hstep hp'
    -- a start would have left the job running
    have hold : ¬ Starts jobId s l := by
      intro hstarts
      have hrunning := (hstarts.spawns hstep).2
      rw [statusOf_eq hjob', hcompleted] at hrunning
      cases hrunning
    obtain ⟨point, hp, hmoves⟩ : ∃ point, s.procs[k]? = some (.training jobId config point) ∧
        point.Moves jobId config s s' point' :=
      horigin.resolve_right fun hnew => hold hnew.2.1
    have hsame (hstatus : job.status = .completed) : point' = .returned := by
      obtain rfl := h.completed jobId job k config point hjob hstatus hp
      exact hmoves.returned
    cases record_step hstep (h.notPending hjob) hjob hjob' with
    | same => exact hsame hcompleted
    | start _ _ hstatus => cases hstatus.symm.trans hcompleted
    | call _ hstatus =>
      obtain ⟨-, hstatus⟩ | ⟨-, hstatus⟩ | ⟨-, hstatus⟩ := hstatus <;>
        cases hstatus.symm.trans hcompleted
    | update => exact hsame hcompleted
    | @complete k₂ config₂ hruns =>
      obtain rfl := h.unique jobId k k₂ ⟨config, point, hp⟩ hruns.trains
      obtain ⟨now, rfl, hp₂⟩ := hruns
      obtain ⟨p, jobs, p', spawned, hp₃, -, hrun, rfl⟩ := System.step_run.1 hstep
      cases hp₂.symm.trans hp₃
      cases hrun
      cases (getElem?_run_self hp₂).symm.trans hp'
      rfl

/-- **The invariant** is kept by the steps that start no paused job. -/
theorem step (h : Sole s) (hc : StartsPending s l) (hstep : s.step l = some s') : Sole s' where
  fresh := h.fresh.step s l s' hstep
  unique _ _ _ hk hk' := h.unique_step hc hstep hk hk'
  pending _ _ hjob' hpending := h.pending_step hstep hjob' hpending
  active _ _ hjob' hactive := h.active_step hstep hjob' hactive
  epoch _ _ _ _ _ _ hjob' hp' hepoch := h.epoch_step hc hstep hjob' hp' hepoch
  completed _ _ _ _ _ hjob' hcompleted hp' := h.completed_step hstep hjob' hcompleted hp'

/-- A record never goes back, and that of a completed job stays as it is. -/
theorem record_kept (h : Sole s) (hstep : s.step l = some s')
    (hjob : s.jobs.lookup jobId = some job) (hjob' : s'.jobs.lookup jobId = some job') :
    job.epoch ≤ job'.epoch ∧ (job.status = .completed → job' = job) := by
  -- the task of a completed job has no section to run
  have hdone {k : Nat} {config : FineTuningConfig} {point : Point}
      (hruns : Runs s l k (.training jobId config point)) (hpoint : point ≠ .returned) :
      job.status ≠ .completed := by
    obtain ⟨now, -, hp⟩ := hruns
    exact fun hcompleted => hpoint (h.completed jobId job k config point hjob hcompleted hp)
  cases record_step hstep (h.notPending hjob) hjob hjob' with
  | same => exact ⟨UInt32.le_refl _, fun _ => rfl⟩
  | start hstarts hepoch =>
    refine ⟨hepoch ▸ UInt32.le_refl _, fun hcompleted => ?_⟩
    obtain ⟨pid, -, hcan⟩ := hstarts
    rw [statusOf_eq hjob, hcompleted] at hcan
    cases hcan
  | call hepoch hstatus =>
    refine ⟨hepoch ▸ UInt32.le_refl _, fun hcompleted => ?_⟩
    obtain ⟨hstatus, -⟩ | ⟨hstatus, -⟩ | ⟨hstatus, -⟩ := hstatus
    · cases hstatus.symm.trans hcompleted
    · cases hstatus.symm.trans hcompleted
    · exact absurd hcompleted hstatus
  | @update k config epoch hruns =>
    obtain ⟨now, -, hp⟩ := id hruns
    exact ⟨h.epoch jobId job k config _ epoch hjob hp rfl,
      fun hcompleted => absurd hcompleted (hdone hruns nofun)⟩
  | complete hruns =>
    exact ⟨UInt32.le_refl _, fun hcompleted => absurd hcompleted (hdone hruns nofun)⟩

end Sole

end

/-! ## Runs -/

/-- No job has two live tasks. -/
def OneTrainer (s : System) : Prop :=
  ∀ jobId k k', Live s jobId k → Live s jobId k' → k = k'

/-- What the run promises of its jobs: one live task each, and a record whose epoch never decreases
and which does not change once the job is completed. -/
structure TrainsAlone (es : List Label) : Prop where
  sole : Lts.Always System.step OneTrainer .init es
  kept : ∀ pre mid post s t, es = pre ++ (mid ++ post) →
    Lts.exec System.step .init pre = some s → Lts.exec System.step s mid = some t →
    ∀ jobId job job', s.jobs.lookup jobId = some job → t.jobs.lookup jobId = some job' →
      job.epoch ≤ job'.epoch ∧ (job.status = .completed → job' = job)

theorem Sole.oneTrainer {s : System} (h : Sole s) : OneTrainer s :=
  fun jobId k k' hk hk' => h.unique jobId k k' hk.trains hk'.trains

/-- The task of a paused job is still live, so a start makes a second one. -/
theorem Sole.startsPending {s s' : System} {l : Label} (h : Sole s) (hstep : s.step l = some s')
    (hone : OneTrainer s') : StartsPending s l := by
  intro jobId hstarts hpaused
  obtain ⟨job, hjob, hstatus⟩ := Option.map_eq_some_iff.1 hpaused
  obtain ⟨k, hlive⟩ := h.active jobId job hjob (.inr hstatus)
  obtain ⟨⟨config, hp⟩, hrunning⟩ := hstarts.spawns hstep
  obtain ⟨job', hjob', hstatus'⟩ := Option.map_eq_some_iff.1 hrunning
  have hlive' := live_step hstep hjob (.inr hstatus) hjob' (by rw [hstatus']; nofun) hlive
  have hnew : Live s' jobId s.procs.length := ⟨config, _, hp, Point.next_ne_returned config 0⟩
  have hk := hone jobId k s.procs.length hlive' hnew
  obtain ⟨_, _, hp', -⟩ := hlive
  have hlt := (List.getElem?_eq_some_iff.1 hp').1
  omega

theorem always_oneTrainer_iff (es : List Label) :
    Lts.Always System.step OneTrainer .init es ↔ Lts.Meets System.step StartsPending .init es :=
  Lts.always_iff_meets_of_inv (I := Sole) (fun _ h => h.oneTrainer)
    (fun _ _ _ h hc hstep => h.step hc hstep) (fun _ _ _ h hstep hone => h.startsPending hstep hone)
    sole_init

/-- The job is deleted, or its record has moved on from `job`. -/
structure KeptFrom (jobId : Uuid) (job : FineTuningJob) (s : System) : Prop where
  sole : Sole s
  created : Created s jobId
  kept : ∀ job', s.jobs.lookup jobId = some job' →
    job.epoch ≤ job'.epoch ∧ (job.status = .completed → job' = job)

theorem KeptFrom.step {jobId : Uuid} {job : FineTuningJob} {s s' : System} {l : Label}
    (h : KeptFrom jobId job s) (hc : StartsPending s l) (hstep : s.step l = some s') :
    KeptFrom jobId job s' := by
  refine ⟨h.sole.step hc hstep, h.created.step hstep, fun job₂ hjob₂ => ?_⟩
  cases hjob₁ : s.jobs.lookup jobId with
  | none =>
    -- a deleted job is not created again
    exact absurd (h.sole.fresh.notPending h.created) (record_new hstep hjob₁ hjob₂).1
  | some job₁ =>
    obtain ⟨hle, hsame⟩ := h.kept job₁ hjob₁
    obtain ⟨hle', hsame'⟩ := h.sole.record_kept hstep hjob₁ hjob₂
    refine ⟨UInt32.le_trans hle hle', fun hcompleted => ?_⟩
    obtain rfl := hsame hcompleted
    exact hsame' hcompleted

theorem Sole.keptFrom {jobId : Uuid} {job : FineTuningJob} {s : System} (h : Sole s)
    (hjob : s.jobs.lookup jobId = some job) : KeptFrom jobId job s := by
  refine ⟨h, h.fresh.job jobId (by rw [statusOf_eq hjob]; nofun), fun job' hjob' => ?_⟩
  cases hjob.symm.trans hjob'
  exact ⟨UInt32.le_refl _, fun _ => rfl⟩

/-- **One trainer per job**, and records that only move forward, exactly when no step starts a
paused job. -/
theorem trainsAlone_iff (es : List Label) :
    TrainsAlone es ↔ Lts.Meets System.step StartsPending .init es := by
  refine ⟨fun h => (always_oneTrainer_iff es).1 h.sole, fun h =>
    ⟨(always_oneTrainer_iff es).2 h, ?_⟩⟩
  rintro pre mid post s t rfl hs ht jobId job job' hjob hjob'
  have hsole := (Lts.always_of_meets (I := Sole) (fun _ _ _ h hc hstep => h.step hc hstep)
    sole_init h.initial).last hs
  have hkept := (Lts.always_of_meets (I := KeptFrom jobId job)
    (fun _ _ _ h hc hstep => h.step hc hstep) (hsole.keptFrom hjob) (h.rest hs).initial).last ht
  exact hkept.kept job' hjob'

/-- Job 1 is started, paused and started again. -/
def restartLabels : List Label :=
  startLabels ++ [.call (.pauseJob ⟨1⟩), .grant, .run 3 ⟨2⟩, .call (.startJob ⟨1⟩), .grant,
    .run 4 ⟨3⟩]

theorem restart_trains_twice : ¬∀ es : List Label, TrainsAlone es := by
  intro h
  obtain ⟨s, hs, hfirst, hsecond⟩ : ∃ s, Lts.exec System.step .init restartLabels = some s ∧
      s.procs[2]? = some (.training ⟨1⟩ smallConfig (.epochStart 1)) ∧
      s.procs[5]? = some (.training ⟨1⟩ smallConfig (.epochStart 1)) := ⟨_, rfl, rfl, rfl⟩
  have hone := (h restartLabels).sole.last hs
  have htwo := hone ⟨1⟩ 2 5 ⟨_, _, hfirst, nofun⟩ ⟨_, _, hsecond, nofun⟩
  cases htwo

end TensorGrid.FineTuning
