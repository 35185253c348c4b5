import TensorGrid.FineTuning.Model

/-!
# What a section does to the statuses

`Proc.effect` is what the next section of a process does to the statuses of the jobs; it does not
depend on the clock (`statusOf_section`). `System.step_call`, `step_wake`, `step_grant` and
`step_run` are the inversions of the step.
-/

namespace TensorGrid.FineTuning

open Rust

abbrev Statuses := Uuid → Option JobStatus

/-- Replace the status of a job, if the present one is `allowed`. -/
def setIf (allowed : JobStatus → Bool) (new : Option JobStatus) (jobId : Uuid) (st : Statuses) :
    Statuses :=
  if (st jobId).any allowed then Function.update st jobId new else st

def Call.effect (st : Statuses) : Call → Statuses
  | .createJob jobId _ _ _ _ => Function.update st jobId (some .pending)
  | .startJob jobId => setIf canStart (some .running) jobId st
  | .pauseJob jobId => setIf canPause (some .paused) jobId st
  | .resumeJob jobId => setIf canResume (some .running) jobId st
  | .cancelJob jobId => setIf canCancel (some .cancelled) jobId st
  | .deleteJob jobId => setIf canDelete none jobId st
  | .getJob _ | .listJobs | .getStats => st

def Proc.effect (st : Statuses) : Proc → Statuses
  | .call c none => c.effect st
  | .training jobId _ .complete => setIf (fun _ => true) (some .completed) jobId st
  | _ => st

theorem setIf_ne {allowed : JobStatus → Bool} {new : Option JobStatus} {jobId j : Uuid}
    (h : j ≠ jobId) (st : Statuses) : setIf allowed new jobId st j = st j := by
  unfold setIf
  split
  · rw [Function.update_of_ne h]
  · rfl

theorem setIf_self {allowed : JobStatus → Bool} {new : Option JobStatus} {jobId : Uuid}
    (st : Statuses) : setIf allowed new jobId st jobId =
      if (st jobId).any allowed then new else st jobId := by
  unfold setIf
  split
  · rw [Function.update_self]
  · rfl

/-! ## Sections -/

theorem statusOf_insert (jobs : Jobs) (jobId : Uuid) (job : FineTuningJob) :
    statusOf (jobs.insert jobId job) = Function.update (statusOf jobs) jobId (some job.status) := by
  funext j
  by_cases hj : j = jobId
  · subst hj; simp [statusOf]
  · simp [statusOf, hj]

theorem statusOf_erase (jobs : Jobs) (jobId : Uuid) :
    statusOf (jobs.erase jobId) = Function.update (statusOf jobs) jobId none := by
  funext j
  by_cases hj : j = jobId
  · subst hj; simp [statusOf]
  · simp [statusOf, hj]

theorem statusOf_modify_same {jobs : Jobs} {jobId : Uuid} {f : FineTuningJob → FineTuningJob}
    (hf : ∀ job, (f job).status = job.status) :
    statusOf (jobs.modify jobId f) = statusOf jobs := by
  funext j
  by_cases hj : j = jobId
  · subst hj; simp [statusOf, Function.comp_def, hf]
  · simp [statusOf, hj]

theorem statusOf_modify {jobs : Jobs} {jobId : Uuid} {f : FineTuningJob → FineTuningJob}
    {new : JobStatus} (hf : ∀ job, (f job).status = new) :
    statusOf (jobs.modify jobId f) = setIf (fun _ => true) (some new) jobId (statusOf jobs) := by
  funext j
  by_cases hj : j = jobId
  · subst hj
    rw [setIf_self]
    cases hl : jobs.lookup j <;> simp [statusOf, hl, hf]
  · rw [setIf_ne hj]
    simp [statusOf, hj]

theorem statusOf_updateJob {jobs : Jobs} {jobId : Uuid} {verb : String}
    {allowed : JobStatus → Bool} {f : FineTuningJob → FineTuningJob} {new : JobStatus}
    (hf : ∀ job, (f job).status = new) :
    statusOf (updateJob jobs jobId verb allowed f).2 =
      setIf allowed (some new) jobId (statusOf jobs) := by
  unfold updateJob
  cases hl : jobs.lookup jobId with
  | none => simp [setIf, statusOf, hl]
  | some job =>
    have hst : statusOf jobs jobId = some job.status := by simp [statusOf, hl]
    by_cases ha : allowed job.status
    · simp only [ha, if_true]
      rw [statusOf_modify hf, setIf, setIf, hst]
      simp [ha]
    · simp [ha, setIf, hst]

theorem statusOf_deleteJob (jobs : Jobs) (jobId : Uuid) :
    statusOf (deleteJob jobs jobId).2 = setIf canDelete none jobId (statusOf jobs) := by
  unfold deleteJob
  cases hl : jobs.lookup jobId with
  | none => simp [setIf, statusOf, hl]
  | some job =>
    have hst : statusOf jobs jobId = some job.status := by simp [statusOf, hl]
    by_cases ha : canDelete job.status
    · simp only [ha, if_true]
      rw [statusOf_erase, setIf, hst]
      simp [ha]
    · simp [ha, setIf, hst]

theorem Call.statusOf_section (c : Call) (now : DateTime) (jobs : Jobs) :
    statusOf (c.section now jobs).2.1 = c.effect (statusOf jobs) := by
  cases c with
  | createJob jobId config _ _ createdAt => exact statusOf_insert ..
  | startJob jobId => exact statusOf_updateJob fun _ => rfl
  | pauseJob jobId => exact statusOf_updateJob fun _ => rfl
  | resumeJob jobId => exact statusOf_updateJob fun _ => rfl
  | cancelJob jobId => exact statusOf_updateJob fun _ => rfl
  | deleteJob jobId => exact statusOf_deleteJob ..
  | getJob | listJobs | getStats => rfl

/-- The effect of a section on the statuses. -/
theorem Proc.statusOf_section {p p' : Proc} {now : DateTime} {jobs jobs' : Jobs}
    {spawned : List Proc} (h : p.section now jobs = some (jobs', p', spawned)) :
    statusOf jobs' = p.effect (statusOf jobs) := by
  cases p with
  | call c result =>
    cases result with
    | none => cases h; exact c.statusOf_section now jobs
    | some => cases h
  | training jobId config point =>
    cases point with
    | update epoch => cases h; exact statusOf_modify_same fun _ => rfl
    | complete => cases h; exact statusOf_modify fun _ => rfl
    | check | poll => cases h; rfl
    | epochStart | pauseSleep | epochSleep | epochsDone | returned => cases h

/-- A section under a read guard changes no status. -/
theorem Proc.effect_read {p : Proc} (h : p.scope p.inner = some .read) (st : Statuses) :
    p.effect st = st := by
  cases p with
  | call c result =>
    cases result with
    | some => rfl
    | none => cases c <;> first | rfl | cases h
  | training jobId config point => cases point <;> first | rfl | cases h

/-! ## Steps -/

/-- A call that is made is refused at once or asks for its guard. -/
theorem System.step_call {s s' : System} {c : Call} (h : s.step (.call c) = some s') :
    c.fresh s.procs ∧
      ((∃ e, s' = { s with procs := s.procs ++ [.call c (some (.error e))] }) ∨
        s' = { s with
          lock := s.lock.request ⟨s.procs.length, false⟩ c.mode
          procs := s.procs ++ [.call c none] }) := by
  rw [System.step] at h
  split at h
  next hfresh =>
    split at h
    · next e _ => exact ⟨hfresh, .inl ⟨e, (Option.some.inj h).symm⟩⟩
    · exact ⟨hfresh, .inr (Option.some.inj h).symm⟩
  next => cases h

theorem System.step_wake {s s' : System} {pid : Nat} (h : s.step (.wake pid) = some s') :
    ∃ jobId config point point' inner m, s.procs[pid]? = some (.training jobId config point) ∧
      point.wake = some (point', inner, m) ∧
      s' = { s with
        lock := s.lock.request ⟨pid, inner⟩ m
        procs := s.procs.set pid (.training jobId config point') } := by
  rw [System.step] at h
  split at h
  next jobId config point hp =>
    obtain ⟨⟨point', inner, m⟩, hwake, rfl⟩ := Option.map_eq_some_iff.1 h
    exact ⟨jobId, config, point, point', inner, m, hp, hwake, rfl⟩
  next => cases h

theorem System.step_grant {s s' : System} (h : s.step .grant = some s') :
    ∃ lock, s.lock.grant = some lock ∧ s' = { s with lock } := by
  obtain ⟨lock, hgrant, rfl⟩ := Option.map_eq_some_iff.1 h
  exact ⟨lock, hgrant, rfl⟩

theorem System.step_run {s s' : System} {pid : Nat} {now : DateTime} :
    s.step (.run pid now) = some s' ↔ ∃ p jobs p' spawned, s.procs[pid]? = some p ∧
      s.lock.Holds ⟨pid, p.inner⟩ ∧ p.section now s.jobs = some (jobs, p', spawned) ∧
      s' = { jobs
             lock := s.lock.retain fun g => g.pid ≠ pid || (p'.scope g.inner).isSome
             procs := s.procs.set pid p' ++ spawned } := by
  rw [System.step, Option.bind_eq_bind, Option.bind_eq_some_iff]
  constructor
  · rintro ⟨p, hp, h⟩
    split at h
    next hh =>
      obtain ⟨⟨jobs, p', spawned⟩, hrun, h⟩ := Option.bind_eq_some_iff.1 h
      exact ⟨p, jobs, p', spawned, hp, hh, hrun, (Option.some.inj h).symm⟩
    next => cases h
  · rintro ⟨p, jobs, p', spawned, hp, hh, hrun, rfl⟩
    refine ⟨p, hp, ?_⟩
    rw [if_pos hh, hrun]
    rfl

/-- A spawned task is that of a `start_job` that takes effect, before the first epoch. -/
theorem Proc.mem_spawned {p p' q : Proc} {now : DateTime} {jobs jobs' : Jobs}
    {spawned : List Proc} (h : p.section now jobs = some (jobs', p', spawned)) (hq : q ∈ spawned) :
    ∃ jobId config, q = .training jobId config (.next config 0) ∧
      p = .call (.startJob jobId) none ∧ (statusOf jobs jobId).any canStart := by
  cases p with
  | call c result =>
    cases result with
    | some => cases h
    | none =>
      cases h
      split at hq
      next jobId config hspawn =>
        refine ⟨jobId, config, List.mem_singleton.1 hq, rfl, ?_⟩
        simp only [FineTuning.startJob, updateJob] at hspawn
        cases hl : jobs.lookup jobId with
        | none => simp [hl, Except.toOption] at hspawn
        | some job =>
          by_cases hs : canStart job.status
          · simpa [statusOf, hl] using hs
          · simp [hl, hs, Except.toOption] at hspawn
      next => cases hq
  | training jobId config point =>
    obtain ⟨_, -, h⟩ := Option.map_eq_some_iff.1 h
    cases h
    cases hq

theorem Proc.length_spawned {p p' : Proc} {now : DateTime} {jobs jobs' : Jobs}
    {spawned : List Proc} (h : p.section now jobs = some (jobs', p', spawned)) :
    spawned.length ≤ 1 := by
  cases p with
  | call c result =>
    cases result with
    | some => cases h
    | none =>
      cases h
      split
      · exact le_refl 1
      · exact Nat.zero_le 1
  | training jobId config point =>
    obtain ⟨_, -, h⟩ := Option.map_eq_some_iff.1 h
    cases h
    exact Nat.zero_le 1

end TensorGrid.FineTuning
