import TensorGrid.FineTuning.Locking

/-!
# Jobs and processes along a run

* `job_step`: what one step can do to the status of a job.
* `proc_step`, `proc_new`: what one step can do to the processes.
* `Fresh`: the id of a job is used once, so a deleted job never comes back
  (`fresh_of_reachable`, `Fresh.notPending`).
-/

namespace TensorGrid.FineTuning

open Rust

/-! ## What a step does to a job -/

/-- The process `pid`, which stands as `p`, runs its section. -/
def Runs (s : System) (l : Label) (pid : Nat) (p : Proc) : Prop :=
  ∃ now, l = .run pid now ∧ s.procs[pid]? = some p

/-- A `pause_job` or a `cancel_job` of the job takes effect. -/
def Halts (jobId : Uuid) (s : System) (l : Label) : Prop := ∃ pid,
  Runs s l pid (.call (.pauseJob jobId) none) ∧ (statusOf s.jobs jobId).any canPause ∨
    Runs s l pid (.call (.cancelJob jobId) none) ∧ (statusOf s.jobs jobId).any canCancel

/-- A `start_job` of the job takes effect. -/
def Starts (jobId : Uuid) (s : System) (l : Label) : Prop := ∃ pid,
  Runs s l pid (.call (.startJob jobId) none) ∧ (statusOf s.jobs jobId).any canStart

/-- A `start_job` or a `resume_job` of the job takes effect. -/
def Restarts (jobId : Uuid) (s : System) (l : Label) : Prop := ∃ pid,
  Runs s l pid (.call (.startJob jobId) none) ∧ (statusOf s.jobs jobId).any canStart ∨
    Runs s l pid (.call (.resumeJob jobId) none) ∧ (statusOf s.jobs jobId).any canResume

/-- A `delete_job` of the job takes effect. -/
def Deletes (jobId : Uuid) (s : System) (l : Label) : Prop := ∃ pid,
  Runs s l pid (.call (.deleteJob jobId) none) ∧ (statusOf s.jobs jobId).any canDelete

/-- The task `pid` runs its final section, which marks the job as completed. -/
def Completes (pid : Nat) (jobId : Uuid) (s : System) (l : Label) : Prop := ∃ config,
  Runs s l pid (.training jobId config .complete)

/-- The status is that of a cancelled or paused job. -/
def Halted (status : Option JobStatus) : Prop := status = some .cancelled ∨ status = some .paused

instance (status : Option JobStatus) : Decidable (Halted status) :=
  inferInstanceAs (Decidable (_ ∨ _))

/-- No `create_job` of the id is waiting for the lock or holds it. -/
def NotPending (s : System) (jobId : Uuid) : Prop :=
  ∀ p ∈ s.procs, ∀ config modelExists datasetExists createdAt,
    p ≠ .call (.createJob jobId config modelExists datasetExists createdAt) none

section
variable {s s' : System} {l : Label} {jobId : Uuid}

theorem runs_run {pid k : Nat} {now : DateTime} {p q : Proc} (hp : s.procs[pid]? = some p) :
    Runs s (.run pid now) k q ↔ k = pid ∧ p = q := by
  constructor
  · rintro ⟨_, heq, hq⟩
    cases heq
    exact ⟨rfl, Option.some.inj (hp.symm.trans hq)⟩
  · rintro ⟨rfl, rfl⟩
    exact ⟨now, rfl, hp⟩

theorem not_runs (h : ∀ pid now, l ≠ .run pid now) (pid : Nat) (p : Proc) : ¬ Runs s l pid p := by
  rintro ⟨now, heq, -⟩
  exact h pid now heq

theorem Starts.restarts (h : Starts jobId s l) : Restarts jobId s l := by
  obtain ⟨pid, hruns, hcan⟩ := h
  exact ⟨pid, .inl ⟨hruns, hcan⟩⟩

/-- A step runs a section, or leaves the jobs. -/
theorem step_section (h : s.step l = some s') :
    (∃ pid now p p' spawned, l = .run pid now ∧ s.procs[pid]? = some p ∧
      s'.procs = s.procs.set pid p' ++ spawned ∧
      p.section now s.jobs = some (s'.jobs, p', spawned)) ∨
    s'.jobs = s.jobs ∧ ∀ pid p, ¬ Runs s l pid p := by
  cases l with
  | run pid now =>
    obtain ⟨p, jobs, p', spawned, hp, -, hrun, rfl⟩ := System.step_run.1 h
    exact .inl ⟨pid, now, p, p', spawned, rfl, hp, rfl, hrun⟩
  | call c =>
    refine .inr ⟨?_, not_runs fun _ _ => Label.noConfusion⟩
    obtain ⟨-, ⟨_, rfl⟩ | rfl⟩ := System.step_call h <;> rfl
  | wake pid =>
    refine .inr ⟨?_, not_runs fun _ _ => Label.noConfusion⟩
    obtain ⟨_, _, _, _, _, _, -, -, rfl⟩ := System.step_wake h
    rfl
  | grant =>
    refine .inr ⟨?_, not_runs fun _ _ => Label.noConfusion⟩
    obtain ⟨_, -, rfl⟩ := System.step_grant h
    rfl

/-- What a step does to the statuses. -/
theorem step_jobs (h : s.step l = some s') :
    (∃ pid now p, l = .run pid now ∧ s.procs[pid]? = some p ∧
      statusOf s'.jobs = p.effect (statusOf s.jobs)) ∨
    s'.jobs = s.jobs ∧ ∀ pid p, ¬ Runs s l pid p := by
  obtain ⟨pid, now, p, p', spawned, hl, hp, -, hrun⟩ | hsame := step_section h
  · exact .inl ⟨pid, now, p, hl, hp, Proc.statusOf_section hrun⟩
  · exact .inr hsame

/-- What can undo a cancel or a pause. -/
def Undoes (jobId : Uuid) (s : System) (l : Label) : Prop :=
  Restarts jobId s l ∨ Deletes jobId s l ∨ ∃ pid, Completes pid jobId s l

/-- **What one step can do to a job** that is not being created: cancel or pause it, restart it,
delete it, complete it, or leave its status. -/
theorem job_step (h : s.step l = some s') (hnp : NotPending s jobId) :
    (Halts jobId s l ∧ ¬ Undoes jobId s l ∧ Halted (statusOf s'.jobs jobId)) ∨
    (Restarts jobId s l ∧ ¬ Halts jobId s l ∧ (∀ pid, ¬ Completes pid jobId s l) ∧
      statusOf s'.jobs jobId = some .running) ∨
    (Deletes jobId s l ∧ ¬ Halts jobId s l ∧ (∀ pid, ¬ Completes pid jobId s l) ∧
      statusOf s'.jobs jobId = none) ∨
    ((∃ pid, Completes pid jobId s l) ∧ ¬ Halts jobId s l ∧
      statusOf s'.jobs jobId = (statusOf s.jobs jobId).map fun _ => .completed) ∨
    ¬ Halts jobId s l ∧ ¬ Undoes jobId s l ∧ statusOf s'.jobs jobId = statusOf s.jobs jobId := by
  rcases step_jobs h with ⟨pid, now, p, rfl, hp, heffect⟩ | ⟨hsame, hno⟩
  · simp only [heffect, Halts, Undoes, Restarts, Deletes, Completes, runs_run hp]
    generalize statusOf s.jobs = st
    cases p with
    | training j config point =>
      cases point with
      | complete =>
        by_cases hj : j = jobId
        · subst hj
          cases hst : st j <;> simp [Proc.effect, setIf_self, hst]
        · simp [Proc.effect, setIf_ne (Ne.symm hj), hj]
      | _ => simp [Proc.effect]
    | call c result =>
    cases result with
    | some => simp [Proc.effect]
    | none =>
    cases c with
    | createJob j config modelExists datasetExists createdAt =>
      have hj : jobId ≠ j := by
        rintro rfl; exact hnp _ (List.mem_of_getElem? hp) _ _ _ _ rfl
      simp [Proc.effect, Call.effect, Function.update_of_ne hj]
    | getJob | listJobs | getStats => simp [Proc.effect, Call.effect]
    | startJob j | pauseJob j | resumeJob j | cancelJob j | deleteJob j =>
      by_cases hj : j = jobId
      · subst hj
        cases hst : st j with
        | none => simp [Proc.effect, Call.effect, setIf_self, Halted, hst]
        | some status =>
          cases status <;> simp [Proc.effect, Call.effect, setIf_self, Halted, hst, canStart,
            canPause, canResume, canCancel, canDelete]
      · simp [Proc.effect, Call.effect, setIf_ne (Ne.symm hj), hj]
  · simp [hsame, Halts, Undoes, Restarts, Deletes, Completes, hno]

/-- After a step a job is cancelled or paused if the step made it so, or if it was so before and the
step does not undo it. -/
theorem halted_step (h : s.step l = some s') (hnp : NotPending s jobId) :
    Halted (statusOf s'.jobs jobId) ↔
      Halts jobId s l ∨ Halted (statusOf s.jobs jobId) ∧ ¬ Undoes jobId s l := by
  rcases job_step h hnp with ⟨hh, hu, hb⟩ | ⟨hr, hh, -, hb⟩ | ⟨hd, hh, -, hb⟩ | ⟨hc, hh, hb⟩ |
    ⟨hh, hu, hb⟩
  · simp [hh, hb]
  · simp [hh, hb, Halted, Undoes, hr]
  · simp [hh, hb, Halted, Undoes, hd]
  · cases hst : statusOf s.jobs jobId <;> simp [hh, hb, Halted, Undoes, hc, hst]
  · simp [hh, hu, hb]

theorem not_halted_of_undoes (h : s.step l = some s') (hnp : NotPending s jobId)
    (hu : Undoes jobId s l) : ¬ Halted (statusOf s'.jobs jobId) := by
  rw [halted_step h hnp]
  rintro (hh | ⟨-, hno⟩)
  · rcases job_step h hnp with ⟨-, hno, -⟩ | ⟨-, hno, -⟩ | ⟨-, hno, -⟩ | ⟨-, hno, -⟩ | ⟨hno, -⟩
    · exact hno hu
    all_goals exact hno hh
  · exact hno hu

/-- Without a restart, a cancelled, paused or deleted job stays so, unless a task completes it. -/
theorem stays_halted (h : s.step l = some s') (hnp : NotPending s jobId)
    (hno : ¬ Restarts jobId s l)
    (hs : Halted (statusOf s.jobs jobId) ∨ statusOf s.jobs jobId = none)
    (hc : Halted (statusOf s.jobs jobId) → statusOf s'.jobs jobId ≠ some .completed) :
    Halted (statusOf s'.jobs jobId) ∨ statusOf s'.jobs jobId = none := by
  rcases job_step h hnp with ⟨-, -, hb⟩ | ⟨hr, -⟩ | ⟨-, -, -, hb⟩ | ⟨-, -, hb⟩ | ⟨-, -, hb⟩
  · exact .inl hb
  · exact absurd hr hno
  · exact .inr hb
  · rcases hs with hs | hs
    · refine absurd ?_ (hc hs)
      rcases hs with hs | hs <;> rw [hb, hs] <;> rfl
    · exact .inr (by rw [hb, hs]; rfl)
  · rwa [hb]

/-- Only the final section of a task makes a cancelled or paused job a completed one. -/
theorem completed_step (h : s.step l = some s') (hnp : NotPending s jobId)
    (hs : Halted (statusOf s.jobs jobId)) :
    statusOf s'.jobs jobId = some .completed ↔ ∃ pid, Completes pid jobId s l := by
  rcases job_step h hnp with ⟨-, hu, hb⟩ | ⟨-, -, hc, hb⟩ | ⟨-, -, hc, hb⟩ | ⟨hc, -, hb⟩ |
    ⟨-, hu, hb⟩
  · have hnc : ¬ ∃ pid, Completes pid jobId s l := fun hc => hu (.inr (.inr hc))
    rcases hb with hb | hb <;> simp [hb, hnc]
  · simp [hb, hc]
  · simp [hb, hc]
  · rcases hs with hs | hs <;> simp [hb, hs, hc]
  · have hnc : ¬ ∃ pid, Completes pid jobId s l := fun hc => hu (.inr (.inr hc))
    rcases hs with hs | hs <;> simp [hb, hs, hnc]

end

/-! ## How processes evolve -/

theorem Proc.section_training {p : Proc} {now : DateTime} {jobs jobs' : Jobs}
    {spawned : List Proc} {jobId : Uuid} {config : FineTuningConfig} {point' : Point}
    (h : p.section now jobs = some (jobs', .training jobId config point', spawned)) :
    ∃ point, p = .training jobId config point ∧
      point.section jobId config now jobs = some (jobs', point') := by
  cases p with
  | call c result => cases result <;> simp [Proc.section] at h
  | training j config' point =>
    obtain ⟨⟨jobs₁, point₁⟩, hpt, heq⟩ := Option.map_eq_some_iff.1 h
    simp only [Prod.mk.injEq, Proc.training.injEq] at heq
    obtain ⟨rfl, ⟨rfl, rfl, rfl⟩, -⟩ := heq
    exact ⟨point, rfl, hpt⟩

section
variable {s s' : System} {l : Label}

/-- A process stays, wakes up or runs its section. -/
theorem proc_step (h : s.step l = some s') {k : Nat} {p : Proc} (hp : s.procs[k]? = some p) :
    ∃ p', s'.procs[k]? = some p' ∧ (p' = p ∨
      (∃ jobId config point point' inner m, p = .training jobId config point ∧
        point.wake = some (point', inner, m) ∧ p' = .training jobId config point' ∧
        s'.jobs = s.jobs) ∨
      ∃ now spawned, l = .run k now ∧ p.section now s.jobs = some (s'.jobs, p', spawned)) := by
  cases l with
  | call c =>
    obtain ⟨-, ⟨_, rfl⟩ | rfl⟩ := System.step_call h <;>
      exact ⟨p, getElem?_append_some hp, .inl rfl⟩
  | wake pid =>
    obtain ⟨jobId, config, point, point', inner, m, hpid, hwake, rfl⟩ := System.step_wake h
    by_cases hk : k = pid
    · subst hk
      cases hp.symm.trans hpid
      exact ⟨_, List.getElem?_set_self (List.getElem?_eq_some_iff.1 hp).1,
        .inr (.inl ⟨_, _, _, _, _, _, rfl, hwake, rfl, rfl⟩)⟩
    · exact ⟨p, by rw [List.getElem?_set_ne (Ne.symm hk), hp], .inl rfl⟩
  | grant =>
    obtain ⟨_, -, rfl⟩ := System.step_grant h
    exact ⟨p, hp, .inl rfl⟩
  | run pid now =>
    obtain ⟨q, jobs, q', spawned, hq, -, hrun, rfl⟩ := System.step_run.1 h
    by_cases hk : k = pid
    · subst hk
      cases hp.symm.trans hq
      exact ⟨q', getElem?_run_self hp, .inr (.inr ⟨now, spawned, rfl, hrun⟩)⟩
    · exact ⟨p, getElem?_run_ne hk hp, .inl rfl⟩

/-- A new process is a call, or the task of a `start_job` that takes effect. -/
theorem proc_new (h : s.step l = some s') {k : Nat} {p' : Proc} (hp' : s'.procs[k]? = some p') :
    (∃ p, s.procs[k]? = some p) ∨
    (∃ c r, p' = .call c r ∧ c.fresh s.procs ∧ k = s.procs.length) ∨
    ∃ jobId config, p' = .training jobId config (.next config 0) ∧ Starts jobId s l ∧
      k = s.procs.length := by
  cases l with
  | call c =>
    have hnew {q : Proc} (hk : (s.procs ++ [q])[k]? = some p') :
        (∃ p, s.procs[k]? = some p) ∨ p' = q ∧ k = s.procs.length := by
      have hlt := (List.getElem?_eq_some_iff.1 hk).1
      rw [List.length_append, List.length_singleton] at hlt
      rcases getElem?_append_cases hk with hk | hmem
      · exact .inl ⟨_, hk⟩
      · by_cases hk' : k < s.procs.length
        · exact .inl ⟨_, List.getElem?_eq_getElem hk'⟩
        · exact .inr ⟨List.mem_singleton.1 hmem, by omega⟩
    obtain ⟨hfresh, ⟨_, rfl⟩ | rfl⟩ := System.step_call h <;>
      rcases hnew hp' with hold | ⟨hq, hk⟩
    · exact .inl hold
    · exact .inr (.inl ⟨_, _, hq, hfresh, hk⟩)
    · exact .inl hold
    · exact .inr (.inl ⟨_, _, hq, hfresh, hk⟩)
  | wake pid =>
    obtain ⟨_, _, _, _, _, _, -, -, rfl⟩ := System.step_wake h
    have hlt := (List.getElem?_eq_some_iff.1 hp').1
    rw [List.length_set] at hlt
    exact .inl ⟨_, List.getElem?_eq_getElem hlt⟩
  | grant =>
    obtain ⟨_, -, rfl⟩ := System.step_grant h
    exact .inl ⟨p', hp'⟩
  | run pid now =>
    obtain ⟨q, jobs, q', spawned, hq, -, hrun, rfl⟩ := System.step_run.1 h
    by_cases hk : k < s.procs.length
    · exact .inl ⟨_, List.getElem?_eq_getElem hk⟩
    · have hlt := (List.getElem?_eq_some_iff.1 hp').1
      rw [List.length_append, List.length_set] at hlt
      have hlen := Proc.length_spawned hrun
      rcases getElem?_run_cases hq hp' with ⟨rfl, -⟩ | ⟨-, hold⟩ | hmem
      · exact .inl ⟨q, hq⟩
      · exact .inl ⟨p', hold⟩
      · obtain ⟨jobId, config, rfl, rfl, hstart⟩ := Proc.mem_spawned hrun hmem
        exact .inr (.inr ⟨jobId, config, rfl, ⟨pid, ⟨now, rfl, hq⟩, hstart⟩, by omega⟩)

end

/-! ## Job ids are used once -/

/-- The id a `create_job` made. -/
def Call.creates : Call → Option Uuid
  | .createJob jobId _ _ _ _ => some jobId
  | _ => none

def Proc.creates : Proc → Option Uuid
  | .call c _ => c.creates
  | .training _ _ _ => none

/-- The `create_job` that made the id has returned. -/
def Created (s : System) (jobId : Uuid) : Prop :=
  ∃ (k : Nat) (c : Call) (r : _), s.procs[k]? = some (.call c (some r)) ∧
    c.creates = some jobId

/-- No two `create_job` calls make the same id, and a job or a task has an id whose `create_job` has
returned. -/
structure Fresh (s : System) : Prop where
  unique : ∀ (k k' : Nat) (p p' : Proc) (jobId : Uuid), s.procs[k]? = some p → s.procs[k']? = some p' →
    p.creates = some jobId → p'.creates = some jobId → k = k'
  job : ∀ jobId, statusOf s.jobs jobId ≠ none → Created s jobId
  training : ∀ (k : Nat) jobId config point, s.procs[k]? = some (.training jobId config point) →
    Created s jobId

theorem Call.creates_fresh {c : Call} {procs : List Proc} (h : c.fresh procs) {jobId : Uuid}
    (hc : c.creates = some jobId) {p : Proc} (hp : p ∈ procs) : p.creates ≠ some jobId := by
  cases c <;> cases hc
  have hp := List.all_eq_true.1 h p hp
  cases p with
  | training => simp [Proc.creates]
  | call c r => cases c <;> simp_all [Proc.creates, Call.creates]

theorem Proc.creates_section {p p' : Proc} {now : DateTime} {jobs jobs' : Jobs}
    {spawned : List Proc} (h : p.section now jobs = some (jobs', p', spawned)) :
    p'.creates = p.creates := by
  cases p with
  | call c result => cases result <;> cases h; rfl
  | training jobId config point =>
    obtain ⟨_, -, h⟩ := Option.map_eq_some_iff.1 h
    cases h
    rfl

/-- Only `create_job` makes a job. -/
theorem Proc.effect_none {p : Proc} {st : Statuses} {jobId : Uuid} (hst : st jobId = none)
    (h : p.effect st jobId ≠ none) : ∃ c, p = .call c none ∧ c.creates = some jobId := by
  have hset (allowed : JobStatus → Bool) (new : Option JobStatus) (j : Uuid) :
      setIf allowed new j st jobId = none := by
    by_cases hj : jobId = j
    · subst hj; simp [setIf_self, hst]
    · rw [setIf_ne hj, hst]
  cases p with
  | training j config point => cases point <;> simp_all [Proc.effect]
  | call c result =>
  cases result with
  | some => exact absurd hst h
  | none =>
  cases c with
  | createJob j =>
    by_cases hj : jobId = j
    · subst hj; exact ⟨_, rfl, rfl⟩
    · exact absurd hst (by simpa [Proc.effect, Call.effect, hj] using h)
  | _ => simp_all [Proc.effect, Call.effect]

theorem Created.step {s s' : System} {l : Label} (h : s.step l = some s') {jobId : Uuid}
    (hc : Created s jobId) : Created s' jobId := by
  obtain ⟨k, c, r, hk, hcr⟩ := hc
  obtain ⟨p', hp', rfl | ⟨_, _, _, _, _, _, heq, -⟩ | ⟨_, _, -, hrun⟩⟩ := proc_step h hk
  · exact ⟨k, c, r, hp', hcr⟩
  · cases heq
  · cases hrun

theorem fresh_init : Fresh .init :=
  ⟨fun _ _ _ _ _ h => (by cases h), fun _ h => absurd rfl h, fun _ _ _ _ h => (by cases h)⟩

theorem Fresh.step (s : System) (l : Label) (s' : System) (h : Fresh s)
    (hstep : s.step l = some s') : Fresh s' := by
  have hcreates (k : Nat) (p p' : Proc) (hp : s.procs[k]? = some p)
      (hp' : s'.procs[k]? = some p') : p'.creates = p.creates := by
    obtain ⟨q, hq, rfl | ⟨_, _, _, _, _, _, rfl, -, rfl, -⟩ | ⟨_, _, -, hrun⟩⟩ := proc_step hstep hp
    all_goals cases hp'.symm.trans hq
    · rfl
    · rfl
    · exact Proc.creates_section hrun
  -- a new process that makes an id makes one no old process makes
  have hnew (k k' : Nat) (p p' : Proc) (jobId : Uuid) (hp : s'.procs[k]? = some p)
      (hp' : s'.procs[k']? = some p') (hc : p.creates = some jobId)
      (hc' : p'.creates = some jobId) (hk : ∃ q, s.procs[k]? = some q) : k = k' := by
    obtain ⟨q, hq⟩ := hk
    rcases proc_new hstep hp' with ⟨q', hq'⟩ | ⟨c, r, rfl, hfresh, -⟩ | ⟨_, _, rfl, -⟩
    · exact h.unique k k' q q' jobId hq hq' (hcreates k q p hq hp ▸ hc)
        (hcreates k' q' p' hq' hp' ▸ hc')
    · exact absurd (hcreates k q p hq hp ▸ hc)
        (Call.creates_fresh hfresh hc' (List.mem_of_getElem? hq))
    · cases hc'
  refine ⟨fun k k' p p' jobId hp hp' hc hc' => ?_, fun jobId hst => ?_,
    fun k jobId config point hp => ?_⟩
  · rcases proc_new hstep hp with hold | ⟨c, r, rfl, -, hk⟩ | ⟨_, _, rfl, -⟩
    · exact hnew k k' p p' jobId hp hp' hc hc' hold
    · rcases proc_new hstep hp' with hold' | ⟨c', r', rfl, -, hk'⟩ | ⟨_, _, rfl, -⟩
      · exact (hnew k' k _ _ jobId hp' hp hc' hc hold').symm
      · rw [hk, hk']
      · cases hc'
    · cases hc
  · by_cases hold : statusOf s.jobs jobId = none
    · rcases step_jobs hstep with ⟨pid, now, p, rfl, hp, heffect⟩ | ⟨hsame, -⟩
      · rw [heffect] at hst
        obtain ⟨c, rfl, hc⟩ := Proc.effect_none hold hst
        obtain ⟨q, jobs, q', spawned, hq, -, hrun, rfl⟩ := System.step_run.1 hstep
        cases hp.symm.trans hq
        cases hrun
        exact ⟨pid, c, _, getElem?_run_self hp, hc⟩
      · exact absurd (hsame ▸ hold) hst
    · exact (h.job jobId hold).step hstep
  · rcases proc_new hstep hp with ⟨p, hold⟩ | ⟨_, _, heq, -⟩ | ⟨_, _, heq, hr⟩
    · have hp' := proc_step hstep hold
      obtain ⟨q, hq, rfl | ⟨_, _, _, _, _, _, rfl, -, rfl, -⟩ | ⟨_, _, -, hrun⟩⟩ := hp'
      all_goals cases hp.symm.trans hq
      · exact (h.training k jobId config point hold).step hstep
      · exact (h.training k _ _ _ hold).step hstep
      · obtain ⟨_, rfl, -⟩ := Proc.section_training hrun
        exact (h.training k _ _ _ hold).step hstep
    · cases heq
    · cases heq
      refine (h.job _ fun hnone => ?_).step hstep
      obtain ⟨⟨pid, -, hcan⟩, -⟩ := hr
      simp [hnone] at hcan

theorem Fresh.notPending {s : System} (h : Fresh s) {jobId : Uuid} (hc : Created s jobId) :
    NotPending s jobId := by
  rintro p hp config modelExists datasetExists createdAt rfl
  obtain ⟨k, hk⟩ := List.mem_iff_getElem?.1 hp
  obtain ⟨k', c, r, hk', hcr⟩ := hc
  cases h.unique k k' _ _ jobId hk hk' rfl hcr
  cases hk.symm.trans hk'

theorem fresh_of_reachable {s : System} (h : Lts.Reachable System.step .init s) : Fresh s :=
  h.inv fresh_init Fresh.step

end TensorGrid.FineTuning
