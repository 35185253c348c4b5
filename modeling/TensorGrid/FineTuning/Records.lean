import TensorGrid.FineTuning.Trainers

/-!
# The records of jobs

What holds of every job record, whatever calls and tasks are interleaved and however many tasks
train the job: its id is its key, its epoch is one of its configuration, its loss is that of its
epoch, it is completed exactly if it has a completion time, and it has never failed. Every answer
of `get_job`, `list_jobs` and `get_stats` shows such records.

* `Records`: a property of each record, kept by each section (`records_section`).
* `wellFormed_of_reachable`: every record and every answer of a reachable state.
-/

namespace TensorGrid.FineTuning

open Rust

/-! ## Properties of each record -/

/-- Every job has the property, under its id. -/
def Records (P : Uuid → FineTuningJob → Prop) (jobs : Jobs) : Prop :=
  ∀ jobId job, jobs.lookup jobId = some job → P jobId job

/-- The record that `create_job` inserts. -/
def newJob (jobId : Uuid) (config : FineTuningConfig) (createdAt : DateTime) : FineTuningJob :=
  { id := jobId, config, status := .pending, progress := 0.0, epoch := 0
    totalEpochs := config.epochs, loss := 0.0, createdAt, startedAt := none, completedAt := none
    error := none }

/-- The writes of the calls to a record keep the property. -/
structure Kept (P : Uuid → FineTuningJob → Prop) : Prop where
  start : ∀ jobId job now, P jobId job → canStart job.status →
    P jobId { job with status := .running, startedAt := some now }
  pause : ∀ jobId job, P jobId job → canPause job.status → P jobId { job with status := .paused }
  resume : ∀ jobId job, P jobId job → canResume job.status → P jobId { job with status := .running }
  cancel : ∀ jobId job, P jobId job → canCancel job.status →
    P jobId { job with status := .cancelled }

section
variable {P : Uuid → FineTuningJob → Prop} {jobs : Jobs}

theorem Records.insert (h : Records P jobs) {k : Uuid} {job : FineTuningJob} (hnew : P k job) :
    Records P (jobs.insert k job) := by
  intro jobId job' hjob'
  by_cases hk : jobId = k
  · subst hk
    rw [AList.lookup_insert] at hjob'
    cases hjob'
    exact hnew
  · rw [AList.lookup_insert_ne hk] at hjob'
    exact h jobId job' hjob'

theorem Records.updateJob (h : Records P jobs) {k : Uuid} {verb : String}
    {allowed : JobStatus → Bool} {f : FineTuningJob → FineTuningJob}
    (hf : ∀ job, P k job → allowed job.status → P k (f job)) :
    Records P (updateJob jobs k verb allowed f).2 := by
  intro jobId job' hjob'
  rw [lookup_updateJob] at hjob'
  obtain ⟨job, hjob, rfl⟩ := Option.map_eq_some_iff.1 hjob'
  split
  · next hallowed =>
    obtain ⟨rfl, hallowed⟩ := hallowed
    exact hf job (h jobId job hjob) hallowed
  · exact h jobId job hjob

theorem Records.modify (h : Records P jobs) {k : Uuid} {f : FineTuningJob → FineTuningJob}
    (hf : ∀ job, jobs.lookup k = some job → P k (f job)) : Records P (jobs.modify k f) := by
  intro jobId job' hjob'
  obtain ⟨job, hjob, rfl⟩ := HashMap.lookup_modify_eq_some hjob'
  split
  · next hk =>
    subst hk
    exact hf job hjob
  · exact h jobId job hjob

/-- A section keeps a property of the records that each of its writes keeps. -/
theorem records_section (h : Records P jobs) (hkept : Kept P) {p p' : Proc} {now : DateTime}
    {jobs' : Jobs} {spawned : List Proc} (hp : p.section now jobs = some (jobs', p', spawned))
    (hcreate : ∀ jobId config modelExists datasetExists createdAt,
      p = .call (.createJob jobId config modelExists datasetExists createdAt) none →
        P jobId (newJob jobId config createdAt))
    (hupdate : ∀ jobId config epoch, p = .training jobId config (.update epoch) → ∀ job,
      jobs.lookup jobId = some job → P jobId (updateProgress config epoch job))
    (hcomplete : ∀ jobId config, p = .training jobId config .complete → ∀ job,
      jobs.lookup jobId = some job → P jobId (markCompleted now job)) : Records P jobs' := by
  cases p with
  | call c result =>
    cases result with
    | some => cases hp
    | none =>
    cases c with
    | createJob jobId config modelExists datasetExists createdAt =>
      cases hp
      exact h.insert (hcreate jobId config modelExists datasetExists createdAt rfl)
    | startJob jobId =>
      cases hp
      exact h.updateJob fun job hjob => hkept.start jobId job now hjob
    | pauseJob jobId =>
      cases hp
      exact h.updateJob fun job hjob => hkept.pause jobId job hjob
    | resumeJob jobId =>
      cases hp
      exact h.updateJob fun job hjob => hkept.resume jobId job hjob
    | cancelJob jobId =>
      cases hp
      exact h.updateJob fun job hjob => hkept.cancel jobId job hjob
    | deleteJob jobId =>
      cases hp
      exact fun k job hjob => h k job (lookup_deleteJob hjob)
    | getJob | listJobs | getStats =>
      cases hp
      exact h
  | training jobId config point =>
    obtain ⟨⟨jobs₁, point'⟩, hpoint, heq⟩ := Option.map_eq_some_iff.1 hp
    cases heq
    cases point with
    | check | poll =>
      cases hpoint
      exact h
    | update epoch =>
      cases hpoint
      exact h.modify (hupdate jobId config epoch rfl)
    | complete =>
      cases hpoint
      exact h.modify (hcomplete jobId config rfl)
    | epochStart | pauseSleep | epochSleep | epochsDone | returned => cases hpoint

end

/-! ## Well-formed records -/

/-- A record of the service. -/
structure WellFormed (jobId : Uuid) (job : FineTuningJob) : Prop where
  id : job.id = jobId
  totalEpochs : job.totalEpochs = job.config.epochs
  epoch : job.epoch ≤ job.totalEpochs
  error : job.status ≠ .failed ∧ job.error = none
  pending : job.status = .pending → job.startedAt = none ∧ job.epoch = 0
  started : job.startedAt = none → job.status = .pending ∨ job.status = .cancelled
  completed : job.status = .completed ↔ job.completedAt.isSome
  loss : job.loss = if job.epoch = 0 then 0.0 else (updateProgress job.config job.epoch job).loss
  progress : job.progress = 100.0 ∧ job.status = .completed ∨ job.progress =
    if job.epoch = 0 then 0.0 else (updateProgress job.config job.epoch job).progress

/-- The job, if it is there, was started with this configuration. -/
def StartedWith (jobId : Uuid) (config : FineTuningConfig) (k : Uuid) (job : FineTuningJob) : Prop :=
  k = jobId → job.config = config ∧ job.startedAt.isSome

theorem wellFormed_newJob (jobId : Uuid) (config : FineTuningConfig) (createdAt : DateTime) :
    WellFormed jobId (newJob jobId config createdAt) where
  id := rfl
  totalEpochs := rfl
  epoch := UInt32.zero_le
  error := ⟨nofun, rfl⟩
  pending _ := ⟨rfl, rfl⟩
  started _ := .inl rfl
  completed := by simp [newJob]
  loss := rfl
  progress := .inr rfl

/-- A call gives a job that is not completed another status. -/
theorem WellFormed.withStatus {jobId : Uuid} {job : FineTuningJob} (h : WellFormed jobId job)
    (hopen : job.status ≠ .completed) {status : JobStatus} {startedAt : Option DateTime}
    (hstatus : status = .running ∨ status = .paused ∨ status = .cancelled)
    (hstarted : startedAt = none → status = .cancelled) :
    WellFormed jobId { job with status := status, startedAt := startedAt } where
  id := h.id
  totalEpochs := h.totalEpochs
  epoch := h.epoch
  error := ⟨by rcases hstatus with rfl | rfl | rfl <;> nofun, h.error.2⟩
  pending heq := by rcases hstatus with rfl | rfl | rfl <;> cases heq
  started heq := .inr (hstarted heq)
  completed := by
    have hnone : ¬ job.completedAt.isSome := mt h.completed.2 hopen
    rcases hstatus with rfl | rfl | rfl <;> simpa using hnone
  loss := h.loss
  progress := .inr (h.progress.resolve_left fun hdone => hopen hdone.2)

theorem kept_wellFormed : Kept WellFormed where
  start jobId job now h hcan := by
    refine h.withStatus (fun heq => ?_) (.inl rfl) nofun
    rw [heq] at hcan
    cases hcan
  pause jobId job h hcan := by
    have hrunning : job.status = .running := of_decide_eq_true hcan
    refine h.withStatus (by rw [hrunning]; nofun) (.inr (.inl rfl)) fun heq => ?_
    obtain hstatus | hstatus := h.started heq <;> cases hrunning.symm.trans hstatus
  resume jobId job h hcan := by
    have hpaused : job.status = .paused := of_decide_eq_true hcan
    refine h.withStatus (by rw [hpaused]; nofun) (.inl rfl) fun heq => ?_
    obtain hstatus | hstatus := h.started heq <;> cases hpaused.symm.trans hstatus
  cancel jobId job h hcan := by
    refine h.withStatus (fun heq => ?_) (.inr (.inr rfl)) fun _ => rfl
    rw [heq] at hcan
    cases hcan

theorem WellFormed.updateProgress {jobId : Uuid} {job : FineTuningJob} (h : WellFormed jobId job)
    {epoch : UInt32} (hstarted : job.startedAt.isSome) (hpos : epoch ≠ 0)
    (hle : epoch ≤ job.config.epochs) :
    WellFormed jobId (updateProgress job.config epoch job) where
  id := h.id
  totalEpochs := h.totalEpochs
  epoch := h.totalEpochs ▸ hle
  error := h.error
  pending heq := by
    have hnone : job.startedAt = none := (h.pending heq).1
    rw [hnone] at hstarted
    cases hstarted
  started := h.started
  completed := h.completed
  loss := (if_neg hpos).symm
  progress := .inr (if_neg hpos).symm

theorem WellFormed.markCompleted {jobId : Uuid} {job : FineTuningJob} (h : WellFormed jobId job)
    (hstarted : job.startedAt.isSome) (now : DateTime) :
    WellFormed jobId (markCompleted now job) where
  id := h.id
  totalEpochs := h.totalEpochs
  epoch := h.epoch
  error := ⟨nofun, h.error.2⟩
  pending := nofun
  started heq := by
    have hnone : job.startedAt = none := heq
    rw [hnone] at hstarted
    cases hstarted
  completed := by simp [FineTuning.markCompleted]
  loss := h.loss
  progress := .inl ⟨rfl, rfl⟩

theorem kept_startedWith (jobId : Uuid) (config : FineTuningConfig) :
    Kept (StartedWith jobId config) where
  start _ _ _ h _ hk := ⟨(h hk).1, rfl⟩
  pause _ _ h _ := h
  resume _ _ h _ := h
  cancel _ _ h _ := h

/-! ## Answers -/

/-- What a call shows of the jobs. -/
def Shows : Call → Response → Prop
  | .getJob jobId, .job job => WellFormed jobId job
  | .listJobs, .jobs jobs => (jobs.map (·.id)).Nodup ∧ ∀ job ∈ jobs, WellFormed job.id job
  | .getStats, .stats stats =>
    stats.failedJobs = 0 ∧ stats.runningJobs + stats.completedJobs ≤ stats.totalJobs
  | _, _ => True

theorem mem_listJobs {jobs : Jobs} {job : FineTuningJob} :
    job ∈ listJobs jobs ↔ ∃ jobId, jobs.lookup jobId = some job := by
  simp only [listJobs, List.mem_map, ← HashMap.mem_entries_iff]
  constructor
  · rintro ⟨⟨jobId, _⟩, hmem, rfl⟩
    exact ⟨jobId, hmem⟩
  · rintro ⟨jobId, hmem⟩
    exact ⟨_, hmem, rfl⟩

/-- The jobs are listed once each. -/
theorem Records.nodup_listJobs {jobs : Jobs} (h : Records WellFormed jobs) :
    ((listJobs jobs).map (·.id)).Nodup := by
  have hkeys : (listJobs jobs).map (·.id) = jobs.keys := by
    rw [listJobs, List.map_map]
    refine List.map_congr_left fun e he => ?_
    exact (h e.1 e.2 (HashMap.mem_entries_iff.1 he)).id
  rw [hkeys]
  exact jobs.keys_nodup

theorem Records.stats {jobs : Jobs} (h : Records WellFormed jobs) :
    (getStats jobs).failedJobs = 0 ∧
      (getStats jobs).runningJobs + (getStats jobs).completedJobs ≤ (getStats jobs).totalJobs := by
  constructor
  · refine List.countP_eq_zero.2 fun job hjob hfailed => ?_
    obtain ⟨jobId, hlookup⟩ := mem_listJobs.1 hjob
    exact (h jobId job hlookup).error.1 (of_decide_eq_true hfailed)
  · have htotal : (getStats jobs).totalJobs = (listJobs jobs).length := (List.length_map ..).symm
    rw [htotal, List.length_eq_countP_add_countP (·.status = .running)]
    refine Nat.add_le_add_left (List.countP_mono_left fun job _ hcompleted => ?_) _
    have hstatus : job.status = .completed := of_decide_eq_true hcompleted
    simp [hstatus]

theorem Records.shows {jobs : Jobs} (h : Records WellFormed jobs) {c : Call} {now : DateTime}
    {response : Response} (hc : (c.section now jobs).1 = .ok response) : Shows c response := by
  cases c with
  | getJob jobId =>
    simp only [Call.section, getJob] at hc
    cases hjob : jobs.lookup jobId with
    | none =>
      rw [hjob] at hc
      cases hc
    | some job =>
      rw [hjob] at hc
      cases hc
      exact h jobId job hjob
  | listJobs =>
    cases hc
    refine ⟨h.nodup_listJobs, fun job hjob => ?_⟩
    obtain ⟨jobId, hlookup⟩ := mem_listJobs.1 hjob
    exact (h jobId job hlookup).id ▸ h jobId job hlookup
  | getStats =>
    cases hc
    exact h.stats
  | _ => trivial

/-! ## The invariant -/

/-- The records, the tasks and the answers. -/
structure Sound (s : System) : Prop where
  records : Records WellFormed s.jobs
  started : ∀ (k : Nat) jobId config point, s.procs[k]? = some (.training jobId config point) →
    Records (StartedWith jobId config) s.jobs
  epochs : ∀ (k : Nat) jobId config (point : Point) epoch,
    s.procs[k]? = some (.training jobId config point) → point.epoch? = some epoch →
      epoch ≠ 0 ∧ epoch ≤ config.epochs
  answers : ∀ (k : Nat) c response, s.procs[k]? = some (.call c (some (.ok response))) →
    Shows c response

/-- The next epoch of a task is one of its configuration. -/
theorem epochs_next {config : FineTuningConfig} {epoch epoch' : UInt32}
    (h : (Point.next config epoch).epoch? = some epoch') :
    epoch' ≠ 0 ∧ epoch' ≤ config.epochs := by
  unfold Point.next at h
  split at h
  · next hlt =>
    cases h
    have hlt : epoch.toNat < config.epochs.toNat := hlt
    have hsize := config.epochs.toNat_lt
    have hnext : (epoch + 1).toNat = epoch.toNat + 1 := by
      rw [UInt32.toNat_add, UInt32.toNat_one, Nat.mod_eq_of_lt (by omega)]
    refine ⟨fun hzero => ?_, ?_⟩
    · rw [hzero] at hnext
      cases hnext
    · rw [UInt32.le_iff_toNat_le, hnext]
      exact hlt
  · cases h

section
variable {s s' : System} {l : Label} {jobId : Uuid} {config : FineTuningConfig}

theorem Point.Moves.epochs {point point' : Point} (h : point.Moves jobId config s s' point')
    (hepochs : ∀ epoch, point.epoch? = some epoch → epoch ≠ 0 ∧ epoch ≤ config.epochs)
    {epoch : UInt32} (hepoch : point'.epoch? = some epoch) : epoch ≠ 0 ∧ epoch ≤ config.epochs := by
  rcases h with rfl | ⟨_, _, hw⟩ | ⟨now, hr⟩
  · exact hepochs epoch hepoch
  · cases point <;> cases hw <;> exact hepochs epoch hepoch
  · cases point with
    | check e | poll e =>
      obtain ⟨-, rfl⟩ := Prod.mk.inj (Option.some.inj hr)
      refine hepochs epoch ?_
      revert hepoch
      split <;> rintro ⟨⟩ <;> rfl
    | update e =>
      obtain ⟨-, rfl⟩ := Prod.mk.inj (Option.some.inj hr)
      exact epochs_next hepoch
    | complete =>
      obtain ⟨-, rfl⟩ := Prod.mk.inj (Option.some.inj hr)
      cases hepoch
    | _ => cases hr

/-- A start spawns a task with the configuration of its job, which is started. -/
theorem startedWith_spawned {p p' : Proc} {now : DateTime} {jobs jobs' : Jobs}
    {spawned : List Proc} {point : Point} (hp : p.section now jobs = some (jobs', p', spawned))
    (hmem : .training jobId config point ∈ spawned) :
    Records (StartedWith jobId config) jobs' := by
  obtain ⟨_, _, heq, rfl, hcan⟩ := Proc.mem_spawned hp hmem
  cases heq
  cases hp
  obtain ⟨job, hjob⟩ : ∃ job, jobs.lookup jobId = some job := by
    cases hjob : jobs.lookup jobId with
    | none =>
      rw [statusOf, hjob] at hcan
      cases hcan
    | some job => exact ⟨job, rfl⟩
  have hallowed : canStart job.status := by simpa [statusOf_eq hjob] using hcan
  simp only [hjob, hallowed, if_true, Except.toOption, Option.map_some] at hmem
  cases List.mem_singleton.1 hmem
  intro k job' hjob' hk
  subst hk
  simp only [hjob, hallowed, if_true, HashMap.lookup_modify, Option.map_some,
    Option.some.injEq] at hjob'
  subst hjob'
  exact ⟨rfl, rfl⟩

theorem started_step (hfresh : Fresh s) (h : Sound s) (hstep : s.step l = some s') {k : Nat}
    {point : Point} (hk : s'.procs[k]? = some (.training jobId config point)) :
    Records (StartedWith jobId config) s'.jobs := by
  obtain ⟨old, hold, -⟩ | ⟨hnone, ⟨pid, ⟨now, rfl, -⟩, -⟩, -⟩ := training_origin hstep hk
  · have hstarted := h.started k jobId config old hold
    obtain ⟨pid, now, p, p', spawned, rfl, hp, -, hrun⟩ | ⟨hsame, -⟩ := step_section hstep
    · refine records_section hstarted (kept_startedWith jobId config) hrun ?_ ?_ ?_
      · rintro jobId' _ _ _ _ rfl rfl
        have hcreated := hfresh.training k jobId' config old hold
        exact absurd rfl (hfresh.notPending hcreated _ (List.mem_of_getElem? hp) _ _ _ _)
      · exact fun jobId' _ _ _ job hjob => hstarted jobId' job hjob
      · exact fun jobId' _ _ job hjob => hstarted jobId' job hjob
    · rw [hsame]
      exact hstarted
  · obtain ⟨p, jobs, p', spawned, hp, -, hrun, rfl⟩ := System.step_run.1 hstep
    obtain ⟨rfl, -⟩ | ⟨-, hold⟩ | hmem := getElem?_run_cases hp hk
    · cases hnone.symm.trans hp
    · cases hnone.symm.trans hold
    · exact startedWith_spawned hrun hmem

theorem records_step (h : Sound s) (hstep : s.step l = some s') : Records WellFormed s'.jobs := by
  obtain ⟨pid, now, p, p', spawned, rfl, hp, -, hrun⟩ | ⟨hsame, -⟩ := step_section hstep
  · refine records_section h.records kept_wellFormed hrun
      (fun jobId config _ _ createdAt _ => wellFormed_newJob jobId config createdAt) ?_ ?_
    · rintro jobId config epoch rfl job hjob
      obtain ⟨rfl, hstarted⟩ := h.started pid jobId config _ hp jobId job hjob rfl
      obtain ⟨hpos, hle⟩ := h.epochs pid jobId _ _ epoch hp rfl
      exact (h.records jobId job hjob).updateProgress hstarted hpos hle
    · rintro jobId config rfl job hjob
      obtain ⟨-, hstarted⟩ := h.started pid jobId config _ hp jobId job hjob rfl
      exact (h.records jobId job hjob).markCompleted hstarted now
  · rw [hsame]
    exact h.records

theorem answers_step (h : Sound s) (hstep : s.step l = some s') {k : Nat} {c : Call}
    {response : Response} (hk : s'.procs[k]? = some (.call c (some (.ok response)))) :
    Shows c response := by
  cases l with
  | call c' =>
    obtain ⟨-, ⟨e, rfl⟩ | rfl⟩ := System.step_call hstep
    all_goals
      obtain hold | hmem := getElem?_append_cases hk
      · exact h.answers k c response hold
      · cases List.mem_singleton.1 hmem
  | wake pid =>
    obtain ⟨jobId, config, point, point', inner, m, hp, -, rfl⟩ := System.step_wake hstep
    by_cases hpid : k = pid
    · subst hpid
      cases hk.symm.trans (List.getElem?_set_self (List.getElem?_eq_some_iff.1 hp).1)
    · rw [List.getElem?_set_ne (Ne.symm hpid)] at hk
      exact h.answers k c response hk
  | grant =>
    obtain ⟨_, -, rfl⟩ := System.step_grant hstep
    exact h.answers k c response hk
  | run pid now =>
    obtain ⟨p, jobs, p', spawned, hp, -, hrun, rfl⟩ := System.step_run.1 hstep
    obtain ⟨-, rfl⟩ | ⟨-, hold⟩ | hmem := getElem?_run_cases hp hk
    · cases p with
      | call c' result =>
        cases result with
        | some => cases hrun
        | none =>
          simp only [Proc.section, Option.some.injEq, Prod.mk.injEq, Proc.call.injEq] at hrun
          obtain ⟨-, ⟨rfl, hresult⟩, -⟩ := hrun
          exact h.records.shows hresult
      | training jobId config point =>
        obtain ⟨_, -, heq⟩ := Option.map_eq_some_iff.1 hrun
        cases heq
    · exact h.answers k c response hold
    · obtain ⟨_, _, heq, -⟩ := Proc.mem_spawned hrun hmem
      cases heq

theorem Sound.step (hfresh : Fresh s) (h : Sound s) (hstep : s.step l = some s') : Sound s' where
  records := records_step h hstep
  started k jobId config point hk := started_step hfresh h hstep hk
  epochs k jobId config point epoch hk hepoch := by
    obtain ⟨old, hold, hmoves⟩ | ⟨-, -, rfl, -⟩ := training_origin hstep hk
    · exact hmoves.epochs (fun epoch => h.epochs k jobId config old epoch hold) hepoch
    · exact epochs_next hepoch
  answers k c response hk := answers_step h hstep hk

end

theorem sound_init : Sound .init where
  records _ _ h := by cases h
  started _ _ _ _ h := by cases h
  epochs _ _ _ _ _ h := by cases h
  answers _ _ _ h := by cases h

theorem sound_of_reachable {s : System} (h : Lts.Reachable System.step .init s) : Sound s :=
  (h.inv (I := fun s => Fresh s ∧ Sound s) ⟨fresh_init, sound_init⟩
    fun s l t h hstep => ⟨Fresh.step s l t h.1 hstep, h.2.step h.1 hstep⟩).2

/-- **Every record** that the service keeps, and every one that it has shown, is well formed. -/
theorem records_wellFormed (s : System) (h : Lts.Reachable System.step .init s) :
    (∀ jobId job, s.jobs.lookup jobId = some job → WellFormed jobId job) ∧
      ∀ (pid : Nat) c response, s.procs[pid]? = some (.call c (some (.ok response))) →
        Shows c response :=
  ⟨(sound_of_reachable h).records, (sound_of_reachable h).answers⟩

/-- Job 1 is running, and `get_job` has shown it. -/
theorem records_wellFormed_running : ∃ s, Lts.exec System.step .init (startLabels ++
      [.call (.getJob ⟨1⟩), .grant, .run 3 ⟨2⟩]) = some s ∧ (s.jobs.lookup ⟨1⟩).isSome ∧
    (∀ jobId job, s.jobs.lookup jobId = some job → WellFormed jobId job) ∧
      ∀ (pid : Nat) c response, s.procs[pid]? = some (.call c (some (.ok response))) →
        Shows c response := by
  have hrun : (Lts.exec System.step .init (startLabels ++
      [.call (.getJob ⟨1⟩), .grant, .run 3 ⟨2⟩])).map (fun s => (s.jobs.lookup ⟨1⟩).isSome) =
        some true := by decide +kernel
  obtain ⟨s, hs, hjob⟩ := Option.map_eq_some_iff.1 hrun
  exact ⟨s, hs, hjob, records_wellFormed s ⟨_, hs⟩⟩

end TensorGrid.FineTuning
