import TensorGrid.FineTuning.Completion

/-!
# Training of deleted jobs

Each section of `run_training` looks the job up and does nothing when it is gone. At the head of an
epoch this also lets the epoch start: only a cancelled job makes the task return.

* `missing_step`, `idle_step`: a deleted job stays deleted, and a task between two epochs gets to
  work only through the check at the head of the next one.
* `stopsDeleted_iff`: a task that has found its job deleted never trains again exactly when no check
  at the head of an epoch finds its job deleted.
-/

namespace TensorGrid.FineTuning

open Rust

/-- The task is training an epoch or waits in the pause loop. -/
def Point.busy : Point → Bool
  | .pauseSleep _ | .poll _ | .epochSleep _ | .update _ => true
  | .epochStart _ | .check _ | .epochsDone | .complete | .returned => false

/-- The task `pid` looks its job up, and the job is not there. -/
def Misses (pid : Nat) (s : System) (l : Label) : Prop := ∃ jobId config point,
  Runs s l pid (.training jobId config point) ∧ statusOf s.jobs jobId = none

/-- The check at the head of an epoch finds its job. -/
def ChecksFound (s : System) (l : Label) : Prop := ∀ pid jobId config epoch,
  Runs s l pid (.training jobId config (.check epoch)) → statusOf s.jobs jobId ≠ none

/-- A task that has missed its job is neither in an epoch nor in the pause loop from then on. -/
def StopsDeleted (es : List Label) : Prop :=
  ∀ pre post s, es = pre ++ post → Lts.exec System.step .init pre = some s → ∀ pid,
    Lts.Occurs System.step (Misses pid) .init pre → ∀ jobId config point,
      s.procs[pid]? = some (.training jobId config point) → ¬ point.busy

section
variable {s s' : System} {l : Label} {pid : Nat} {jobId : Uuid} {config : FineTuningConfig}
  {point point' : Point}

/-- A job that is gone stays so: its id is not made a second time. -/
theorem missing_step (h : s.step l = some s') (hnp : NotPending s jobId)
    (hs : statusOf s.jobs jobId = none) : statusOf s'.jobs jobId = none := by
  rcases job_step h hnp with ⟨⟨_, hh⟩, -⟩ | ⟨⟨_, hr⟩, -⟩ | ⟨-, -, -, hb⟩ | ⟨-, -, hb⟩ | ⟨-, -, hb⟩
  · simp [hs] at hh
  · simp [hs] at hr
  · exact hb
  · rw [hb, hs, Option.map_none]
  · rw [hb, hs]

theorem busy_next (config : FineTuningConfig) (epoch : UInt32) :
    ¬ (Point.next config epoch).busy := by
  unfold Point.next
  split <;> simp [Point.busy]

/-- The section of a task whose job is gone, if it is not the check at the head of an epoch: the
task is then neither in an epoch nor in the pause loop. -/
theorem Point.section_missing {now : DateTime} {jobs' : Jobs}
    (h : point.section jobId config now s.jobs = some (jobs', point')) (hpause : ¬ point.inPause)
    (hcheck : ∀ epoch, point ≠ .check epoch) : ¬ point'.busy := by
  cases point with
  | update epoch =>
    obtain ⟨-, rfl⟩ := Prod.mk.inj (Option.some.inj h)
    exact busy_next config epoch
  | complete =>
    obtain ⟨-, rfl⟩ := Prod.mk.inj (Option.some.inj h)
    exact Bool.false_ne_true
  | check epoch => exact absurd rfl (hcheck epoch)
  | poll epoch => exact absurd rfl hpause
  | epochStart | pauseSleep | epochSleep | epochsDone | returned => cases h

theorem Point.wake_idle {inner : Bool} {m : Mode} (h : point.wake = some (point', inner, m))
    (hidle : ¬ point.busy) : ¬ point'.busy := by
  cases point <;> cases h <;> simp_all [Point.busy]

/-- A task that runs its section. -/
theorem training_run {now : DateTime} (h : s.step (.run pid now) = some s')
    (hp : s.procs[pid]? = some (.training jobId config point)) :
    ∃ point', s'.procs[pid]? = some (.training jobId config point') ∧
      point.section jobId config now s.jobs = some (s'.jobs, point') := by
  obtain ⟨_, _, _, _, hq, -, hrun, rfl⟩ := System.step_run.1 h
  cases hp.symm.trans hq
  obtain ⟨⟨_, point'⟩, hpt, heq⟩ := Option.map_eq_some_iff.1 hrun
  simp only [Prod.mk.injEq] at heq
  obtain ⟨rfl, rfl, rfl⟩ := heq
  exact ⟨point', getElem?_run_self hp, hpt⟩

/-- A task that is idle with its job gone stays idle, as long as no check finds its job deleted. -/
theorem idle_step (h : s.step l = some s') (hc : ChecksFound s l)
    (hp : s.procs[pid]? = some (.training jobId config point))
    (hmiss : statusOf s.jobs jobId = none) (hidle : ¬ point.busy) :
    ∃ point', s'.procs[pid]? = some (.training jobId config point') ∧ ¬ point'.busy := by
  obtain ⟨p', hp', rfl | ⟨_, _, _, _, _, _, heq, hwake, rfl, -⟩ | ⟨now, _, rfl, -⟩⟩ :=
    proc_step h hp
  · exact ⟨point, hp', hidle⟩
  · cases heq
    exact ⟨_, hp', Point.wake_idle hwake hidle⟩
  · obtain ⟨point', hp', hpt⟩ := training_run h hp
    refine ⟨point', hp', Point.section_missing hpt (fun hpause => ?_) fun epoch heq => ?_⟩
    · exact hidle (by cases point <;> simp_all [Point.inPause, Point.busy])
    · subst heq
      exact hc pid jobId config epoch ⟨now, rfl, hp⟩ hmiss

/-- A task that misses its job in another section than the check of an epoch is idle from there. -/
theorem misses_step (h : s.step l = some s') (hinv : Inv s) (hc : ChecksFound s l)
    (hr : Runs s l pid (.training jobId config point)) (hmiss : statusOf s.jobs jobId = none) :
    ∃ point', s'.procs[pid]? = some (.training jobId config point') ∧ ¬ point'.busy := by
  have hpause : ¬ point.inPause := by
    obtain ⟨now, -, hp⟩ := hr
    intro hpause
    have hpaused := (hinv.parked pid jobId config point hp hpause).2
    simp [hmiss] at hpaused
  have hcheck (epoch : UInt32) : point ≠ .check epoch := by
    rintro rfl
    exact hc pid jobId config epoch hr hmiss
  obtain ⟨now, rfl, hp⟩ := hr
  obtain ⟨point', hp', hpt⟩ := training_run h hp
  exact ⟨point', hp', Point.section_missing hpt hpause hcheck⟩

end

/-! ## Along a run -/

/-- Every task that has missed its job so far is idle, and its job is still gone. -/
def Idle (es : List Label) (s : System) : Prop := ∀ pid,
  Lts.Occurs System.step (Misses pid) .init es → ∃ jobId config point,
    s.procs[pid]? = some (.training jobId config point) ∧ statusOf s.jobs jobId = none ∧
      ¬ point.busy

theorem idle_of_meets {es : List Label} {s : System}
    (hes : Lts.exec System.step .init es = some s)
    (hc : Lts.Meets System.step ChecksFound .init es) : Idle es s := by
  induction es using List.reverseRecOn generalizing s with
  | nil => exact fun pid h => h.elim
  | append_singleton es l ih =>
    obtain ⟨t, ht, hl⟩ := Lts.exec_concat.1 hes
    obtain ⟨hmeets, hfound⟩ := (Lts.meets_concat ht hl).1 hc
    have hfresh := fresh_of_reachable ⟨es, ht⟩
    have hnp {pid : Nat} {jobId : Uuid} {config : FineTuningConfig} {point : Point}
        (hp : t.procs[pid]? = some (.training jobId config point)) : NotPending t jobId :=
      hfresh.notPending (hfresh.training pid jobId config point hp)
    intro pid hmissed
    rcases (Lts.occurs_concat ht).1 hmissed with hbefore | ⟨jobId, config, point, hruns, hmiss⟩
    · obtain ⟨jobId, config, point, hp, hmiss, hidle⟩ := ih ht hmeets pid hbefore
      obtain ⟨point', hp', hidle'⟩ := idle_step hl hfound hp hmiss hidle
      exact ⟨jobId, config, point', hp', missing_step hl (hnp hp) hmiss, hidle'⟩
    · obtain ⟨point', hp', hidle'⟩ :=
        misses_step hl (inv_of_reachable ⟨es, ht⟩) hfound hruns hmiss
      obtain ⟨-, -, hp⟩ := hruns
      exact ⟨jobId, config, point', hp', missing_step hl (hnp hp) hmiss, hidle'⟩

/-- **A deleted job stops training** exactly in the runs where no check at the head of an epoch
finds its job deleted: such a check starts the epoch. -/
theorem stopsDeleted_iff (es : List Label) :
    StopsDeleted es ↔ Lts.Meets System.step ChecksFound .init es := by
  constructor
  · refine fun h => Lts.meets_iff.2 fun pre l post s s' hes hs hl => ?_
    rintro pid jobId config epoch ⟨now, rfl, hp⟩ hmiss
    have hmissed : Lts.Occurs System.step (Misses pid) .init (pre ++ [.run pid now]) :=
      (Lts.occurs_concat hs).2 (.inr ⟨jobId, config, _, ⟨now, rfl, hp⟩, hmiss⟩)
    -- the missed check starts the epoch
    have hbusy : s'.procs[pid]? = some (.training jobId config (.epochSleep epoch)) := by
      obtain ⟨_, hp', hpt⟩ := training_run hl hp
      simp only [Point.section, hmiss, Option.some.injEq, Prod.mk.injEq] at hpt
      rw [hp', ← hpt.2]
    exact h (pre ++ [.run pid now]) post s' (by simp [hes]) (Lts.exec_concat.2 ⟨s, hs, hl⟩) pid
      hmissed jobId config _ hbusy rfl
  · rintro h pre post s rfl hs pid hmissed jobId config point hp
    obtain ⟨_, _, _, hp', -, hidle⟩ := idle_of_meets hs h.initial pid hmissed
    cases hp.symm.trans hp'
    exact hidle

/-- Job 1 is cancelled and deleted before the first epoch of its task. -/
def deleteLabels : List Label :=
  startLabels ++ [.call (.cancelJob ⟨1⟩), .grant, .run 3 ⟨2⟩, .call (.deleteJob ⟨1⟩), .grant,
    .run 4 ⟨3⟩, .wake 2, .grant]

/-- The task finds the job deleted and trains the epoch. -/
theorem deleted_then_trained : ¬ StopsDeleted (deleteLabels ++ [.run 2 ⟨4⟩]) := by
  intro h
  have hrun : (Lts.exec System.step .init deleteLabels).map (fun s => (statusOf s.jobs ⟨1⟩,
      s.procs[2]?, (s.step (.run 2 ⟨4⟩)).map fun s' => s'.procs[2]?)) =
      some (none, some (.training ⟨1⟩ smallConfig (.check 1)),
        some (some (.training ⟨1⟩ smallConfig (.epochSleep 1)))) := by decide +kernel
  obtain ⟨s, hs, heq⟩ := Option.map_eq_some_iff.1 hrun
  simp only [Prod.mk.injEq] at heq
  obtain ⟨hdeleted, hcheck, hstep⟩ := heq
  obtain ⟨s', hs', htrains⟩ := Option.map_eq_some_iff.1 hstep
  exact h _ [] s' (List.append_nil _).symm (Lts.exec_concat.2 ⟨s, hs, hs'⟩) 2
    ((Lts.occurs_concat hs).2 (.inr ⟨_, _, _, ⟨_, rfl, hcheck⟩, hdeleted⟩)) _ _ _ htrains rfl

end TensorGrid.FineTuning
