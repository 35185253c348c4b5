import TensorGrid.FineTuning.Jobs

/-!
# Completed jobs that were cancelled or paused

The final section of `run_training` marks the job as completed whatever its status is, and the
status was last looked at by the check at the head of the last epoch. So a `cancel_job` or
`pause_job` that lands after that check is overwritten.

* `Overtaken`: a cancel or pause took effect after a task's last check, and nothing undid it.
  `overtaken_iff`: past its last check, a task's job is cancelled or paused exactly then.
* `completed_from_running_iff`: a run never completes a cancelled or paused job exactly when none of
  its tasks is overtaken when it marks its job as completed.
-/

namespace TensorGrid.FineTuning

/-- The task has made the check at the head of its last epoch, and is not through. -/
def Point.pastChecks (config : FineTuningConfig) : Point → Bool
  | .epochSleep epoch | .update epoch => !(epoch < config.epochs)
  | .epochsDone | .complete => true
  | .epochStart _ | .check _ | .pauseSleep _ | .poll _ | .returned => false

def PastChecks (s : System) (pid : Nat) (jobId : Uuid) : Prop := ∃ config point,
  s.procs[pid]? = some (.training jobId config point) ∧ point.pastChecks config

/-- In the run, a pause or a cancel of the job took effect while the task `pid` was past its last
check, and no step since then restarted, deleted or completed the job. -/
def Overtaken (es : List Label) (pid : Nat) (jobId : Uuid) : Prop :=
  Lts.Since System.step (fun s l => Halts jobId s l ∧ PastChecks s pid jobId) (Undoes jobId) .init es

/-! ## Tasks -/

section
variable {s s' : System} {l : Label} {pid : Nat} {jobId : Uuid} {config : FineTuningConfig}
  {point point' : Point}

/-- A step of the system as a task sees it. -/
def Point.Moves (jobId : Uuid) (config : FineTuningConfig) (s s' : System) (point point' : Point) :
    Prop :=
  point' = point ∨ (∃ inner m, point.wake = some (point', inner, m)) ∨
    ∃ now, point.section jobId config now s.jobs = some (s'.jobs, point')

theorem training_step (h : s.step l = some s')
    (hp : s.procs[pid]? = some (.training jobId config point)) :
    ∃ point', s'.procs[pid]? = some (.training jobId config point') ∧
      point.Moves jobId config s s' point' := by
  obtain ⟨p', hp', rfl | ⟨_, _, _, _, _, _, heq, hwake, rfl, -⟩ | ⟨now, _, -, hrun⟩⟩ :=
    proc_step h hp
  · exact ⟨point, hp', .inl rfl⟩
  · cases heq
    exact ⟨_, hp', .inr (.inl ⟨_, _, hwake⟩)⟩
  · obtain ⟨⟨_, point'⟩, hpt, heq⟩ := Option.map_eq_some_iff.1 hrun
    simp only [Prod.mk.injEq] at heq
    obtain ⟨rfl, rfl, -⟩ := heq
    exact ⟨point', hp', .inr (.inr ⟨now, hpt⟩)⟩

/-- A task after the step was there before it, or the step is the `start_job` that spawned it. -/
theorem training_origin (h : s.step l = some s')
    (hp' : s'.procs[pid]? = some (.training jobId config point')) :
    (∃ point, s.procs[pid]? = some (.training jobId config point) ∧
      point.Moves jobId config s s' point') ∨
    s.procs[pid]? = none ∧ Starts jobId s l ∧ point' = .next config 0 ∧ pid = s.procs.length := by
  cases hp : s.procs[pid]? with
  | none =>
    rcases proc_new h hp' with ⟨p, hp₁⟩ | ⟨_, _, heq, -⟩ | ⟨_, _, heq, hstarts, hpid⟩
    · cases hp.symm.trans hp₁
    · cases heq
    · cases heq
      exact .inr ⟨rfl, hstarts, rfl, hpid⟩
  | some p =>
    obtain ⟨q, hq, rfl | ⟨_, _, point, _, _, _, rfl, -, rfl, -⟩ | ⟨_, _, -, hrun⟩⟩ := proc_step h hp
    all_goals cases hp'.symm.trans hq
    · exact .inl ⟨point', rfl, .inl rfl⟩
    · obtain ⟨_, hq', hmoves⟩ := training_step h hp
      cases hp'.symm.trans hq'
      exact .inl ⟨point, rfl, hmoves⟩
    · obtain ⟨point, rfl, -⟩ := Proc.section_training hrun
      obtain ⟨_, hq', hmoves⟩ := training_step h hp
      cases hp'.symm.trans hq'
      exact .inl ⟨point, rfl, hmoves⟩

theorem pastChecks_next (config : FineTuningConfig) (epoch : UInt32) :
    (Point.next config epoch).pastChecks config = !(epoch < config.epochs) := by
  unfold Point.next
  split <;> simp [Point.pastChecks, *]

/-- Past its last check, a task only moves on to its end. -/
theorem Point.Moves.past (h : point.Moves jobId config s s' point')
    (hp : point.pastChecks config ∨ point = .returned) :
    point'.pastChecks config ∨ point' = .returned := by
  rcases h with rfl | ⟨_, _, hw⟩ | ⟨now, hr⟩
  · exact hp
  · cases point <;> cases hw <;> simp_all [Point.pastChecks]
  · cases point with
    | update epoch =>
      obtain ⟨-, rfl⟩ := Prod.mk.inj (Option.some.inj hr)
      rw [pastChecks_next]
      exact .inl (by simpa [Point.pastChecks] using hp)
    | complete =>
      obtain ⟨-, rfl⟩ := Prod.mk.inj (Option.some.inj hr)
      exact .inr rfl
    | _ => simp_all [Point.pastChecks, Point.section]

theorem Point.Moves.returned (h : Point.returned.Moves jobId config s s' point') :
    point' = .returned := by
  rcases h with rfl | ⟨_, _, hw⟩ | ⟨now, hr⟩
  · rfl
  · cases hw
  · cases hr

/-- A task passes its last check only if its job is neither cancelled nor paused. -/
theorem Point.Moves.passes (h : point.Moves jobId config s s' point')
    (hp : ¬ point.pastChecks config) (hp' : point'.pastChecks config) :
    ¬ Halted (statusOf s'.jobs jobId) := by
  rcases h with rfl | ⟨_, _, hw⟩ | ⟨now, hr⟩
  · exact absurd hp' hp
  · cases point <;> cases hw <;> simp_all [Point.pastChecks]
  · cases point with
    | check epoch =>
      obtain ⟨hjobs, rfl⟩ := Prod.mk.inj (Option.some.inj hr)
      rw [← hjobs]
      revert hp'
      split <;> intro hp' <;> simp_all [Halted, Point.pastChecks]
    | poll epoch =>
      obtain ⟨hjobs, rfl⟩ := Prod.mk.inj (Option.some.inj hr)
      rw [← hjobs]
      revert hp'
      split <;> intro hp' <;> simp_all [Halted, Point.pastChecks]
    | update epoch =>
      obtain ⟨-, rfl⟩ := Prod.mk.inj (Option.some.inj hr)
      rw [pastChecks_next] at hp'
      exact absurd hp' hp
    | complete => exact absurd rfl hp
    | _ => cases hr

end

/-! ## Overtaken tasks -/

/-- What the run so far says of the tasks past their last check. -/
structure Tracked (es : List Label) (s : System) : Prop where
  past : ∀ pid jobId, Overtaken es pid jobId → ∃ config point,
    s.procs[pid]? = some (.training jobId config point) ∧
      (point.pastChecks config ∨ point = .returned)
  halted_iff : ∀ pid jobId config point, s.procs[pid]? = some (.training jobId config point) →
    point.pastChecks config → (Halted (statusOf s.jobs jobId) ↔ Overtaken es pid jobId)

theorem tracked_step {es : List Label} {s s' : System} {l : Label}
    (hes : Lts.exec System.step .init es = some s) (h : Tracked es s) (hstep : s.step l = some s') :
    Tracked (es ++ [l]) s' := by
  have hfresh := fresh_of_reachable ⟨es, hes⟩
  refine ⟨fun pid jobId hover => ?_, fun pid jobId config point hp hpast => ?_⟩
  · -- the task was past its last check before the step
    have hbefore : ∃ config point, s.procs[pid]? = some (.training jobId config point) ∧
        (point.pastChecks config ∨ point = .returned) := by
      rcases (Lts.since_concat hes hstep).1 hover with ⟨-, config, point, hp, hpast⟩ | ⟨hover, -⟩
      · exact ⟨config, point, hp, .inl hpast⟩
      · exact h.past pid jobId hover
    obtain ⟨config, point, hp, hpast⟩ := hbefore
    obtain ⟨point', hp', hmoves⟩ := training_step hstep hp
    exact ⟨config, point', hp', hmoves.past hpast⟩
  · have hover : Overtaken (es ++ [l]) pid jobId ↔ Halts jobId s l ∧ PastChecks s pid jobId ∨
        Overtaken es pid jobId ∧ ¬ Undoes jobId s l := Lts.since_concat hes hstep
    rw [hover]
    rcases training_origin hstep hp with ⟨point₀, hp₀, hmoves⟩ | ⟨hnone, hstarts, -⟩
    · have hnp := hfresh.notPending (hfresh.training pid jobId config point₀ hp₀)
      by_cases hpast₀ : point₀.pastChecks config
      · have hpc : PastChecks s pid jobId := ⟨config, point₀, hp₀, hpast₀⟩
        rw [halted_step hstep hnp, h.halted_iff pid jobId config point₀ hp₀ hpast₀]
        simp [hpc]
      · -- the task has just passed its last check: nothing has overtaken it yet
        refine iff_of_false (hmoves.passes hpast₀ hpast) ?_
        rintro (⟨-, _, _, hp₁, hpast₁⟩ | ⟨hover, -⟩)
        · cases hp₀.symm.trans hp₁
          exact hpast₀ hpast₁
        · obtain ⟨_, _, hp₁, hpast₁⟩ := h.past pid jobId hover
          cases hp₀.symm.trans hp₁
          obtain rfl := hpast₁.resolve_left hpast₀
          cases hmoves.returned
          cases hpast
    · have hst : statusOf s.jobs jobId ≠ none := by
        obtain ⟨_, -, hcan⟩ := hstarts
        intro hst
        simp [hst] at hcan
      have hnp := hfresh.notPending (hfresh.job jobId hst)
      refine iff_of_false (not_halted_of_undoes hstep hnp (.inl hstarts.restarts)) ?_
      rintro (⟨-, _, _, hp₁, -⟩ | ⟨-, hno⟩)
      · cases hnone.symm.trans hp₁
      · exact hno (.inl hstarts.restarts)

theorem tracked {es : List Label} {s : System} (hes : Lts.exec System.step .init es = some s) :
    Tracked es s := by
  refine Lts.exec_induction (P := Tracked) ⟨fun _ _ h => h.elim, fun _ _ _ _ h => ?_⟩ ?_ hes
  · cases h
  · exact fun es s l s' hes h hstep => tracked_step hes h hstep

/-! ## Completed only from running -/

/-- No step of the run makes a cancelled or paused job a completed one, and a job that is cancelled
or paused at some point of the run and completed at a later one was restarted in between. -/
def CompletedFromRunning (es : List Label) : Prop :=
  (∀ pre l post s s', es = pre ++ l :: post → Lts.exec System.step .init pre = some s →
    s.step l = some s' → ∀ jobId, Halted (statusOf s.jobs jobId) →
      statusOf s'.jobs jobId ≠ some .completed) ∧
  ∀ pre mid post s t, es = pre ++ (mid ++ post) → Lts.exec System.step .init pre = some s →
    Lts.exec System.step s mid = some t → ∀ jobId, Halted (statusOf s.jobs jobId) →
      statusOf t.jobs jobId = some .completed → Lts.Occurs System.step (Restarts jobId) s mid

/-- From a cancelled or paused job, a run without a restart leads to a completed one only by a step
that completes a cancelled or paused job. -/
theorem occurs_restart {jobId : Uuid} {mid : List Label} {s t : System} (hf : Fresh s)
    (hc : Created s jobId) (hmid : Lts.exec System.step s mid = some t)
    (hs : Halted (statusOf s.jobs jobId) ∨ statusOf s.jobs jobId = none)
    (hno : ∀ pre l post u u', mid = pre ++ l :: post → Lts.exec System.step s pre = some u →
      u.step l = some u' → Halted (statusOf u.jobs jobId) → statusOf u'.jobs jobId ≠ some .completed)
    (ht : statusOf t.jobs jobId = some .completed) :
    Lts.Occurs System.step (Restarts jobId) s mid := by
  induction mid generalizing s with
  | nil =>
    cases hmid
    rcases hs with (hs | hs) | hs <;> cases hs.symm.trans ht
  | cons l mid ih =>
    obtain ⟨u, hu, hmid⟩ := Lts.exec_cons.1 hmid
    by_cases hr : Restarts jobId s l
    · exact .inl hr
    · have hs' := stays_halted hu (hf.notPending hc) hr hs (hno [] l mid s u rfl rfl hu)
      refine .inr ⟨u, hu, ih (hf.step _ _ _ hu) (hc.step hu) hmid hs' ?_⟩
      intro pre l' post v v' heq hpre hv
      exact hno (l :: pre) l' post v v' (by rw [heq]; rfl) (Lts.exec_cons.2 ⟨u, hu, hpre⟩) hv

/-- **Completed only from running**: a run never completes a cancelled or paused job (in one step,
or later without a restart) exactly when no task that runs its final section is overtaken. -/
theorem completed_from_running_iff (es : List Label) :
    CompletedFromRunning es ↔
      ∀ pre l post s s', es = pre ++ l :: post → Lts.exec System.step .init pre = some s →
        s.step l = some s' → ∀ pid jobId, Completes pid jobId s l → ¬ Overtaken pre pid jobId := by
  constructor
  · rintro ⟨hstep, -⟩ pre l post s s' rfl hpre hl pid jobId hcomp hover
    obtain ⟨config, now, rfl, hp⟩ := hcomp
    have hfresh := fresh_of_reachable ⟨pre, hpre⟩
    have hnp := hfresh.notPending (hfresh.training pid jobId config _ hp)
    have hh := ((tracked hpre).halted_iff pid jobId config _ hp rfl).2 hover
    exact hstep pre _ post s s' rfl hpre hl jobId hh
      ((completed_step hl hnp hh).2 ⟨pid, config, now, rfl, hp⟩)
  · intro hno
    have hstep (pre : List Label) (l : Label) (post : List Label) (s s' : System)
        (heq : es = pre ++ l :: post) (hpre : Lts.exec System.step .init pre = some s)
        (hl : s.step l = some s') (jobId : Uuid) (hh : Halted (statusOf s.jobs jobId)) :
        statusOf s'.jobs jobId ≠ some .completed := by
      have hfresh := fresh_of_reachable ⟨pre, hpre⟩
      have hst : statusOf s.jobs jobId ≠ none := by rcases hh with hh | hh <;> simp [hh]
      have hnp := hfresh.notPending (hfresh.job jobId hst)
      rw [Ne, completed_step hl hnp hh]
      rintro ⟨pid, hcomp⟩
      obtain ⟨config, now, -, hp⟩ := id hcomp
      exact hno pre l post s s' heq hpre hl pid jobId hcomp
        (((tracked hpre).halted_iff pid jobId config _ hp rfl).1 hh)
    refine ⟨hstep, ?_⟩
    rintro pre mid post s t rfl hpre hmid jobId hh ht
    have hfresh := fresh_of_reachable ⟨pre, hpre⟩
    have hst : statusOf s.jobs jobId ≠ none := by rcases hh with hh | hh <;> simp [hh]
    refine occurs_restart hfresh (hfresh.job jobId hst) hmid (.inl hh) ?_ ht
    rintro pre' l post' u u' rfl hpre' hu hhu
    exact hstep (pre ++ pre') l (post' ++ post) u u' (by simp) (Lts.exec_append.2 ⟨s, hpre, hpre'⟩)
      hu jobId hhu

/-- Job 1 is cancelled while its task trains its only epoch. -/
def cancelLabels : List Label :=
  startLabels ++ [.wake 2, .grant, .run 2 ⟨2⟩, .call (.cancelJob ⟨1⟩), .grant, .run 3 ⟨3⟩, .wake 2,
    .grant, .run 2 ⟨4⟩, .wake 2, .grant]

/-- The final section of the task completes the cancelled job. -/
theorem cancelled_then_completed : ¬ CompletedFromRunning (cancelLabels ++ [.run 2 ⟨5⟩]) := by
  rintro ⟨hno, -⟩
  have hrun : (Lts.exec System.step .init cancelLabels).map (fun s => (statusOf s.jobs ⟨1⟩,
      (s.step (.run 2 ⟨5⟩)).map fun s' => statusOf s'.jobs ⟨1⟩)) =
      some (some .cancelled, some (some .completed)) := by decide +kernel
  obtain ⟨s, hs, heq⟩ := Option.map_eq_some_iff.1 hrun
  obtain ⟨hcancelled, hstep⟩ := Prod.mk.inj heq
  obtain ⟨s', hs', hcompleted⟩ := Option.map_eq_some_iff.1 hstep
  exact hno cancelLabels _ [] s s' rfl hs hs' ⟨1⟩ (.inl hcancelled) hcompleted

end TensorGrid.FineTuning
