import TensorGrid.FineTuning.Status

/-!
# Who holds the lock

`Inv` relates the lock to the points of the processes: every guard and every request belongs to a
scope of its process, and a task in the pause loop holds the guard of its check on a job that is
paused, since no writer can get in while it does. `inv_of_reachable`: it holds in every reachable
state.
-/

namespace TensorGrid.FineTuning

open Rust

/-- The task is in the pause loop, with the guard of its check still in scope. -/
def Point.inPause : Point → Bool
  | .pauseSleep _ | .poll _ => true
  | .epochStart _ | .check _ | .epochSleep _ | .update _ | .epochsDone | .complete | .returned =>
    false

structure Inv (s : System) : Prop where
  wf : s.lock.Wf
  scope : ∀ g m, (g, m) ∈ s.lock.entries →
    ∃ p, s.procs[g.pid]? = some p ∧ p.scope g.inner = some m
  parked : ∀ pid jobId config point, s.procs[pid]? = some (.training jobId config point) →
    point.inPause → s.lock.Holds ⟨pid, false⟩ ∧ statusOf s.jobs jobId = some .paused

/-! ## Points and scopes -/

/-- A task that wakes up asks for a guard it did not have, and keeps those it had. -/
theorem Point.wake_scope {point point' : Point} {inner : Bool} {m : Mode}
    (h : point.wake = some (point', inner, m)) (jobId : Uuid) (config : FineTuningConfig) :
    (Proc.training jobId config point).scope inner = none ∧
      (Proc.training jobId config point').scope inner = some m ∧
      (∀ i m', (Proc.training jobId config point).scope i = some m' →
        (Proc.training jobId config point').scope i = some m') ∧
      point'.inPause = point.inPause := by
  cases point <;> cases h <;> refine ⟨rfl, rfl, fun i m' hi => ?_, rfl⟩ <;> cases i <;>
    first | exact hi | cases hi

theorem Point.scope_inPause {point : Point} (h : point.inPause) (jobId : Uuid)
    (config : FineTuningConfig) : (Proc.training jobId config point).scope false = some .read := by
  cases point <;> first | rfl | cases h

section
variable {p p' : Proc} {now : DateTime} {jobs jobs' : Jobs} {spawned : List Proc}
  (h : p.section now jobs = some (jobs', p', spawned))
include h

/-- A section runs under a guard and enters no new scope. -/
theorem Proc.section_scope : (p.scope p.inner).isSome ∧
    ∀ i m, p'.scope i = some m → p.scope i = some m := by
  cases p with
  | call c result =>
    cases result with
    | some => cases h
    | none => cases h; exact ⟨rfl, fun i m hi => by cases hi⟩
  | training jobId config point =>
    cases point with
    | check | poll =>
      cases h
      refine ⟨rfl, fun i m hi => ?_⟩
      revert hi
      split <;> intro hi <;> cases i <;> first | exact hi | cases hi
    | update epoch =>
      cases h
      refine ⟨rfl, fun i m hi => ?_⟩
      revert hi
      unfold Point.next
      split <;> intro hi <;> cases hi
    | complete => cases h; exact ⟨rfl, fun i m hi => by cases hi⟩
    | epochStart | pauseSleep | epochSleep | epochsDone | returned => cases h

/-- After a section under a write guard no guard is in scope. -/
theorem Proc.section_scope_write (hw : p.scope p.inner = some .write) (i : Bool) :
    p'.scope i = none := by
  cases p with
  | call c result =>
    cases result with
    | some => cases h
    | none => cases h; rfl
  | training jobId config point =>
    cases point with
    | update epoch =>
      cases h
      unfold Point.next
      split <;> rfl
    | complete => cases h; rfl
    | check | poll => cases hw
    | epochStart | pauseSleep | epochSleep | epochsDone | returned => cases h

/-- Into the pause loop: by a check that finds the job paused, or by another poll. -/
theorem Proc.section_inPause {jobId : Uuid} {config : FineTuningConfig} {point' : Point}
    (hp' : p' = .training jobId config point') (hin : point'.inPause) :
    ∃ point, p = .training jobId config point ∧
      (point.inPause ∨ p.inner = false ∧ statusOf jobs jobId = some .paused) := by
  subst hp'
  cases p with
  | call c result => cases result <;> cases h
  | training jobId' config' point =>
    cases point with
    | check epoch =>
      cases h
      refine ⟨_, rfl, .inr ⟨rfl, ?_⟩⟩
      revert hin
      split <;> intro hin <;> first | assumption | cases hin
    | poll epoch => cases h; exact ⟨_, rfl, .inl rfl⟩
    | update epoch =>
      cases h
      revert hin
      unfold Point.next
      split <;> intro hin <;> cases hin
    | complete => cases h; cases hin
    | epochStart | pauseSleep | epochSleep | epochsDone | returned => cases h

end

/-! ## The processes after a step -/

theorem getElem?_run_ne {procs spawned : List Proc} {pid k : Nat} {p' q : Proc}
    (hk : k ≠ pid) (hq : procs[k]? = some q) :
    (procs.set pid p' ++ spawned)[k]? = some q := by
  have hlt : k < procs.length := (List.getElem?_eq_some_iff.1 hq).1
  rw [List.getElem?_append_left (by simpa using hlt), List.getElem?_set_ne hk.symm, hq]

theorem getElem?_run_self {procs spawned : List Proc} {pid : Nat} {p p' : Proc}
    (hp : procs[pid]? = some p) : (procs.set pid p' ++ spawned)[pid]? = some p' := by
  have hlt : pid < procs.length := (List.getElem?_eq_some_iff.1 hp).1
  rw [List.getElem?_append_left (by simpa using hlt), List.getElem?_set_self hlt]

theorem getElem?_run_cases {procs spawned : List Proc} {pid k : Nat} {p p' q : Proc}
    (hp : procs[pid]? = some p) (hq : (procs.set pid p' ++ spawned)[k]? = some q) :
    (k = pid ∧ q = p') ∨ (k ≠ pid ∧ procs[k]? = some q) ∨ q ∈ spawned := by
  by_cases hk : k = pid
  · subst hk
    rw [getElem?_run_self hp] at hq
    exact .inl ⟨rfl, (Option.some.inj hq).symm⟩
  · rw [List.getElem?_append, List.length_set, List.getElem?_set_ne (Ne.symm hk)] at hq
    split at hq
    · exact .inr (.inl ⟨hk, hq⟩)
    · exact .inr (.inr (List.mem_of_getElem? hq))

theorem getElem?_append_some {procs more : List Proc} {k : Nat} {q : Proc}
    (hq : procs[k]? = some q) : (procs ++ more)[k]? = some q := by
  rw [List.getElem?_append_left (List.getElem?_eq_some_iff.1 hq).1, hq]

theorem getElem?_append_cases {procs more : List Proc} {k : Nat} {q : Proc}
    (hq : (procs ++ more)[k]? = some q) : procs[k]? = some q ∨ q ∈ more := by
  rw [List.getElem?_append] at hq
  split at hq
  · exact .inl hq
  · exact .inr (List.mem_of_getElem? hq)

/-! ## The invariant -/

theorem inv_init : Inv .init :=
  ⟨RwLock.wf_empty, fun _ _ h => (by cases h), fun _ _ _ _ h => (by cases h)⟩

namespace Inv

variable {s s' : System} {pid : Nat} {now : DateTime}

theorem pid_lt (h : Inv s) {g : Guard} {m : Mode} (hg : (g, m) ∈ s.lock.entries) :
    g.pid < s.procs.length := by
  obtain ⟨p, hp, -⟩ := h.scope g m hg
  exact (List.getElem?_eq_some_iff.1 hp).1

/-- While a section of a process runs, no request of that process waits. -/
theorem queue_pid (h : Inv s) {p : Proc} (hp : s.procs[pid]? = some p)
    (hheld : s.lock.Holds ⟨pid, p.inner⟩) {g : Guard} {m : Mode} (hg : (g, m) ∈ s.lock.queue) :
    g.pid ≠ pid := by
  rintro rfl
  have hwaits : s.lock.Waits g := List.mem_map_of_mem hg
  obtain ⟨q, hq, hscope⟩ := h.scope g m (List.mem_append_right _ hg)
  obtain rfl : p = q := Option.some.inj (hp.symm.trans hq)
  by_cases hin : g.inner = p.inner
  · exact h.wf.not_waits_of_holds hheld (by rwa [← hin])
  · -- only the pause loop has two guards in scope, and there the outer one is held
    cases p with
    | call c result =>
      cases result <;> cases hi : g.inner <;> simp_all [Proc.scope, Proc.inner]
    | training jobId config point =>
      have houter (hpause : point.inPause) (hi : g.inner = false) : False :=
        h.wf.not_waits_of_holds (h.parked _ _ _ _ hp hpause).1 (by rwa [← hi])
      cases point <;> cases hi : g.inner <;> simp_all [Proc.scope, Proc.inner, Point.inPause]

/-- A writer runs alone, so no task is in the pause loop. -/
theorem status_run (h : Inv s) {p p' : Proc} {jobs : Jobs} {spawned : List Proc}
    (hp : s.procs[pid]? = some p) (hheld : s.lock.Holds ⟨pid, p.inner⟩)
    (hrun : p.section now s.jobs = some (jobs, p', spawned)) :
    (p.scope p.inner = some .read ∧ (∀ e ∈ s.lock.held, e.2 = .read) ∧
      statusOf jobs = statusOf s.jobs) ∨
    p.scope p.inner = some .write ∧ s.lock.held = [(⟨pid, p.inner⟩, .write)] := by
  obtain ⟨⟨g, m⟩, hg, hge⟩ := List.mem_map.1 hheld
  obtain rfl : g = ⟨pid, p.inner⟩ := hge
  obtain ⟨q, hq, hscope⟩ := h.scope _ _ (List.mem_append_left _ hg)
  obtain rfl : p = q := Option.some.inj (hp.symm.trans hq)
  cases m with
  | read =>
    refine .inl ⟨hscope, ?_, by rw [Proc.statusOf_section hrun, Proc.effect_read hscope]⟩
    rcases h.wf.held_cases with hread | ⟨g, hw⟩
    · exact hread
    · rw [hw] at hg
      cases List.mem_singleton.1 hg
  | write => exact .inr ⟨hscope, h.wf.exclusive _ hg⟩

theorem grant (h : Inv s) (hstep : s.step .grant = some s') : Inv s' := by
  obtain ⟨lock, hl, rfl⟩ := System.step_grant hstep
  refine ⟨h.wf.grant hl, ?_, fun pid jobId config point hp hin => ?_⟩
  · rw [RwLock.entries_grant hl]
    exact h.scope
  · obtain ⟨hholds, hst⟩ := h.parked pid jobId config point hp hin
    obtain ⟨g, m, queue, -, -, rfl⟩ := RwLock.grant_eq_some.1 hl
    refine ⟨?_, hst⟩
    rw [RwLock.Holds, List.map_append]
    exact List.mem_append_left _ hholds

theorem call (h : Inv s) {c : Call} (hstep : s.step (.call c) = some s') : Inv s' := by
  have hparked (r : Option (Except FineTuningError Response)) (pid : Nat) (jobId : Uuid)
      (config : FineTuningConfig) (point : Point)
      (hp : (s.procs ++ [.call c r])[pid]? = some (.training jobId config point))
      (hin : point.inPause) :
      s.lock.Holds ⟨pid, false⟩ ∧ statusOf s.jobs jobId = some .paused := by
    rcases getElem?_append_cases hp with hp | hp
    · exact h.parked pid jobId config point hp hin
    · cases List.mem_singleton.1 hp
  obtain ⟨-, ⟨e, rfl⟩ | rfl⟩ := System.step_call hstep
  · refine ⟨h.wf, fun g m hg => ?_, hparked _⟩
    obtain ⟨p, hp, hscope⟩ := h.scope g m hg
    exact ⟨p, getElem?_append_some hp, hscope⟩
  · refine ⟨h.wf.request ?_ _, fun g m hg => ?_, hparked _⟩
    · intro hmem
      obtain ⟨⟨g, m⟩, hg, rfl⟩ := List.mem_map.1 hmem
      exact absurd (h.pid_lt hg) (lt_irrefl _)
    · rw [RwLock.entries_request] at hg
      rcases List.mem_append.1 hg with hg | hg
      · obtain ⟨p, hp, hscope⟩ := h.scope g m hg
        exact ⟨p, getElem?_append_some hp, hscope⟩
      · cases List.mem_singleton.1 hg
        exact ⟨_, List.getElem?_concat_length, rfl⟩

theorem wake (h : Inv s) (hstep : s.step (.wake pid) = some s') : Inv s' := by
  obtain ⟨jobId, config, point, point', inner, m, hp, hwake, rfl⟩ := System.step_wake hstep
  obtain ⟨hnone, hsome, hkeep, hpause⟩ := Point.wake_scope hwake jobId config
  have hpid : pid < s.procs.length := (List.getElem?_eq_some_iff.1 hp).1
  have hself : (s.procs.set pid (.training jobId config point'))[pid]? =
      some (.training jobId config point') := List.getElem?_set_self hpid
  refine ⟨h.wf.request ?_ m, fun g m' hg => ?_, fun k jobId' config' pt hk hin => ?_⟩
  · intro hmem
    obtain ⟨⟨g, m'⟩, hg, rfl⟩ := List.mem_map.1 hmem
    obtain ⟨q, hq, hscope⟩ := h.scope _ _ hg
    obtain rfl : _ = q := Option.some.inj (hp.symm.trans hq)
    rw [hnone] at hscope
    cases hscope
  · rw [RwLock.entries_request] at hg
    rcases List.mem_append.1 hg with hg | hg
    · obtain ⟨q, hq, hscope⟩ := h.scope g m' hg
      by_cases hgp : g.pid = pid
      · rw [hgp] at hq ⊢
        obtain rfl : _ = q := Option.some.inj (hp.symm.trans hq)
        exact ⟨_, hself, hkeep _ _ hscope⟩
      · exact ⟨q, by rw [List.getElem?_set_ne (Ne.symm hgp), hq], hscope⟩
    · cases List.mem_singleton.1 hg
      exact ⟨_, hself, hsome⟩
  · by_cases hkp : k = pid
    · subst hkp
      cases Option.some.inj (hself.symm.trans hk)
      exact h.parked k jobId config point hp (hpause ▸ hin)
    · rw [List.getElem?_set_ne (Ne.symm hkp)] at hk
      exact h.parked k jobId' config' pt hk hin

theorem run (h : Inv s) (hstep : s.step (.run pid now) = some s') : Inv s' := by
  obtain ⟨p, jobs, p', spawned, hp, hheld, hrun, rfl⟩ := System.step_run.1 hstep
  obtain ⟨hsome, hscope'⟩ := Proc.section_scope hrun
  refine ⟨h.wf.retain fun g => g.pid ≠ pid || (p'.scope g.inner).isSome, fun g m hg => ?_,
    fun k jobId config point hk hin => ?_⟩
  · rcases List.mem_append.1 hg with hg | hg
    · obtain ⟨hg, hkeep⟩ := List.mem_filter.1 hg
      obtain ⟨q, hq, hscope⟩ := h.scope g m (List.mem_append_left _ hg)
      by_cases hgp : g.pid = pid
      · rw [hgp] at hq ⊢
        obtain rfl : p = q := Option.some.inj (hp.symm.trans hq)
        simp only [hgp, ne_eq, not_true_eq_false, decide_false, Bool.false_or] at hkeep
        obtain ⟨m', hm'⟩ := Option.isSome_iff_exists.1 hkeep
        obtain rfl : m = m' := Option.some.inj (hscope.symm.trans (hscope' _ _ hm'))
        exact ⟨p', getElem?_run_self hp, hm'⟩
      · exact ⟨q, getElem?_run_ne hgp hq, hscope⟩
    · obtain ⟨q, hq, hscope⟩ := h.scope g m (List.mem_append_right _ hg)
      exact ⟨q, getElem?_run_ne (h.queue_pid hp hheld hg) hq, hscope⟩
  · rcases getElem?_run_cases hp hk with ⟨rfl, hp'⟩ | ⟨hne, hk⟩ | hk
    · obtain ⟨point₀, rfl, hpoint⟩ := Proc.section_inPause hrun hp'.symm hin
      have houter : s.lock.Holds ⟨k, false⟩ ∧ statusOf s.jobs jobId = some .paused := by
        rcases hpoint with hpoint | ⟨hinner, hst⟩
        · exact h.parked k jobId config point₀ hp hpoint
        · exact ⟨by rwa [hinner] at hheld, hst⟩
      have hkeep : p'.scope false = some .read := hp' ▸ Point.scope_inPause hin jobId config
      rcases h.status_run hp hheld hrun with ⟨-, -, hsame⟩ | ⟨hw, -⟩
      · exact ⟨RwLock.holds_retain houter.1 (by simp [hkeep]), by rw [hsame]; exact houter.2⟩
      · rw [Proc.section_scope_write hrun hw] at hkeep
        cases hkeep
    · obtain ⟨hholds, hst⟩ := h.parked k jobId config point hk hin
      rcases h.status_run hp hheld hrun with ⟨-, -, hsame⟩ | ⟨-, hw⟩
      · exact ⟨RwLock.holds_retain hholds (by simp [hne]), by rw [hsame]; exact hst⟩
      · rw [RwLock.Holds, hw, List.map_cons, List.map_nil, List.mem_singleton] at hholds
        exact absurd (congrArg Guard.pid hholds) hne
    · obtain ⟨_, _, heq, -⟩ := Proc.mem_spawned hrun hk
      cases heq
      revert hin
      unfold Point.next
      split <;> intro hin <;> cases hin

theorem step (s : System) (l : Label) (s' : System) (h : Inv s) (hstep : s.step l = some s') :
    Inv s' := by
  cases l with
  | call c => exact h.call hstep
  | wake pid => exact h.wake hstep
  | grant => exact h.grant hstep
  | run pid now => exact h.run hstep

end Inv

theorem inv_of_reachable {s : System} (h : Lts.Reachable System.step .init s) : Inv s :=
  h.inv inv_init Inv.step

end TensorGrid.FineTuning
