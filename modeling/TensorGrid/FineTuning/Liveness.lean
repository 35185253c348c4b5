import TensorGrid.FineTuning.Locking

/-!
# Who gets the lock

`System.served` replays the lock from a state: the section of every guard held and every request
waiting, in the order of the queue. A check that finds its job paused parks its guard, and a write
request behind a parked guard is never granted.

* `Inv.served_step`: no step changes what the replay says of a waiting request.
* `Inv.progress`: while a served request waits, some guard can be granted or dropped.
* `granted_iff`: hence a waiting request can be granted exactly when the replay serves it.
-/

namespace TensorGrid.FineTuning

open Rust

/-- The guard of the check is parked, or will be if the check runs with the statuses `st`. -/
def Proc.parks (st : Statuses) : Proc → Bool
  | .training jobId _ (.check _) => st jobId = some .paused
  | .training _ _ (.pauseSleep _) => true
  | .training _ _ (.poll _) => true
  | _ => false

def parks (procs : List Proc) (st : Statuses) (g : Guard) : Bool :=
  !g.inner && procs[g.pid]?.any (·.parks st)

def effect (procs : List Proc) (st : Statuses) (g : Guard) : Statuses :=
  procs[g.pid]?.elim st (·.effect st)

/-- When the sections of the guards held and of the requests ahead run, in the order of the queue,
`g` is granted: no write request at or ahead of `g` stands behind a check that finds its job paused
(or has found it so). -/
def System.served (s : System) (g : Guard) : Bool :=
  RwLock.served (parks s.procs) (effect s.procs) g (statusOf s.jobs) false s.lock.entries

/-! ## The replay is stable -/

theorem parks_effect_congr {procs procs' : List Proc} {g : Guard}
    (h : procs'[g.pid]? = procs[g.pid]?) (st : Statuses) :
    parks procs' st g = parks procs st g ∧ effect procs' st g = effect procs st g := by
  simp [parks, effect, h]

/-- The guard of a check stays parked, and no other guard is. -/
theorem Proc.section_parks {p p' : Proc} {now : DateTime} {jobs jobs' : Jobs}
    {spawned : List Proc} (h : p.section now jobs = some (jobs', p', spawned))
    (hr : p.scope p.inner = some .read)
    (hpaused : ∀ jobId config point, p = .training jobId config point → point.inPause →
      statusOf jobs jobId = some .paused) :
    ((p'.scope false).isSome && p'.parks (statusOf jobs)) = p.parks (statusOf jobs) := by
  cases p with
  | call c result =>
    cases result with
    | some => cases h
    | none => cases h; rfl
  | training jobId config point =>
    cases point with
    | check epoch =>
      cases h
      rw [Proc.parks]
      split
      · simp [Proc.scope, *]
      · simp [Proc.scope, Proc.parks, *]
      next hne => simpa [Proc.scope] using hne
    | poll epoch =>
      cases h
      rw [hpaused jobId config _ rfl rfl]
      rfl
    | update | complete => cases hr
    | epochStart | pauseSleep | epochSleep | epochsDone | returned => cases h

namespace Inv

variable {s s' : System} {g : Guard} {pid : Nat} {now : DateTime}

theorem waits_entries (hw : s.lock.Waits g) : g ∈ s.lock.entries.map Prod.fst := by
  rw [RwLock.entries, List.map_append]
  exact List.mem_append_right _ hw

theorem waits_request (hw : s.lock.Waits g) (g' : Guard) (m : Mode) :
    (s.lock.request g' m).Waits g := by
  rw [RwLock.Waits, RwLock.request, List.map_append]
  exact List.mem_append_left _ hw

theorem served_call (h : Inv s) {c : Call} (hstep : s.step (.call c) = some s')
    (hw : s.lock.Waits g) : s'.served g = s.served g ∧ s'.lock.Waits g := by
  have hcongr (more : List Proc) : ∀ e ∈ s.lock.entries, ∀ st,
      parks (s.procs ++ more) st e.1 = parks s.procs st e.1 ∧
        effect (s.procs ++ more) st e.1 = effect s.procs st e.1 := by
    rintro ⟨g, m⟩ he
    exact parks_effect_congr (List.getElem?_append_left (h.pid_lt he))
  obtain ⟨-, ⟨e, rfl⟩ | rfl⟩ := System.step_call hstep
  · exact ⟨RwLock.served_congr (hcongr _), hw⟩
  · refine ⟨?_, waits_request hw _ _⟩
    rw [System.served, RwLock.entries_request, RwLock.served_append (waits_entries hw)]
    exact RwLock.served_congr (hcongr _)

theorem served_wake (h : Inv s) (hstep : s.step (.wake pid) = some s') (hw : s.lock.Waits g) :
    s'.served g = s.served g ∧ s'.lock.Waits g := by
  obtain ⟨jobId, config, point, point', inner, m, hp, hwake, rfl⟩ := System.step_wake hstep
  refine ⟨?_, waits_request hw _ _⟩
  rw [System.served, RwLock.entries_request, RwLock.served_append (waits_entries hw)]
  refine RwLock.served_congr ?_
  rintro ⟨g', m'⟩ he st
  by_cases hgp : g'.pid = pid
  · -- a task that wakes up inside a scope is in the pause loop, before and after
    obtain ⟨q, hq, hscope⟩ := h.scope _ _ he
    subst hgp
    obtain rfl : _ = q := Option.some.inj (hp.symm.trans hq)
    have hself : (s.procs.set g'.pid (.training jobId config point'))[g'.pid]? =
        some (.training jobId config point') :=
      List.getElem?_set_self (List.getElem?_eq_some_iff.1 hp).1
    simp only [parks, effect, hself, hp]
    cases point <;> cases hwake <;> first | exact ⟨rfl, rfl⟩ | cases hscope
  · exact parks_effect_congr (List.getElem?_set_ne (Ne.symm hgp)) st

theorem served_grant (h : Inv s) (hstep : s.step .grant = some s') (hw : s.lock.Waits g) :
    s'.served g = s.served g ∧ (s'.lock.Waits g ∨ s'.lock.Holds g ∧ s.served g) := by
  obtain ⟨lock, hl, rfl⟩ := System.step_grant hstep
  refine ⟨by rw [System.served, RwLock.entries_grant hl]; rfl, ?_⟩
  obtain ⟨g', m, queue, hq, hadm, rfl⟩ := RwLock.grant_eq_some.1 hl
  have hw' := hw
  rw [RwLock.Waits, hq, List.map_cons, List.mem_cons] at hw'
  rcases hw' with rfl | hw'
  · refine .inr ⟨by simp [RwLock.Holds], ?_⟩
    rw [System.served, RwLock.entries, hq]
    exact RwLock.served_front hadm fun hh => h.wf.not_waits_of_holds hh hw
  · exact .inl hw'

theorem served_run (h : Inv s) (hstep : s.step (.run pid now) = some s') (hw : s.lock.Waits g) :
    s'.served g = s.served g ∧ s'.lock.Waits g := by
  obtain ⟨p, jobs, p', spawned, hp, hheld, hrun, rfl⟩ := System.step_run.1 hstep
  refine ⟨?_, hw⟩
  have hafter : System.served
      { jobs
        lock := s.lock.retain fun g => g.pid ≠ pid || (p'.scope g.inner).isSome
        procs := s.procs.set pid p' ++ spawned } g =
      RwLock.served (parks (s.procs.set pid p' ++ spawned)) (effect (s.procs.set pid p' ++ spawned))
        g (statusOf jobs) false
        (s.lock.held.filter (fun e => e.1.pid ≠ pid || (p'.scope e.1.inner).isSome) ++
          s.lock.queue) := rfl
  have hnot : g ∉ s.lock.held.map Prod.fst := fun hh => h.wf.not_waits_of_holds hh hw
  have hqueue : ∀ e ∈ s.lock.queue, ∀ st,
      parks (s.procs.set pid p' ++ spawned) st e.1 = parks s.procs st e.1 ∧
        effect (s.procs.set pid p' ++ spawned) st e.1 = effect s.procs st e.1 := by
    rintro ⟨g', m⟩ he
    obtain ⟨q, hq, -⟩ := h.scope g' m (List.mem_append_right _ he)
    exact parks_effect_congr ((getElem?_run_ne (h.queue_pid hp hheld he) hq).trans hq.symm)
  have hpaused : ∀ jobId config point, p = .training jobId config point → point.inPause →
      statusOf s.jobs jobId = some .paused := by
    rintro jobId config point rfl hin
    exact (h.parked pid jobId config point hp hin).2
  rcases h.status_run hp hheld hrun with ⟨hr, hreads, hsame⟩ | ⟨hwrite, hone⟩
  · -- a reader: what is parked beside the section stays, and its own guard is parked or dropped
    have hany : (s.lock.held.filter fun e => e.1.pid ≠ pid || (p'.scope e.1.inner).isSome).any
          (parks (s.procs.set pid p' ++ spawned) (statusOf s.jobs) ·.1) =
        s.lock.held.any (parks s.procs (statusOf s.jobs) ·.1) := by
      rw [List.any_filter, Bool.eq_iff_iff, List.any_eq_true, List.any_eq_true]
      refine exists_congr fun ⟨g', m⟩ => and_congr_right fun he => Bool.eq_iff_iff.1 ?_
      obtain ⟨q, hq, -⟩ := h.scope g' m (List.mem_append_left _ he)
      by_cases hgp : g'.pid = pid
      · have hpk := Proc.section_parks hrun hr hpaused
        obtain ⟨_, inner⟩ := g'
        subst hgp
        cases inner <;> simp [parks, getElem?_run_self hp, hp, ← hpk]
      · simp [parks, getElem?_run_ne hgp hq, hq, hgp]
    rw [hafter, hsame, System.served, RwLock.entries, RwLock.served_reads hreads hnot, ← hany,
      RwLock.served_reads (fun e he => hreads e (List.mem_of_mem_filter he))
        (fun hmem => hnot ((List.filter_sublist.map _).subset hmem))]
    exact RwLock.served_congr hqueue
  · -- a writer: it is the first entry of the replay
    have hdrop : (s.lock.held.filter fun e =>
        e.1.pid ≠ pid || (p'.scope e.1.inner).isSome) = [] := by
      simp [hone, Proc.section_scope_write hrun hwrite]
    have hne : (⟨pid, p.inner⟩ : Guard) ≠ g := fun heq => hnot (by simp [hone, heq])
    have heffect : effect s.procs (statusOf s.jobs) ⟨pid, p.inner⟩ = statusOf jobs := by
      simp [effect, hp, Proc.statusOf_section hrun]
    rw [hafter, hdrop, System.served, RwLock.entries, hone, List.nil_append, List.cons_append,
      RwLock.served, heffect]
    simp only [hne, decide_false, Bool.false_or, Bool.not_false, Bool.true_and, List.nil_append]
    exact RwLock.served_congr hqueue

/-- No step changes what the replay says of a waiting request, and the request waits on or is
granted. -/
theorem served_step (h : Inv s) {l : Label} (hstep : s.step l = some s') (hw : s.lock.Waits g) :
    s'.served g = s.served g ∧ (s'.lock.Waits g ∨ s'.lock.Holds g ∧ s.served g) := by
  cases l with
  | call c => exact (h.served_call hstep hw).imp_right .inl
  | wake pid => exact (h.served_wake hstep hw).imp_right .inl
  | grant => exact h.served_grant hstep hw
  | run pid now => exact (h.served_run hstep hw).imp_right .inl

/-- A waiting request that is ever granted is served. -/
theorem served_of_granted (h : Inv s) (hw : s.lock.Waits g) {es : List Label} {t : System}
    (hes : Lts.exec System.step s es = some t) (hg : t.lock.Holds g) : s.served g := by
  induction es generalizing s with
  | nil =>
    cases hes
    exact absurd hw (h.wf.not_waits_of_holds hg)
  | cons l es ih =>
    obtain ⟨u, hu, hes⟩ := Lts.exec_cons.1 hes
    obtain ⟨hsame, hw' | ⟨-, hserved⟩⟩ := h.served_step hu hw
    · rw [← hsame]
      exact ih (h.step _ _ _ hu) hw' hes
    · exact hserved

end Inv

/-! ## Progress -/

/-- The guard is not that of a check in the pause loop: its process has a section to run. -/
def active (procs : List Proc) (g : Guard) : Bool :=
  g.inner || !procs[g.pid]?.any fun
    | .training _ _ point => point.inPause
    | .call _ _ => false

/-- Grants and sections that are left to do, if nobody asks for the lock any more. -/
def System.work (s : System) : Nat :=
  2 * s.lock.queue.length + s.lock.held.countP (active s.procs ·.1)

/-- A process has a section to run under its guard, but for the outer one of a check in the pause
loop. -/
theorem Proc.section_of_scope {p : Proc} {inner : Bool} {m : Mode} (h : p.scope inner = some m)
    (hawake : inner = true ∨ ∀ jobId config point, p = .training jobId config point →
      point.inPause = false) (now : DateTime) (jobs : Jobs) :
    inner = p.inner ∧ ∃ r, p.section now jobs = some r := by
  cases p with
  | call c result =>
    cases result with
    | some => cases h
    | none =>
      cases inner with
      | true => cases h
      | false => exact ⟨rfl, _, rfl⟩
  | training jobId config point =>
    cases point with
    | check | update | complete =>
      cases inner with
      | true => cases h
      | false => exact ⟨rfl, _, rfl⟩
    | poll =>
      obtain rfl | hpause := hawake
      · exact ⟨rfl, _, rfl⟩
      · cases hpause _ _ _ rfl
    | pauseSleep =>
      obtain rfl | hpause := hawake
      · cases h
      · cases hpause _ _ _ rfl
    | epochStart | epochSleep | epochsDone | returned => cases h

/-- A guard that is not active is a read guard, parked in the pause loop. -/
theorem parks_of_not_active {procs : List Proc} {g : Guard} {p : Proc} {m : Mode}
    (hp : procs[g.pid]? = some p) (hscope : p.scope g.inner = some m)
    (hidle : active procs g = false) (st : Statuses) : m = .read ∧ parks procs st g := by
  rw [active, hp, Bool.or_eq_false_iff] at hidle
  obtain ⟨hinner, hpause⟩ := hidle
  rw [hinner] at hscope
  rw [parks, hp, hinner]
  cases p with
  | call => simp at hpause
  | training jobId config point =>
    cases point with
    | pauseSleep | poll =>
      cases hscope
      exact ⟨rfl, rfl⟩
    | check | epochStart | epochSleep | update | epochsDone | complete | returned =>
      simp [Point.inPause] at hpause

/-- The only scope a section leaves open is that of the check in the pause loop. -/
theorem Proc.section_open {p p' : Proc} {now : DateTime} {jobs jobs' : Jobs} {spawned : List Proc}
    (h : p.section now jobs = some (jobs', p', spawned)) {i : Bool} (hi : (p'.scope i).isSome) :
    i = false ∧ ∃ jobId config point, p' = .training jobId config point ∧ point.inPause := by
  cases p with
  | call c result =>
    cases result with
    | some => cases h
    | none => cases h; cases hi
  | training jobId config point =>
    cases point with
    | check | poll =>
      cases h
      revert hi
      split <;> cases i <;> intro hi <;> first | exact ⟨rfl, _, _, _, rfl, rfl⟩ | cases hi
    | update epoch =>
      cases h
      revert hi
      unfold Point.next
      split <;> intro hi <;> cases hi
    | complete => cases h; cases hi
    | epochStart | pauseSleep | epochSleep | epochsDone | returned => cases h

namespace Inv

variable {s s' : System} {g : Guard} {pid : Nat} {now : DateTime}

/-- The process of an active guard can run its section under it. -/
theorem run_active (h : Inv s) {m : Mode} (hg : (g, m) ∈ s.lock.held)
    (hact : active s.procs g) (now : DateTime) : ∃ s', s.step (.run g.pid now) = some s' ∧
      s'.work < s.work := by
  obtain ⟨p, hp, hscope⟩ := h.scope g m (List.mem_append_left _ hg)
  have hawake : g.inner = true ∨ ∀ jobId config point, p = .training jobId config point →
      point.inPause = false := by
    rw [active, hp, Bool.or_eq_true] at hact
    refine hact.imp_right fun hpause jobId config point htraining => ?_
    subst htraining
    simpa using hpause
  obtain ⟨hinner, ⟨jobs, p', spawned⟩, hrun⟩ := Proc.section_of_scope hscope hawake now s.jobs
  have hheld : s.lock.Holds ⟨g.pid, p.inner⟩ := List.mem_map.2 ⟨_, hg, by rw [← hinner]⟩
  refine ⟨_, System.step_run.2 ⟨p, jobs, p', spawned, hp, hheld, hrun, rfl⟩, ?_⟩
  have hclosed (inner : Bool) (hkeep : (p'.scope inner).isSome) :
      ¬ active (s.procs.set g.pid p' ++ spawned) ⟨g.pid, inner⟩ := by
    obtain ⟨rfl, _, _, _, rfl, hpause⟩ := Proc.section_open hrun hkeep
    simp [active, getElem?_run_self hp, hpause]
  refine Nat.add_lt_add_left (RwLock.countP_filter_lt ?_ hg hact ?_) _
  · rintro ⟨g', m'⟩ he hkeep hact'
    by_cases hgp : g'.pid = g.pid
    · obtain ⟨_, inner⟩ := g'
      subst hgp
      exact absurd hact' (hclosed inner (by simpa using hkeep))
    · obtain ⟨q, hq, -⟩ := h.scope g' m' (List.mem_append_left _ he)
      simpa [active, getElem?_run_ne hgp hq, hq] using hact'
  · exact fun hkeep => hclosed g.inner (by simpa using hkeep)

/-- While a served request waits, the lock grants a request or a section runs. -/
theorem progress (h : Inv s) (hw : s.lock.Waits g) (hserved : s.served g) :
    ∃ l s', s.step l = some s' ∧ s'.work < s.work := by
  by_cases hact : ∃ e ∈ s.lock.held, active s.procs e.1
  · obtain ⟨⟨g', m⟩, hg', hact⟩ := hact
    obtain ⟨s', hstep, hwork⟩ := h.run_active hg' hact ⟨0⟩
    exact ⟨_, s', hstep, hwork⟩
  · -- everybody who holds a guard sits in the pause loop
    have hparked : ∀ e ∈ s.lock.held, e.2 = .read ∧ parks s.procs (statusOf s.jobs) e.1 := by
      rintro ⟨g', m⟩ he
      obtain ⟨p, hp, hscope⟩ := h.scope g' m (List.mem_append_left _ he)
      have hidle : active s.procs g' = false := by simpa using fun hact' => hact ⟨_, he, hact'⟩
      exact parks_of_not_active hp hscope hidle _
    obtain ⟨⟨g₁, m⟩, queue, hq⟩ := List.exists_cons_of_ne_nil (l := s.lock.queue) (by
      rintro hq
      rw [RwLock.Waits, hq] at hw
      cases hw)
    have hadm : RwLock.admits s.lock.held m := by
      cases m with
      | read => exact RwLock.admits_read.2 fun e he => (hparked e he).1
      | write =>
        rw [RwLock.admits_write, List.eq_nil_iff_forall_not_mem]
        intro e he
        -- a write request behind a parked guard is not served
        have hany : s.lock.held.any (parks s.procs (statusOf s.jobs) ·.1) :=
          List.any_eq_true.2 ⟨e, he, (hparked e he).2⟩
        rw [System.served, RwLock.entries, hq, RwLock.served_reads (fun e he => (hparked e he).1)
          fun hmem => h.wf.not_waits_of_holds hmem hw, hany] at hserved
        cases hserved
    have hgrant := RwLock.grant_eq_some.2 ⟨g₁, m, queue, hq, hadm, rfl⟩
    refine ⟨.grant, _, Option.map_eq_some_iff.2 ⟨_, hgrant, rfl⟩, ?_⟩
    have hone : [(g₁, m)].countP (active s.procs ·.1) ≤ 1 := List.countP_le_length
    simp only [System.work, hq, List.length_cons, List.countP_append]
    omega

/-- A served request is granted in some continuation. -/
theorem granted_of_served (h : Inv s) (hw : s.lock.Waits g) (hserved : s.served g) :
    ∃ es t, Lts.exec System.step s es = some t ∧ t.lock.Holds g := by
  induction hn : s.work using Nat.strong_induction_on generalizing s with
  | _ n ih =>
    obtain ⟨l, s', hstep, hwork⟩ := h.progress hw hserved
    obtain ⟨hsame, hw' | ⟨hg, -⟩⟩ := h.served_step hstep hw
    · obtain ⟨es, t, hes, hg⟩ :=
        ih _ (hn ▸ hwork) (h.step _ _ _ hstep) hw' (hsame ▸ hserved) rfl
      exact ⟨l :: es, t, Lts.exec_cons.2 ⟨s', hstep, hes⟩, hg⟩
    · exact ⟨[l], s', Lts.exec_cons.2 ⟨s', hstep, rfl⟩, hg⟩

end Inv

/-- **Who gets the lock**: from any reachable state, a waiting request can be granted in some
continuation exactly when the replay serves it. -/
theorem granted_iff (s : System) (hs : Lts.Reachable System.step .init s) (g : Guard)
    (hw : s.lock.Waits g) :
    (∃ es t, Lts.exec System.step s es = some t ∧ t.lock.Holds g) ↔ s.served g :=
  ⟨fun ⟨_, _, hes, hg⟩ => (inv_of_reachable hs).served_of_granted hw hes hg,
    (inv_of_reachable hs).granted_of_served hw⟩

/-- A `cancel_job` that waits ahead of the check of a paused job gets the lock. -/
theorem granted_iff_cancel : ∃ s, Lts.exec System.step .init (startLabels ++
      [.call (.pauseJob ⟨1⟩), .grant, .run 3 ⟨2⟩, .call (.cancelJob ⟨1⟩), .wake 2]) = some s ∧
    s.lock.queue = [(⟨4, false⟩, .write), (⟨2, false⟩, .read)] ∧ s.served ⟨4, false⟩ ∧
    ((∃ es t, Lts.exec System.step s es = some t ∧ t.lock.Holds ⟨4, false⟩) ↔
      s.served ⟨4, false⟩) := by
  have hrun : (Lts.exec System.step .init (startLabels ++
      [.call (.pauseJob ⟨1⟩), .grant, .run 3 ⟨2⟩, .call (.cancelJob ⟨1⟩), .wake 2])).map
        (fun s => (s.lock.queue, s.served ⟨4, false⟩)) =
      some ([(⟨4, false⟩, .write), (⟨2, false⟩, .read)], true) := by decide +kernel
  obtain ⟨s, hs, heq⟩ := Option.map_eq_some_iff.1 hrun
  obtain ⟨hqueue, hserved⟩ := Prod.mk.inj heq
  exact ⟨s, hs, hqueue, hserved,
    granted_iff s ⟨_, hs⟩ ⟨4, false⟩ (by rw [RwLock.Waits, hqueue]; simp)⟩

/-- Job 1 is paused, its training finds that at the head of the epoch and sleeps in the pause loop:
a `resume_job` (call 4) waits for the lock, and no continuation grants it. -/
theorem resume_never_granted : ∃ s, Lts.exec System.step .init (startLabels ++
      [.call (.pauseJob ⟨1⟩), .grant, .run 3 ⟨2⟩, .wake 2, .grant, .run 2 ⟨3⟩,
        .call (.resumeJob ⟨1⟩)]) = some s ∧
    s.procs[4]? = some (.call (.resumeJob ⟨1⟩) none) ∧ statusOf s.jobs ⟨1⟩ = some .paused ∧
    s.lock.Waits ⟨4, false⟩ ∧
    ¬ ∃ es t, Lts.exec System.step s es = some t ∧ t.lock.Holds ⟨4, false⟩ := by
  have hrun : (Lts.exec System.step .init (startLabels ++
      [.call (.pauseJob ⟨1⟩), .grant, .run 3 ⟨2⟩, .wake 2, .grant, .run 2 ⟨3⟩,
        .call (.resumeJob ⟨1⟩)])).map
        (fun s => (s.procs[4]?, statusOf s.jobs ⟨1⟩, s.lock.queue, s.served ⟨4, false⟩)) =
      some (some (.call (.resumeJob ⟨1⟩) none), some .paused, [(⟨4, false⟩, .write)], false) := by
    decide +kernel
  obtain ⟨s, hs, heq⟩ := Option.map_eq_some_iff.1 hrun
  obtain ⟨hproc, hstatus, hqueue, hserved⟩ := by simpa only [Prod.mk.injEq] using heq
  have hw : s.lock.Waits ⟨4, false⟩ := by rw [RwLock.Waits, hqueue]; simp
  refine ⟨s, hs, hproc, hstatus, hw, fun ⟨es, t, hes, hg⟩ => ?_⟩
  have := (inv_of_reachable ⟨_, hs⟩).served_of_granted hw hes hg
  rw [hserved] at this
  cases this

end TensorGrid.FineTuning
