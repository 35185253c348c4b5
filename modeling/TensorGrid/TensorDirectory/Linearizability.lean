import TensorGrid.Lib.Linearization
import TensorGrid.TensorDirectory.Replies
import TensorGrid.TensorDirectory.Transfers

/-!
# Linearizability of the directory

Every interleaving of the calls, section by section, does to the directory what the calls would do
one after the other, and returns the same. A call commits when it comes out of its first section, if
it writes the entries there or returns, and else in its last one. In between the index is behind the
entries, but nobody sees it: `settles` is the directory with the missing part done.

`transfer_tensor` is the exception. Its check and its `add_placement` are two operations: the order
has the second, and the first saw the directory as it was at an earlier place (`Explained`).
-/

namespace TensorGrid.TensorDirectory

open Rust

/-- The directory as a sequential object. -/
def object : Lts.Object TensorDirectory Call Reply := ⟨Call.apply, Call.reply⟩

namespace Locking

/-- The call has written the entries, and not yet the index. -/
def Pending (s : Locking) (pid : Nat) (c : Call) : Prop :=
  s.procs[pid]? = some ⟨c, .second⟩ ∧ c.Writes

/-- The call has taken effect. -/
def Did (s : Locking) (pid : Nat) (c : Call) : Prop :=
  s.procs[pid]? = some ⟨c, .done⟩ ∨ s.Pending pid c

/-- The call that a step commits. -/
def commits (s : Locking) : Label → Option (Nat × Call)
  | .run pid =>
    match s.procs[pid]? with
    | some ⟨c, .first⟩ =>
      match (c.enter s.directory).2 with
      | .leave => some (pid, c)
      | .nest => if c.Writes then some (pid, c) else none
      | .continueWith _ => none
    | some ⟨c, .second⟩ => if c.Writes then none else some (pid, c)
    | _ => none
  | .start _ | .grant _ => none

/-- What a step returns, and to which call. -/
def returns (s : Locking) : Label → Option (Nat × Reply)
  | .run pid =>
    match s.procs[pid]? with
    | some ⟨c, .first⟩ => (c.enterReply s.directory).map (pid, ·)
    | some ⟨c, .second⟩ => some (pid, c.finishReply s.directory)
    | _ => none
  | .start _ | .grant _ => none

/-- The directory once the pending call, if any, has written the index. -/
def Settles (s : Locking) (d : TensorDirectory) : Prop :=
  (∀ pid c, s.Pending pid c → c.finish s.directory = d) ∧
    ((∀ pid c, ¬ s.Pending pid c) → s.directory = d)

/-- A call at its second lock still has its first guard. If it has not committed, its last section
is the whole call. -/
structure Nested (s : Locking) : Prop where
  guarded {pid : Nat} {c : Call} : s.procs[pid]? = some ⟨c, .second⟩ →
    (pid, c.first.2) ∈ (s.locks c.first.1).held
  whole {pid : Nat} {c : Call} : s.procs[pid]? = some ⟨c, .second⟩ →
    c.Writes ∨ ∀ d, c.finish d = c.apply d ∧ c.finishReply d = c.reply d

/-! ## Guards -/

section
variable {s t : Locking}

/-- A step that gives up no guard of another call. -/
theorem Nested.set (h : Nested s) {pid : Nat} {p' : Proc} {d : TensorDirectory}
    {locks : Lock → RwLock Nat} (hlt : pid < s.procs.length)
    (hheld : ∀ l i m, i ≠ pid → (i, m) ∈ (s.locks l).held → (i, m) ∈ (locks l).held)
    (hnew : ∀ c, p' = ⟨c, .second⟩ → (pid, c.first.2) ∈ (locks c.first.1).held ∧
      (c.Writes ∨ ∀ d, c.finish d = c.apply d ∧ c.finishReply d = c.reply d)) :
    Nested ⟨d, locks, s.procs.set pid p'⟩ := by
  have hcases : ∀ {i : Nat} {c : Call}, (s.procs.set pid p')[i]? = some ⟨c, .second⟩ →
      (pid, c.first.2) ∈ (locks c.first.1).held ∧ i = pid ∧
        (c.Writes ∨ ∀ d, c.finish d = c.apply d ∧ c.finishReply d = c.reply d) ∨
      i ≠ pid ∧ s.procs[i]? = some ⟨c, .second⟩ := by
    intro i c hi
    by_cases hpid : i = pid
    · subst hpid
      rw [List.getElem?_set_self hlt] at hi
      obtain ⟨hguard, hwhole⟩ := hnew c (Option.some.inj hi)
      exact .inl ⟨hguard, rfl, hwhole⟩
    · rw [List.getElem?_set_ne (Ne.symm hpid)] at hi
      exact .inr ⟨hpid, hi⟩
  refine ⟨fun {i c} hi => ?_, fun {i c} hi => ?_⟩
  · obtain ⟨hguard, rfl, -⟩ | ⟨hpid, hi⟩ := hcases hi
    · exact hguard
    · exact hheld _ _ _ hpid (h.guarded hi)
  · obtain ⟨-, -, hwhole⟩ | ⟨-, hi⟩ := hcases hi
    · exact hwhole
    · exact h.whole hi

theorem Nested.step (hl : Located s) (h : Nested s) (hs : s.Step t) : Nested t := by
  have hrequest : ∀ pid lm l i m, i ≠ pid → (i, m) ∈ (s.locks l).held →
      (i, m) ∈ (s.request pid lm l).held := by
    intro pid lm l i m _ hi
    by_cases hlm : l = lm.1
    · subst hlm
      simpa [Locking.request, RwLock.request] using hi
    · simpa [Locking.request, hlm] using hi
  have hrelease : ∀ pid l i m, i ≠ pid → (i, m) ∈ (s.locks l).held →
      (i, m) ∈ (s.release pid l).held := fun pid l i m hne hi =>
    List.mem_filter.2 ⟨hi, by simpa using hne⟩
  cases hs with
  | start hp =>
    exact h.set (List.getElem?_eq_some_iff.1 hp).1 (hrequest _ _) fun c' hc' => by cases hc'
  | @grant l lock hg =>
    obtain ⟨i, m, queue, -, -, rfl⟩ := RwLock.grant_eq_some.1 hg
    refine ⟨fun {pid c} hp => ?_, h.whole⟩
    have hheld := h.guarded hp
    by_cases hlock : c.first.1 = l
    · subst hlock
      simp only [Function.update_self]
      exact List.mem_append_left _ hheld
    · simpa only [Function.update_of_ne hlock] using hheld
  | leave hp =>
    exact h.set (List.getElem?_eq_some_iff.1 hp).1 (hrelease _) fun c' hc' => by cases hc'
  | @nest pid c d hp hh he =>
    refine h.set (List.getElem?_eq_some_iff.1 hp).1 (hrequest _ _) fun c' hc' => ?_
    cases hc'
    constructor
    · -- the guard that the call has just run under
      obtain ⟨⟨i, m⟩, hm, rfl⟩ := List.mem_map.1 hh
      obtain ⟨q, hq, hlast | hout⟩ := hl.held _ i m hm
      · cases hp.symm.trans hq
        have hm' : m = c.first.2 := (congrArg Prod.snd (Option.some.inj hlast)).symm
        rw [← hm']
        simpa [Locking.request, c.first_ne_second] using hm
      · cases hp.symm.trans hq
        cases hout.1
    · have henters := enters s.directory c
      rw [he] at henters
      cases henters with
      | writes hwrites => exact .inl hwrites
      | reads _ hwhole => exact .inr hwhole
  | continueWith hp =>
    exact h.set (List.getElem?_eq_some_iff.1 hp).1 (hrelease _) fun c' hc' => by cases hc'
  | finish hp =>
    exact h.set (List.getElem?_eq_some_iff.1 hp).1 (hrelease _) fun c' hc' => by cases hc'

/-- The guard of a pending call excludes all other calls from the entries. -/
theorem Nested.exclusive (hl : Located s) (h : Nested s) {pid pid' : Nat} {c : Call}
    (hholds : s.Holds pid .tensors) (hpending : s.Pending pid' c) : pid' = pid := by
  obtain ⟨hp, hwrites⟩ := hpending
  have hheld := h.guarded hp
  rw [show c.first = (.tensors, .write) from hwrites] at hheld
  have halone := (hl.wf .tensors).exclusive pid' hheld
  obtain ⟨⟨i, m⟩, hm, rfl⟩ := List.mem_map.1 hholds
  rw [halone] at hm
  exact (congrArg Prod.fst (List.mem_singleton.1 hm)).symm

theorem holds_of_run {pid : Nat} {p : Proc} {lm : Lock × Mode}
    (h : s.step (.run pid) = some t) (hp : s.procs[pid]? = some p) (hlast : p.last = some lm) :
    s.Holds pid lm.1 := by
  obtain ⟨c, ph⟩ := p
  rw [Locking.step, hp] at h
  cases ph with
  | start | done => cases hlast
  | first | second =>
    cases hlast
    simp only at h
    split at h
    next hh => exact hh
    next => cases h

end

/-! ## One step -/

/-- What a step does to the directory that the state stands for. -/
inductive Turn (s t : Locking) (lab : Label) : Prop
  | silent : s.commits lab = none → s.returns lab = none → t.directory = s.directory →
      (∀ k c, t.Did k c ↔ s.Did k c) → (∀ k c, t.Pending k c ↔ s.Pending k c) → Turn s t lab
  /-- The whole call at once. -/
  | whole {pid : Nat} {c : Call} : (∀ k c, ¬ s.Pending k c) → (∀ c, ¬ s.Did pid c) →
      s.commits lab = some (pid, c) → s.returns lab = some (pid, c.reply s.directory) →
      t.directory = c.apply s.directory → (∀ k c', t.Did k c' ↔ s.Did k c' ∨ (pid, c) = (k, c')) →
      (∀ k c, ¬ t.Pending k c) → Turn s t lab
  /-- A write without its index. -/
  | half {pid : Nat} {c : Call} : (∀ k c, ¬ s.Pending k c) → (∀ c, ¬ s.Did pid c) →
      s.commits lab = some (pid, c) → s.returns lab = none →
      c.finish t.directory = c.apply s.directory → c.reply s.directory = .unit (.ok ()) →
      (∀ k c', t.Did k c' ↔ s.Did k c' ∨ (pid, c) = (k, c')) →
      (∀ k c', t.Pending k c' ↔ (pid, c) = (k, c')) → Turn s t lab
  /-- The index of a pending write. -/
  | rest {pid : Nat} {c : Call} : s.Pending pid c → (∀ k c', s.Pending k c' → k = pid) →
      s.commits lab = none → s.returns lab = some (pid, .unit (.ok ())) →
      t.directory = c.finish s.directory → (∀ k c', t.Did k c' ↔ s.Did k c') →
      (∀ k c, ¬ t.Pending k c) → Turn s t lab

section
variable {s t : Locking} {pid : Nat} {p p' : Proc}

theorem pending_set (hp : s.procs[pid]? = some p) (hprocs : t.procs = s.procs.set pid p') (k : Nat)
    (c : Call) : t.Pending k c ↔
      k ≠ pid ∧ s.Pending k c ∨ k = pid ∧ p' = ⟨c, .second⟩ ∧ c.Writes := by
  unfold Pending
  rw [hprocs]
  by_cases hk : k = pid
  · subst hk
    rw [List.getElem?_set_self (List.getElem?_eq_some_iff.1 hp).1]
    simp
  · rw [List.getElem?_set_ne (Ne.symm hk)]
    simp [hk]

theorem did_set (hp : s.procs[pid]? = some p) (hprocs : t.procs = s.procs.set pid p') (k : Nat)
    (c : Call) : t.Did k c ↔ k ≠ pid ∧ s.Did k c ∨
      k = pid ∧ (p' = ⟨c, .done⟩ ∨ p' = ⟨c, .second⟩ ∧ c.Writes) := by
  unfold Did
  rw [pending_set hp hprocs, hprocs]
  by_cases hk : k = pid
  · subst hk
    rw [List.getElem?_set_self (List.getElem?_eq_some_iff.1 hp).1]
    simp
  · rw [List.getElem?_set_ne (Ne.symm hk)]
    simp [hk]

theorem did_at (hp : s.procs[pid]? = some p) (c : Call) :
    s.Did pid c ↔ p = ⟨c, .done⟩ ∨ p = ⟨c, .second⟩ ∧ c.Writes := by
  simp [Did, Pending, hp]

/-- A step that leaves its call uncommitted. -/
theorem Turn.of_uncommitted {lab : Label} (hp : s.procs[pid]? = some p)
    (hprocs : t.procs = s.procs.set pid p') (hdirectory : t.directory = s.directory)
    (hcommits : s.commits lab = none) (hreturns : s.returns lab = none)
    (hold : ∀ c, ¬ (p = ⟨c, .done⟩ ∨ p = ⟨c, .second⟩ ∧ c.Writes))
    (hnew : ∀ c, ¬ (p' = ⟨c, .done⟩ ∨ p' = ⟨c, .second⟩ ∧ c.Writes)) : Turn s t lab := by
  refine .silent hcommits hreturns hdirectory (fun k c => ?_) fun k c => ?_
  · rw [did_set hp hprocs]
    by_cases hk : k = pid
    · subst hk
      simp [did_at hp, hold c, hnew c]
    · simp [hk]
  · rw [pending_set hp hprocs]
    by_cases hk : k = pid
    · subst hk
      have hno := hold c
      have hno' := hnew c
      simp only [Pending, hp, Option.some.injEq]
      tauto
    · simp [hk]

/-- Committing or having committed, for the call that moves. -/
theorem did_set_of_commit (hp : s.procs[pid]? = some p) {c : Call}
    (hprocs : t.procs = s.procs.set pid p') (hold : ∀ c, ¬ s.Did pid c)
    (hnew : p' = ⟨c, .done⟩ ∨ p' = ⟨c, .second⟩ ∧ c.Writes) (k : Nat) (c' : Call) :
    t.Did k c' ↔ s.Did k c' ∨ (pid, c) = (k, c') := by
  rw [did_set hp hprocs]
  by_cases hk : k = pid
  · subst hk
    have hno := hold c'
    rcases hnew with rfl | ⟨rfl, hwrites⟩
    · simp [hno]
    · simp only [ne_eq, not_true, true_and, false_or, hno, Proc.mk.injEq, and_true, reduceCtorEq,
        and_false, Prod.mk.injEq]
      exact ⟨fun h => h.1, fun h => ⟨h, h ▸ hwrites⟩⟩
  · simp [hk, Ne.symm hk]

/-- Whoever holds the lock of the entries and has not committed is the only one who could have. -/
theorem not_pending_of_holds (hl : Located s) (hn : Nested s) (hholds : s.Holds pid .tensors)
    (hold : ∀ c, ¬ s.Did pid c) (k : Nat) (c : Call) : ¬ s.Pending k c := by
  intro hpending
  obtain rfl := hn.exclusive hl hholds hpending
  exact hold c (.inr hpending)

/-- A section that is the whole call. -/
theorem Turn.of_whole (hp : s.procs[pid]? = some p) {c : Call}
    (hprocs : t.procs = s.procs.set pid ⟨c, .done⟩) (hold : ∀ c, ¬ s.Did pid c)
    (halone : ∀ k c, ¬ s.Pending k c) (hcommits : s.commits (.run pid) = some (pid, c))
    (hreturns : s.returns (.run pid) = some (pid, c.reply s.directory))
    (hdirectory : t.directory = c.apply s.directory) : Turn s t (.run pid) := by
  refine .whole halone hold hcommits hreturns hdirectory
    (did_set_of_commit hp hprocs hold (.inl rfl)) fun k c' => ?_
  simp [pending_set hp hprocs, halone]

/-- A first section, which writes, reads or checks, or is the whole call. -/
theorem Turn.of_first (hl : Located s) (hn : Nested s) (h : s.step (.run pid) = some t) {c : Call}
    {after : After} (hp : s.procs[pid]? = some ⟨c, .first⟩)
    (henter : c.enter s.directory = (t.directory, after))
    (hprocs : t.procs = s.procs.set pid (after.proc c)) : Turn s t (.run pid) := by
  have hold : ∀ c, ¬ s.Did pid c := fun c => by simp [did_at hp]
  have hholds := holds_of_run h hp rfl
  have halone (htensors : c.first.1 = .tensors) :=
    not_pending_of_holds hl hn (htensors ▸ hholds) hold
  have henters := enters s.directory c
  rw [henter] at henters
  generalize hafter : (t.directory, after) = da at henters
  cases henters with
  | leaves htensors hreply =>
    obtain ⟨hdirectory, rfl⟩ := Prod.mk.inj hafter
    refine .of_whole hp hprocs hold (halone htensors) ?_ ?_ hdirectory
    · simp [commits, hp, henter]
    · simp [returns, hp, hreply]
  | writes hwrites hwhole hok hreply =>
    obtain ⟨hdirectory, rfl⟩ := Prod.mk.inj hafter
    have hnone := halone (congrArg Prod.fst hwrites)
    refine .half hnone hold ?_ ?_ (hdirectory ▸ hwhole) hok
      (did_set_of_commit hp hprocs hold (.inr ⟨rfl, hwrites⟩)) fun k c' => ?_
    · simp [commits, hp, henter, hwrites]
    · simp [returns, hp, hreply]
    · rw [pending_set hp hprocs]
      simp only [hnone, and_false, false_or, After.proc, Proc.mk.injEq, and_true, Prod.mk.injEq]
      constructor
      · rintro ⟨hk, hc, -⟩
        exact ⟨hk.symm, hc⟩
      · rintro ⟨hk, hc⟩
        exact ⟨hk.symm, hc, hc ▸ hwrites⟩
  | reads hwrites _ hreply =>
    obtain ⟨hdirectory, rfl⟩ := Prod.mk.inj hafter
    refine .of_uncommitted hp hprocs hdirectory ?_ ?_ (by simp) fun c' => ?_
    · simp [commits, hp, henter, hwrites]
    · simp [returns, hp, hreply]
    · simp only [After.proc, Proc.mk.injEq, reduceCtorEq, and_false, and_true, false_or, not_and]
      exact fun hc => hc ▸ hwrites
  | checks htransfer hplacement hreply =>
    obtain ⟨hdirectory, rfl⟩ := Prod.mk.inj hafter
    refine .of_uncommitted hp hprocs hdirectory ?_ ?_ (by simp) (by simp [After.proc])
    · simp [commits, hp, henter]
    · simp [returns, hp, hreply]

/-- The second section of a call that has written the entries. -/
theorem Turn.of_write (hl : Located s) (hn : Nested s) {c : Call}
    (hp : s.procs[pid]? = some ⟨c, .second⟩) (hfinish : t.directory = c.finish s.directory)
    (hprocs : t.procs = s.procs.set pid ⟨c, .done⟩) (hwrites : c.Writes) :
    Turn s t (.run pid) := by
  have honly : ∀ k c', s.Pending k c' → k = pid := by
    intro k c' hpending
    have hheld := List.mem_map_of_mem (f := Prod.fst) (hn.guarded hp)
    rw [show c.first = (.tensors, .write) from hwrites] at hheld
    exact hn.exclusive hl hheld hpending
  refine .rest ⟨hp, hwrites⟩ honly ?_ ?_ hfinish (fun k c' => ?_) fun k c' hpending => ?_
  · simp [commits, hp, hwrites]
  · simp [returns, hp, hwrites.finishReply]
  · rw [did_set hp hprocs]
    by_cases hk : k = pid
    · subst hk
      simp only [did_at hp, ne_eq, not_true, false_and, true_and, false_or, Proc.mk.injEq,
        and_true, reduceCtorEq, and_false, or_false]
      exact ⟨fun hc => ⟨hc, hc ▸ hwrites⟩, fun hc => hc.1⟩
    · simp [hk]
  · rw [pending_set hp hprocs] at hpending
    obtain ⟨hk, hpending⟩ | ⟨-, hno, -⟩ := hpending
    · exact hk (honly k c' hpending)
    · cases hno

/-- The second section of a call that has only read in the first. -/
theorem Turn.of_read (hl : Located s) (hn : Nested s) (h : s.step (.run pid) = some t) {c : Call}
    (hp : s.procs[pid]? = some ⟨c, .second⟩) (hfinish : t.directory = c.finish s.directory)
    (hprocs : t.procs = s.procs.set pid ⟨c, .done⟩) (hwrites : ¬ c.Writes) :
    Turn s t (.run pid) := by
  obtain ⟨happly, hreply⟩ := (hn.whole hp).resolve_left hwrites s.directory
  have hold : ∀ c, ¬ s.Did pid c := by
    intro c'
    simp only [did_at hp, Proc.mk.injEq, reduceCtorEq, and_false, and_true, false_or, not_and]
    exact fun hc => hc ▸ hwrites
  have hholds : s.Holds pid .tensors := by
    rcases c.first_or_second with htensors | htensors
    · rw [← htensors]
      exact List.mem_map_of_mem (f := Prod.fst) (hn.guarded hp)
    · rw [← htensors]
      exact holds_of_run h hp rfl
  refine .of_whole hp hprocs hold (not_pending_of_holds hl hn hholds hold) ?_ ?_
    (hfinish.trans happly)
  · simp [commits, hp, hwrites]
  · simp [returns, hp, hreply]

end

/-- **What one step does.** -/
theorem turn {s t : Locking} (hl : Located s) (hn : Nested s) {lab : Label}
    (h : s.step lab = some t) : Turn s t lab := by
  cases lab with
  | start pid =>
    rw [Locking.step] at h
    split at h
    next c hp =>
      cases h
      exact .of_uncommitted hp rfl rfl rfl rfl (by simp) (by simp)
    next => cases h
  | grant l =>
    obtain ⟨lock, -, rfl⟩ := Option.map_eq_some_iff.1 h
    exact .silent rfl rfl rfl (fun _ _ => Iff.rfl) fun _ _ => Iff.rfl
  | run pid =>
    obtain ⟨c, ⟨hp, after, henter, hprocs⟩ | ⟨hp, hfinish, hprocs⟩⟩ := Locking.run_cases h
    · exact .of_first hl hn h hp henter hprocs
    · by_cases hwrites : c.Writes
      · exact .of_write hl hn hp hfinish hprocs hwrites
      · exact .of_read hl hn h hp hfinish hprocs hwrites

/-! ## The simulation -/

/-- The state stands for the directory `d`. -/
structure StandsFor (s : Locking) (d : TensorDirectory) : Prop where
  located : Located s
  nested : Nested s
  settles : Settles s d

/-- A pending call is to return `Ok(())`. -/
def Owes (s : Locking) (pid : Nat) (r : Reply) : Prop :=
  r = .unit (.ok ()) ∧ ∃ c, s.Pending pid c

theorem StandsFor.directory {s : Locking} {d : TensorDirectory} (h : StandsFor s d)
    (hnone : ∀ pid c, ¬ s.Pending pid c) : s.directory = d :=
  h.settles.2 hnone

theorem StandsFor.turn {s t : Locking} {d : TensorDirectory} (h : StandsFor s d) {lab : Label}
    (hstep : s.step lab = some t) : Turn s t lab :=
  Locking.turn h.located h.nested hstep

theorem StandsFor.of_settles {s t : Locking} {d d' : TensorDirectory} (h : StandsFor s d)
    {lab : Label} (hstep : s.step lab = some t) (hd : Settles t d') : StandsFor t d' :=
  have hs := step_iff.1 ⟨lab, hstep⟩
  ⟨h.located.step hs, h.nested.step h.located hs, hd⟩

/-- **The locks simulate the object.** -/
theorem linearizes : Lts.Linearizes step object commits returns StandsFor Did Owes where
  silent {s t lab d} h hstep hcommits := by
    refine h.of_settles hstep ?_
    cases h.turn hstep with
    | silent _ _ hdirectory _ hpending =>
      simp only [Settles, hdirectory, hpending]
      exact h.settles
    | whole _ _ hc => cases hcommits.symm.trans hc
    | half _ _ hc => cases hcommits.symm.trans hc
    | rest hpending _ _ _ hdirectory _ hnone =>
      refine ⟨fun k c hk => (hnone k c hk).elim, fun _ => ?_⟩
      rw [hdirectory]
      exact h.settles.1 _ _ hpending
  commit {s t lab d k o} h hstep hcommits := by
    cases h.turn hstep with
    | silent hc => cases hcommits.symm.trans hc
    | rest _ _ hc => cases hcommits.symm.trans hc
    | whole hnone hold hc _ hdirectory _ hnone' =>
      cases hcommits.symm.trans hc
      refine ⟨h.of_settles hstep ⟨fun k c hk => (hnone' k c hk).elim, fun _ => ?_⟩, hold⟩
      rw [hdirectory, h.directory hnone]
      rfl
    | half hnone hold hc _ hfinish _ _ hpending =>
      cases hcommits.symm.trans hc
      refine ⟨h.of_settles hstep ⟨fun k' c hk => ?_, fun hno => ?_⟩, hold⟩
      · cases (hpending k' c).1 hk
        rw [hfinish, h.directory hnone]
        rfl
      · exact (hno _ _ ((hpending k o).2 rfl)).elim
  did {s t lab d} h hstep k o := by
    cases h.turn hstep with
    | silent hc _ _ hdid | rest _ _ hc _ _ hdid => simp [hc, hdid]
    | whole _ _ hc _ _ hdid | half _ _ hc _ _ _ hdid => simp only [hc, hdid, Option.some.injEq]
  owes {s t lab d} h hstep k r := by
    rintro ⟨rfl, c, hk⟩
    cases h.turn hstep with
    | silent _ _ _ _ hpending => exact .inl ⟨rfl, c, (hpending k c).1 hk⟩
    | whole _ _ _ _ _ _ hnone | rest _ _ _ _ _ _ hnone => exact (hnone k c hk).elim
    | half hnone _ hc _ _ hok _ hpending =>
      cases (hpending k c).1 hk
      refine .inr ⟨c, hc, ?_⟩
      rw [← h.directory hnone]
      exact hok.symm
  returned {s t lab d} h hstep k r hreturns := by
    cases h.turn hstep with
    | silent _ hr | half _ _ _ hr => cases hreturns.symm.trans hr
    | whole hnone _ hc hr =>
      cases hreturns.symm.trans hr
      refine .inr ⟨_, hc, ?_⟩
      rw [← h.directory hnone]
      rfl
    | rest hpending _ _ hr =>
      cases hreturns.symm.trans hr
      exact .inl ⟨rfl, _, hpending⟩

theorem standsFor_init (d : TensorDirectory) (calls : List Call) :
    StandsFor (init d calls) d := by
  have hstart : ∀ (pid : Nat) (c : Call), (init d calls).procs[pid]? ≠ some ⟨c, .second⟩ := by
    intro pid c hp
    rw [init, List.getElem?_map, Option.map_eq_some_iff] at hp
    obtain ⟨c', -, hp⟩ := hp
    cases hp
  have hnested : Nested (init d calls) :=
    ⟨fun hp => (hstart _ _ hp).elim, fun hp => (hstart _ _ hp).elim⟩
  exact ⟨.of_reachable (.refl _), hnested, fun pid c hp => (hstart _ _ hp.1).elim, fun _ => rfl⟩

theorem not_did_init (d : TensorDirectory) (calls : List Call) (pid : Nat) (c : Call) :
    ¬ (init d calls).Did pid c := by
  rw [Did, Pending, init, List.getElem?_map]
  cases calls[pid]? <;> simp

theorem not_owes_init (d : TensorDirectory) (calls : List Call) (pid : Nat) (r : Reply) :
    ¬ (init d calls).Owes pid r :=
  fun ⟨_, c, hc⟩ => not_did_init d calls pid c (.inr hc)

/-! ## Transfers -/

/-- The call is the one that was made, or the second half of a transfer whose check saw the
directory as it was after a beginning of the history. -/
def Explained (d : TensorDirectory) (calls : List Call) (H : List (Nat × Call)) (pid : Nat)
    (c : Call) : Prop :=
  calls[pid]? = some c ∨ ∃ t a b data p pre post,
    calls[pid]? = some (.op (.transferTensor t a b data)) ∧ c = .op (.addPlacement t p) ∧
    H = pre ++ post ∧ transferPlacement (object.run d pre) t a b data = some p

theorem Explained.append {d : TensorDirectory} {calls : List Call} {H : List (Nat × Call)}
    {pid : Nat} {c : Call} (h : Explained d calls H pid c) (H' : List (Nat × Call)) :
    Explained d calls (H ++ H') pid c := by
  refine h.imp_right ?_
  rintro ⟨t, a, b, data, p, pre, post, hcall, hc, rfl, hp⟩
  exact ⟨t, a, b, data, p, pre, post ++ H', hcall, hc, by simp, hp⟩

/-- The history of a run. -/
def history (d : TensorDirectory) (calls : List Call) (labs : List Label) : List (Nat × Call) :=
  Lts.trace step commits (init d calls) labs

section
variable {d : TensorDirectory} {calls : List Call} {s t : Locking} {labs : List Label}

theorem call_of_commits {lab : Label} {pid : Nat} {c : Call} (h : s.commits lab = some (pid, c)) :
    ∃ p, s.procs[pid]? = some p ∧ p.call = c := by
  cases lab with
  | run k =>
    rw [commits] at h
    split at h
    next c' hp =>
      split at h
      · cases h
        exact ⟨_, hp, rfl⟩
      · split at h <;> cases h
        exact ⟨_, hp, rfl⟩
      · cases h
    next c' hp =>
      split at h <;> cases h
      exact ⟨_, hp, rfl⟩
    next => cases h
  | start | grant => cases h

/-- A step that moves a call on as the same call, or checks a transfer. -/
theorem call_cases {lab : Label} (hstep : s.step lab = some t) {pid : Nat} {p' : Proc}
    (hp' : t.procs[pid]? = some p') : (∃ p, s.procs[pid]? = some p ∧ p.call = p'.call) ∨
      ∃ u a b data q, s.procs[pid]? = some ⟨.op (.transferTensor u a b data), .first⟩ ∧
        lab = .run pid ∧ p'.call = .op (.addPlacement u q) ∧
        transferPlacement s.directory u a b data = some q := by
  have hset : ∀ {k : Nat} {p q : Proc}, s.procs[k]? = some p → t.procs = s.procs.set k q →
      p.call = q.call → ∃ p, s.procs[pid]? = some p ∧ p.call = p'.call := by
    intro k p q hp hprocs hcall
    rw [hprocs] at hp'
    by_cases hk : pid = k
    · subst hk
      rw [List.getElem?_set_self (List.getElem?_eq_some_iff.1 hp).1] at hp'
      exact ⟨p, hp, hcall.trans (congrArg Proc.call (Option.some.inj hp'))⟩
    · rw [List.getElem?_set_ne (Ne.symm hk)] at hp'
      exact ⟨p', hp', rfl⟩
  cases lab with
  | start k =>
    rw [Locking.step] at hstep
    split at hstep
    next c hp =>
      cases hstep
      exact .inl (hset hp rfl rfl)
    next => cases hstep
  | grant l =>
    obtain ⟨lock, -, rfl⟩ := Option.map_eq_some_iff.1 hstep
    exact .inl ⟨p', hp', rfl⟩
  | run k =>
    obtain ⟨c, ⟨hp, after, henter, hprocs⟩ | ⟨hp, -, hprocs⟩⟩ := run_cases hstep
    · have henters := enters s.directory c
      rw [henter] at henters
      generalize hafter : (t.directory, after) = da at henters
      cases henters with
      | leaves | writes | reads =>
        obtain ⟨-, rfl⟩ := Prod.mk.inj hafter
        exact .inl (hset hp hprocs rfl)
      | @checks u a b data q hc hq =>
        obtain ⟨-, rfl⟩ := Prod.mk.inj hafter
        by_cases hk : pid = k
        · subst hk
          rw [hprocs, List.getElem?_set_self (List.getElem?_eq_some_iff.1 hp).1] at hp'
          subst hc
          exact .inr ⟨u, a, b, data, q, hp, rfl, by rw [← Option.some.inj hp']; rfl, hq⟩
        · rw [hprocs, List.getElem?_set_ne (Ne.symm hk)] at hp'
          exact .inl ⟨p', hp', rfl⟩
    · exact .inl (hset hp hprocs rfl)

theorem explained (h : Lts.exec step (init d calls) labs = some s) {pid : Nat} {p : Proc}
    (hp : s.procs[pid]? = some p) : Explained d calls (history d calls labs) pid p.call := by
  refine Lts.exec_induction (P := fun labs (s : Locking) => ∀ pid p, s.procs[pid]? = some p →
    Explained d calls (history d calls labs) pid p.call) (fun pid p hp => ?_)
    (fun labs s lab t hlabs ih hstep pid p' hp' => ?_) h pid p hp
  · rw [init, List.getElem?_map, Option.map_eq_some_iff] at hp
    obtain ⟨c, hc, rfl⟩ := hp
    exact .inl hc
  · rw [history, Lts.trace_concat hlabs hstep]
    obtain ⟨p, hp, hcall⟩ | ⟨u, a, b, data, q, hp, rfl, hcall, hq⟩ := call_cases hstep hp'
    · rw [← hcall]
      exact (ih pid p hp).append _
    · -- nobody has the entries in hand while a transfer checks them
      have hs := linearizes.exec (standsFor_init d calls) hlabs
      have hnone : ∀ k c, ¬ s.Pending k c := by
        intro k c hpending
        obtain rfl := hs.nested.exclusive hs.located (holds_of_run hstep hp rfl) hpending
        cases hp.symm.trans hpending.1
      rw [hs.directory hnone] at hq
      obtain hmade | ⟨_, _, _, _, _, _, _, _, hc, _⟩ := ih pid _ hp
      · exact .inr ⟨u, a, b, data, q, _, _, hmade, hcall, rfl, hq⟩
      · cases hc

/-- Each operation of the history is explained by what comes before it. -/
theorem explained_history (h : Lts.exec step (init d calls) labs = some s)
    {pre post : List (Nat × Call)} {pid : Nat} {c : Call}
    (hH : history d calls labs = pre ++ (pid, c) :: post) : Explained d calls pre pid c := by
  refine Lts.exec_induction (P := fun labs (_ : Locking) => ∀ pre post pid c,
    history d calls labs = pre ++ (pid, c) :: post → Explained d calls pre pid c)
    (fun pre post pid c hH => ?_) (fun labs s lab t hlabs ih hstep pre post pid c hH => ?_)
    h pre post pid c hH
  · simp [history, Lts.trace, Lts.observe] at hH
  · rw [history, Lts.trace_concat hlabs hstep] at hH
    cases hc : s.commits lab with
    | none =>
      rw [hc, Option.toList_none, List.append_nil] at hH
      exact ih pre post pid c hH
    | some x =>
      rw [hc, Option.toList_some] at hH
      rcases List.eq_nil_or_concat post with rfl | ⟨post, y, rfl⟩
      · -- the operation of this step
        obtain ⟨rfl, hx⟩ := List.append_inj' hH rfl
        obtain ⟨p, hp, rfl⟩ := call_of_commits (hc.trans (congrArg some (List.singleton_inj.1 hx)))
        exact explained hlabs hp
      · rw [List.concat_eq_append, ← List.cons_append, ← List.append_assoc] at hH
        exact ih pre post pid c (List.append_inj' hH rfl).1

end

/-! ## Replies -/

/-- The call has returned. -/
def Finished (s : Locking) (pid : Nat) : Prop := ∃ c, s.procs[pid]? = some ⟨c, .done⟩

theorem finished_iff (s : Locking) (pid : Nat) :
    s.Finished pid ↔ ∃ c, s.Did pid c ∧ ¬ s.Pending pid c := by
  constructor
  · rintro ⟨c, hc⟩
    refine ⟨c, .inl hc, fun hpending => ?_⟩
    cases hc.symm.trans hpending.1
  · rintro ⟨c, hc | hc, hno⟩
    · exact ⟨c, hc⟩
    · exact (hno hc).elim

/-- A call finishes with the step that returns. -/
theorem finished_step {s t : Locking} {d : TensorDirectory} {lab : Label} (h : StandsFor s d)
    (hstep : s.step lab = some t) (pid : Nat) :
    (t.Finished pid ↔ s.Finished pid ∨ ∃ r, s.returns lab = some (pid, r)) ∧
      ∀ r, s.returns lab = some (pid, r) → ¬ s.Finished pid := by
  simp only [finished_iff]
  cases h.turn hstep with
  | silent _ hr _ hdid hpending => simp [hr, hdid, hpending]
  | whole hnone hold _ hr _ hdid hnone' =>
    refine ⟨?_, fun r hr' => ?_⟩
    · simp only [hnone, hnone', hr, hdid, not_false_eq_true, and_true, exists_or, Option.some.injEq,
        Prod.mk.injEq, exists_and_left, exists_eq', and_true]
    · cases hr.symm.trans hr'
      rintro ⟨c, hc, -⟩
      exact hold c hc
  | half hnone hold _ hr _ _ hdid hpending =>
    refine ⟨?_, fun r hr' => by cases hr.symm.trans hr'⟩
    simp only [hnone, hr, hdid, hpending, not_false_eq_true, and_true, reduceCtorEq, exists_false,
      or_false]
    refine exists_congr fun c' => ⟨fun ⟨hc, hno⟩ => hc.resolve_right hno, fun hc => ⟨.inl hc, ?_⟩⟩
    rintro ⟨⟩
    exact hold _ hc
  | @rest k c hpending honly _ hr _ hdid hnone =>
    constructor
    · simp only [hnone, hr, hdid, not_false_eq_true, and_true, Option.some.injEq, Prod.mk.injEq,
        exists_and_left, exists_eq', and_true]
      constructor
      · rintro ⟨c', hc'⟩
        by_cases hk : k = pid
        · exact .inr hk
        · exact .inl ⟨c', hc', fun hp => hk (honly pid c' hp).symm⟩
      · rintro (⟨c', hc', -⟩ | rfl)
        · exact ⟨c', hc'⟩
        · exact ⟨c, .inr hpending⟩
    · rintro r hr'
      cases hr.symm.trans hr'
      rintro ⟨c', hc' | hc', hno⟩
      · cases hc'.symm.trans hpending.1
      · exact hno hc'

/-- What a run returns. -/
def replies (d : TensorDirectory) (calls : List Call) (labs : List Label) : List (Nat × Reply) :=
  Lts.trace step returns (init d calls) labs

section
variable {d : TensorDirectory} {calls : List Call} {s : Locking} {labs : List Label}
  (h : Lts.exec step (init d calls) labs = some s)
include h

theorem length_procs : s.procs.length = calls.length := by
  refine Lts.exec_inv (I := fun s : Locking => s.procs.length = calls.length)
    (fun s lab t hlen hstep => ?_) h (by simp [init])
  cases step_iff.1 ⟨lab, hstep⟩ <;> simpa using hlen

/-- The calls that have returned are those of the replies, each once. -/
theorem perm_of_finished {ks : List Nat} (hnodup : ks.Nodup)
    (hmem : ∀ k, k ∈ ks ↔ s.Finished k) (hdone : ∀ p ∈ s.procs, p.phase = .done) :
    ks.Perm (List.range calls.length) := by
  refine (List.perm_ext_iff_of_nodup hnodup List.nodup_range).2 fun k => ?_
  rw [hmem, List.mem_range, ← length_procs h]
  constructor
  · rintro ⟨c, hc⟩
    exact (List.getElem?_eq_some_iff.1 hc).1
  · intro hk
    refine ⟨s.procs[k].call, ?_⟩
    rw [List.getElem?_eq_getElem hk, Option.some.injEq, ← hdone _ (List.getElem_mem hk)]

theorem perm_replies (hdone : ∀ p ∈ s.procs, p.phase = .done) :
    ((replies d calls labs).map Prod.fst).Perm (List.range calls.length) := by
  have hinit : ∀ k, ¬ (init d calls).Finished k := fun k hk => by
    obtain ⟨c, hc, -⟩ := (finished_iff _ k).1 hk
    exact not_did_init d calls k c hc
  have hstep : ∀ es s e t, Lts.exec step (init d calls) es = some s → step s e = some t →
      ∀ k, t.Finished k ↔ s.Finished k ∨ ∃ x, s.returns e = some x ∧ Prod.fst x = k := by
    intro es s e t hes he k
    refine ((finished_step (linearizes.exec (standsFor_init d calls) hes) he k).1).trans ?_
    simp
  refine perm_of_finished h (Lts.nodup_map_trace hinit hstep (fun es s e t x hes he hx => ?_) h)
    (Lts.mem_map_trace hinit hstep h) hdone
  exact (finished_step (linearizes.exec (standsFor_init d calls) hes) he x.1).2 x.2 hx

theorem perm_history (hdone : ∀ p ∈ s.procs, p.phase = .done) :
    ((history d calls labs).map Prod.fst).Perm (List.range calls.length) := by
  have hs := standsFor_init d calls
  have hno := not_did_init d calls
  refine perm_of_finished h (linearizes.nodup hs hno h) (fun k => ?_) hdone
  have hmem := linearizes.mem_history hs hno h
  rw [List.mem_map, finished_iff]
  constructor
  · rintro ⟨⟨_, c⟩, hc, rfl⟩
    refine ⟨c, (hmem _ c).1 hc, fun hpending => ?_⟩
    cases hdone _ (List.mem_of_getElem? hpending.1)
  · rintro ⟨c, hc, -⟩
    exact ⟨(k, c), (hmem k c).2 hc, rfl⟩

end

/-- A call that has returned before another one starts comes before it in the history. -/
theorem history_realTime {d : TensorDirectory} {calls : List Call} {s u : Locking}
    {before after : List Label} (h : Lts.exec step (init d calls) (before ++ after) = some s)
    (hu : Lts.exec step (init d calls) before = some u) {i j : Nat} (hi : u.Finished i) {c : Call}
    (hj : u.procs[j]? = some ⟨c, .start⟩)
    (hlate : j ∈ (history d calls (before ++ after)).map Prod.fst) :
    ∃ pre ci post, history d calls (before ++ after) = pre ++ (i, ci) :: post ∧
      j ∈ post.map Prod.fst := by
  have hs := standsFor_init d calls
  have hmem := linearizes.mem_history hs (not_did_init d calls) hu
  obtain ⟨u', hu', hafter⟩ := Lts.exec_append.1 h
  cases hu.symm.trans hu'
  obtain ⟨late, hhistory⟩ : ∃ late, Lts.trace step commits (init d calls) (before ++ after) =
      Lts.trace step commits (init d calls) before ++ late := Lts.trace_append hu hafter
  obtain ⟨ci, hci, -⟩ := (finished_iff u i).1 hi
  obtain ⟨pre, post, hsplit⟩ := List.append_of_mem ((hmem i ci).2 hci)
  refine ⟨pre, ci, post ++ late, by rw [history, hhistory, hsplit]; simp, ?_⟩
  -- `j` has not committed yet
  have hnot : j ∉ (history d calls before).map Prod.fst := by
    intro hjmem
    obtain ⟨⟨_, cj⟩, hcj, rfl⟩ := List.mem_map.1 hjmem
    rcases (hmem _ cj).1 hcj with hdid | hdid
    · cases hj.symm.trans hdid
    · cases hj.symm.trans hdid.1
  rw [history, hhistory, List.map_append, List.mem_append] at hlate
  rw [List.map_append, List.mem_append]
  exact .inr (hlate.resolve_left hnot)

end Locking

/-- **The directory is linearizable.** When all calls of an interleaving have returned, there is one
order of the calls such that the directory and every reply are those of the calls made one after the
other in this order; a call that returned before another one started comes before it. A transfer
that does not fail stands in it as its `add_placement`, decided on by a directory from before. -/
theorem linearizable (d : TensorDirectory) (calls : List Call) (labs : List Label) (s : Locking)
    (h : Lts.exec Locking.step (.init d calls) labs = some s)
    (hdone : ∀ p ∈ s.procs, p.phase = .done) :
    ∃ H : List (Nat × Call), (H.map Prod.fst).Perm (List.range calls.length) ∧
      (∀ pre pid c post, H = pre ++ (pid, c) :: post → Locking.Explained d calls pre pid c) ∧
      s.directory = object.run d H ∧
      ((Locking.replies d calls labs).map Prod.fst).Perm (List.range calls.length) ∧
      (∀ pid r, (pid, r) ∈ Locking.replies d calls labs → object.Answers d H pid r) ∧
      ∀ before after u i j c, labs = before ++ after →
        Lts.exec Locking.step (.init d calls) before = some u → u.Finished i →
        u.procs[j]? = some ⟨c, .start⟩ →
        ∃ pre ci post, H = pre ++ (i, ci) :: post ∧ j ∈ post.map Prod.fst := by
  have hinit := Locking.standsFor_init d calls
  have hs := Locking.linearizes.exec hinit h
  have hnone : ∀ pid c, ¬ s.Pending pid c := fun pid c hpending => by
    cases hdone _ (List.mem_of_getElem? hpending.1)
  have hperm := Locking.perm_history h hdone
  refine ⟨Locking.history d calls labs, hperm, fun pre pid c post => Locking.explained_history h,
    hs.directory hnone, Locking.perm_replies h hdone,
    (Locking.linearizes.answers hinit (Locking.not_owes_init d calls) h).2, ?_⟩
  rintro before after u i j c rfl hu hi hj
  refine Locking.history_realTime h hu hi hj (hperm.mem_iff.2 (List.mem_range.2 ?_))
  rw [← Locking.length_procs hu]
  exact (List.getElem?_eq_some_iff.1 hj).1

/-- A transfer from node 1 to node 3 and a removal from node 2, which runs in the gap. -/
theorem linearizable_removeInGap :
    ∃ s, Lts.exec Locking.step (.init onTwoNodes (transferAndRemove ⟨2⟩))
        (removeInGap ++ [.grant .nodeTensors, .run 0]) = some s ∧
      ∃ H : List (Nat × Call), (H.map Prod.fst).Perm (List.range 2) ∧
        s.directory = object.run onTwoNodes H := by
  obtain ⟨s, hs, hdone⟩ : ∃ s, Lts.exec Locking.step (.init onTwoNodes (transferAndRemove ⟨2⟩))
      (removeInGap ++ [.grant .nodeTensors, .run 0]) = some s ∧ ∀ p ∈ s.procs, p.phase = .done :=
    ⟨_, rfl, by decide⟩
  obtain ⟨H, hperm, -, hdirectory, -⟩ := linearizable _ _ _ s hs hdone
  exact ⟨s, hs, H, hperm, hdirectory⟩

end TensorGrid.TensorDirectory
