import TensorGrid.Lib.Lts
import TensorGrid.TensorDirectory.Locking

/-!
# Guards and phases

* `Locking.Step`: what one step of the calls of the directory can do.
* `Located`: the guards and requests of a call are those of its phase. So a call that holds one lock
  and waits for another is at its second lock (`Located.order`).
-/

namespace TensorGrid.TensorDirectory

open Rust

/-! ## Steps -/

/-- What one step can do. -/
inductive Locking.Step (s : Locking) : Locking → Prop
  | start {pid : Nat} {c : Call} : s.procs[pid]? = some ⟨c, .start⟩ →
      Step s { s with locks := s.request pid c.first, procs := s.procs.set pid ⟨c, .first⟩ }
  | grant {l : Lock} {lock : RwLock Nat} : (s.locks l).grant = some lock →
      Step s { s with locks := Function.update s.locks l lock }
  | leave {pid : Nat} {c : Call} {d : TensorDirectory} : s.procs[pid]? = some ⟨c, .first⟩ →
      s.Holds pid c.first.1 → c.enter s.directory = (d, .leave) →
      Step s { directory := d, locks := s.release pid, procs := s.procs.set pid ⟨c, .done⟩ }
  | nest {pid : Nat} {c : Call} {d : TensorDirectory} : s.procs[pid]? = some ⟨c, .first⟩ →
      s.Holds pid c.first.1 → c.enter s.directory = (d, .nest) →
      Step s { directory := d, locks := s.request pid c.second,
               procs := s.procs.set pid ⟨c, .second⟩ }
  | continueWith {pid : Nat} {c c' : Call} {d : TensorDirectory} :
      s.procs[pid]? = some ⟨c, .first⟩ → s.Holds pid c.first.1 →
      c.enter s.directory = (d, .continueWith c') →
      Step s { directory := d, locks := s.release pid, procs := s.procs.set pid ⟨c', .start⟩ }
  | finish {pid : Nat} {c : Call} : s.procs[pid]? = some ⟨c, .second⟩ →
      s.Holds pid c.second.1 →
      Step s { directory := c.finish s.directory, locks := s.release pid,
               procs := s.procs.set pid ⟨c, .done⟩ }

theorem Locking.step_iff {s t : Locking} : (∃ lab, s.step lab = some t) ↔ s.Step t := by
  constructor
  · rintro ⟨lab, h⟩
    cases lab with
    | start pid =>
      rw [Locking.step] at h
      split at h
      next c hp => cases h; exact .start hp
      next => cases h
    | grant l =>
      obtain ⟨lock, hg, rfl⟩ := Option.map_eq_some_iff.1 h
      exact .grant hg
    | run pid =>
      rw [Locking.step] at h
      split at h
      next c hp =>
        split at h
        next hh =>
          split at h
          next d he => cases h; exact .leave hp hh he
          next d he => cases h; exact .nest hp hh he
          next d c' he => cases h; exact .continueWith hp hh he
        next => cases h
      next c hp =>
        split at h
        next hh => cases h; exact .finish hp hh
        next => cases h
      next => cases h
  · intro h
    cases h with
    | @start pid c hp => exact ⟨.start pid, by simp only [Locking.step, hp]⟩
    | @grant l lock hg => exact ⟨.grant l, by simp only [Locking.step, hg, Option.map_some]⟩
    | @leave pid c d hp hh he =>
      exact ⟨.run pid, by simp only [Locking.step, hp, if_pos (show RwLock.Holds _ _ from hh), he]⟩
    | @nest pid c d hp hh he =>
      exact ⟨.run pid, by simp only [Locking.step, hp, if_pos (show RwLock.Holds _ _ from hh), he]⟩
    | @continueWith pid c c' d hp hh he =>
      exact ⟨.run pid, by simp only [Locking.step, hp, if_pos (show RwLock.Holds _ _ from hh), he]⟩
    | @finish pid c hp hh =>
      exact ⟨.run pid, by simp only [Locking.step, hp, if_pos (show RwLock.Holds _ _ from hh)]⟩

/-! ## Where guards are -/

theorem Call.first_ne_second (c : Call) : c.first.1 ≠ c.second.1 := by
  cases c with
  | op o => cases o <;> exact Lock.noConfusion
  | getTensorsOnNode | getStats => exact Lock.noConfusion

/-- The lock that the call asked for last. -/
def Proc.last : Proc → Option (Lock × Mode)
  | ⟨c, .first⟩ => some c.first
  | ⟨c, .second⟩ => some c.second
  | ⟨_, .start⟩ | ⟨_, .done⟩ => none

/-- A call has a guard on the first lock in its second phase. -/
def Proc.Outer (p : Proc) (lm : Lock × Mode) : Prop := p.phase = .second ∧ p.call.first = lm

/-- The guards and the requests of the calls are those of their phases. -/
structure Located (s : Locking) : Prop where
  wf : ∀ l, (s.locks l).Wf
  held : ∀ l i m, (i, m) ∈ (s.locks l).held →
    ∃ p, s.procs[i]? = some p ∧ (p.last = some (l, m) ∨ p.Outer (l, m))
  queued : ∀ l i m, (i, m) ∈ (s.locks l).queue →
    ∃ p, s.procs[i]? = some p ∧ p.last = some (l, m)

namespace Located

variable {s : Locking}

theorem not_queued (h : Located s) {pid : Nat} {p : Proc} {lm : Lock × Mode}
    (hp : s.procs[pid]? = some p) (hl : p.last = some lm) (hh : s.Holds pid lm.1) (l : Lock)
    (m : Mode) : (pid, m) ∉ (s.locks l).queue := by
  intro hq
  obtain ⟨q, hq', hlast⟩ := h.queued l pid m hq
  cases hp.symm.trans hq'
  cases hl.symm.trans hlast
  exact (h.wf l).not_waits_of_holds hh (List.mem_map_of_mem hq)

/-- A process whose requests have all been granted drops its guards. -/
theorem release (h : Located s) {pid : Nat} (p' : Proc) (d : TensorDirectory)
    (hq : ∀ l m, (pid, m) ∉ (s.locks l).queue) :
    Located ⟨d, s.release pid, s.procs.set pid p'⟩ := by
  refine ⟨fun l => (h.wf l).retain (· ≠ pid), fun l i m hi => ?_, fun l i m hi => ?_⟩
  · obtain ⟨hi, hne⟩ := List.mem_filter.1 hi
    have hne : pid ≠ i := fun heq => by simp [heq] at hne
    obtain ⟨q, hq, hloc⟩ := h.held l i m hi
    exact ⟨q, by rwa [List.getElem?_set_ne hne], hloc⟩
  · have hne : pid ≠ i := by
      rintro rfl
      exact hq l m hi
    obtain ⟨q, hq, hloc⟩ := h.queued l i m hi
    exact ⟨q, by rwa [List.getElem?_set_ne hne], hloc⟩

/-- A process without an entry at a lock asks for it. -/
theorem request (h : Located s) {pid : Nat} {p p' : Proc} {lm : Lock × Mode} (d : TensorDirectory)
    (hp : s.procs[pid]? = some p) (hp' : p'.last = some lm)
    (hentry : ∀ m, (pid, m) ∉ (s.locks lm.1).entries)
    (hq : ∀ l m, (pid, m) ∉ (s.locks l).queue)
    (hheld : ∀ l m, (pid, m) ∈ (s.locks l).held → p'.Outer (l, m)) :
    Located ⟨d, s.request pid lm, s.procs.set pid p'⟩ := by
  have hself : (s.procs.set pid p')[pid]? = some p' :=
    List.getElem?_set_self (List.getElem?_eq_some_iff.1 hp).1
  -- the entries of the locks before the request
  have hheld' : ∀ l i m, (i, m) ∈ (s.locks l).held → ∃ q, (s.procs.set pid p')[i]? = some q ∧
      (q.last = some (l, m) ∨ q.Outer (l, m)) := by
    intro l i m hi
    by_cases hne : pid = i
    · subst hne
      exact ⟨p', hself, .inr (hheld l m hi)⟩
    · obtain ⟨q, hq, hloc⟩ := h.held l i m hi
      exact ⟨q, by rwa [List.getElem?_set_ne hne], hloc⟩
  have hqueued' : ∀ l i m, (i, m) ∈ (s.locks l).queue →
      ∃ q, (s.procs.set pid p')[i]? = some q ∧ q.last = some (l, m) := by
    intro l i m hi
    have hne : pid ≠ i := by
      rintro rfl
      exact hq l m hi
    obtain ⟨q, hq, hloc⟩ := h.queued l i m hi
    exact ⟨q, by rwa [List.getElem?_set_ne hne], hloc⟩
  have hwf : ((s.locks lm.1).request pid lm.2).Wf := by
    refine (h.wf lm.1).request ?_ lm.2
    rintro hmem
    obtain ⟨⟨_, m⟩, he, rfl⟩ := List.mem_map.1 hmem
    exact hentry m he
  refine ⟨fun l => ?_, fun l i m hi => ?_, fun l i m hi => ?_⟩
  all_goals by_cases hl : l = lm.1
  · subst hl
    simpa only [Locking.request, Function.update_self] using hwf
  · simpa only [Locking.request, Function.update_of_ne hl] using h.wf l
  · subst hl
    simp only [Locking.request, Function.update_self] at hi
    exact hheld' _ i m hi
  · simp only [Locking.request, Function.update_of_ne hl] at hi
    exact hheld' l i m hi
  · subst hl
    simp only [Locking.request, Function.update_self] at hi
    rcases List.mem_append.1 hi with hi | hi
    · exact hqueued' _ i m hi
    · cases List.mem_singleton.1 hi
      exact ⟨p', hself, hp'⟩
  · simp only [Locking.request, Function.update_of_ne hl] at hi
    exact hqueued' l i m hi

theorem grant (h : Located s) {l : Lock} {lock : RwLock Nat} (hg : (s.locks l).grant = some lock) :
    Located { s with locks := Function.update s.locks l lock } := by
  obtain ⟨i, m, queue, hqueue, hadm, rfl⟩ := RwLock.grant_eq_some.1 hg
  refine ⟨fun k => ?_, fun k j m' hj => ?_, fun k j m' hj => ?_⟩
  · by_cases hk : k = l
    · subst hk
      simpa only [Function.update_self] using (h.wf k).grant hg
    · simpa only [Function.update_of_ne hk] using h.wf k
  · by_cases hk : k = l
    · subst hk
      simp only [Function.update_self] at hj
      rcases List.mem_append.1 hj with hj | hj
      · exact h.held k j m' hj
      · obtain ⟨rfl, rfl⟩ := Prod.mk.inj (List.mem_singleton.1 hj)
        obtain ⟨p, hp, hlast⟩ := h.queued k j m' (by rw [hqueue]; exact .head _)
        exact ⟨p, hp, .inl hlast⟩
    · simp only [Function.update_of_ne hk] at hj
      exact h.held k j m' hj
  · by_cases hk : k = l
    · subst hk
      simp only [Function.update_self] at hj
      exact h.queued k j m' (by rw [hqueue]; exact .tail _ hj)
    · simp only [Function.update_of_ne hk] at hj
      exact h.queued k j m' hj

/-- A process before its first lock has no entry at all. -/
theorem no_entry (h : Located s) {pid : Nat} {c : Call} (hp : s.procs[pid]? = some ⟨c, .start⟩)
    (l : Lock) (m : Mode) : (pid, m) ∉ (s.locks l).entries := by
  intro he
  rcases List.mem_append.1 he with he | he
  · obtain ⟨q, hq, hlast | hout⟩ := h.held l pid m he
    · cases hp.symm.trans hq
      cases hlast
    · cases hp.symm.trans hq
      cases hout.1
  · obtain ⟨q, hq, hlast⟩ := h.queued l pid m he
    cases hp.symm.trans hq
    cases hlast

theorem step {t : Locking} (h : Located s) (hs : s.Step t) : Located t := by
  cases hs with
  | @start pid c hp =>
    have hno := h.no_entry hp
    refine h.request s.directory hp rfl (hno _) (fun l m hq => ?_) fun l m hh => ?_
    · exact hno l m (List.mem_append_right _ hq)
    · exact absurd (List.mem_append_left _ hh) (hno l m)
  | grant hg => exact h.grant hg
  | leave hp hh he => exact h.release _ _ (h.not_queued hp rfl hh)
  | @nest pid c d hp hh he =>
    have hq := h.not_queued hp rfl hh
    -- the only guard is the one on the first lock
    have hguard : ∀ l m, (pid, m) ∈ (s.locks l).held → c.first = (l, m) := by
      intro l m hm
      obtain ⟨q, hq, hlast | hout⟩ := h.held l pid m hm
      · cases hp.symm.trans hq
        exact Option.some.inj hlast
      · cases hp.symm.trans hq
        cases hout.1
    refine h.request d hp rfl (fun m he => ?_) hq fun l m hm => ⟨rfl, hguard l m hm⟩
    rcases List.mem_append.1 he with he | he
    · exact c.first_ne_second (by rw [hguard _ m he])
    · exact hq _ m he
  | continueWith hp hh he => exact h.release _ _ (h.not_queued hp rfl hh)
  | finish hp hh => exact h.release _ _ (h.not_queued hp rfl hh)

/-- A call that holds one lock and waits for another took them in its own order. -/
theorem order (h : Located s) {pid : Nat} {k l : Lock} (hh : s.Holds pid k) (hw : s.Waits pid l) :
    ∃ c, s.procs[pid]? = some ⟨c, .second⟩ ∧ c.first.1 = k ∧
      ∃ m, (pid, m) ∈ (s.locks l).queue ∧ c.second = (l, m) := by
  obtain ⟨⟨i, m⟩, hq, rfl⟩ := List.mem_map.1 hw.1
  obtain ⟨⟨i', m'⟩, hk, heq⟩ := List.mem_map.1 hh
  obtain rfl : i' = i := heq
  obtain ⟨⟨c, ph⟩, hp, hlast⟩ := h.queued l i' m hq
  obtain ⟨q, hp', hloc⟩ := h.held k i' m' hk
  cases hp.symm.trans hp'
  rcases hloc with hlast' | ⟨hph, hfirst⟩
  · have hkl : k = l := congrArg Prod.fst (Option.some.inj (hlast'.symm.trans hlast))
    exact absurd hw.1 ((h.wf l).not_waits_of_holds (hkl ▸ hh))
  · obtain rfl : ph = .second := hph
    exact ⟨c, hp, congrArg Prod.fst hfirst, m, hq, Option.some.inj hlast⟩

theorem of_reachable {d : TensorDirectory} {calls : List Call} {s : Locking}
    (h : Lts.Reachable Locking.step (.init d calls) s) : Located s := by
  refine h.inv (I := Located) ?_ fun _ lab _ h hs => h.step (Locking.step_iff.1 ⟨lab, hs⟩)
  refine ⟨fun _ => RwLock.wf_empty, fun l i m hi => ?_, fun l i m hi => ?_⟩
  · cases hi
  · cases hi

end Located

end TensorGrid.TensorDirectory
