import Mathlib

/-!
# A fair read-write lock

The lock of `tokio::sync::RwLock`: requests wait in one queue and are granted strictly in its order,
several read guards or one write guard at a time. Guards are told apart by names of a type `G`.

`served` replays the sections of the guards that are held or asked for, in the order of the lock:
a read section may park its guard (keep it for ever), which blocks every later write request, and a
write section changes the data the later sections see. It says which requests get the lock:

* `served_reads`: readers only matter by the guards they park.
* `served_append`, `served_congr`: later requests and other guards' sections do not matter.
-/

namespace Rust

inductive Mode
  | read | write
deriving DecidableEq, Repr

/-- The guards that are held, in the order they were granted, and the requests that wait. -/
structure RwLock (G : Type*) where
  held : List (G × Mode)
  queue : List (G × Mode)

namespace RwLock

variable {G : Type*}

def empty : RwLock G := ⟨[], []⟩

/-- A request of the given mode can be granted beside the guards that are held. -/
def admits (held : List (G × Mode)) : Mode → Bool
  | .read => held.all (·.2 = .read)
  | .write => held.isEmpty

/-- Join the queue. -/
def request (g : G) (m : Mode) (l : RwLock G) : RwLock G :=
  { l with queue := l.queue ++ [(g, m)] }

/-- Grant the first request of the queue. -/
def grant (l : RwLock G) : Option (RwLock G) :=
  match l.queue with
  | [] => none
  | (g, m) :: queue => if admits l.held m then some ⟨l.held ++ [(g, m)], queue⟩ else none

/-- Drop the held guards that are not to be kept. -/
def retain (keep : G → Bool) (l : RwLock G) : RwLock G :=
  { l with held := l.held.filter (keep ·.1) }

/-- All guards and requests, in the order of the lock. -/
def entries (l : RwLock G) : List (G × Mode) := l.held ++ l.queue

/-- The request `g` waits. -/
def Waits (l : RwLock G) (g : G) : Prop := g ∈ l.queue.map Prod.fst

/-- The guard `g` is held. -/
def Holds (l : RwLock G) (g : G) : Prop := g ∈ l.held.map Prod.fst

instance [DecidableEq G] (l : RwLock G) (g : G) : Decidable (l.Holds g) :=
  inferInstanceAs (Decidable (_ ∈ _))

/-- Guards have different names, and a write guard is alone. -/
structure Wf (l : RwLock G) : Prop where
  nodup : (l.entries.map Prod.fst).Nodup
  exclusive : ∀ g, (g, .write) ∈ l.held → l.held = [(g, .write)]

theorem wf_empty : (empty : RwLock G).Wf := ⟨List.nodup_nil, fun _ h => by cases h⟩

theorem holds_retain {l : RwLock G} {g : G} {keep : G → Bool} (h : l.Holds g) (hk : keep g) :
    (l.retain keep).Holds g := by
  obtain ⟨⟨g, m⟩, hg, rfl⟩ := List.mem_map.1 h
  exact List.mem_map_of_mem (List.mem_filter.2 ⟨hg, hk⟩)

theorem entries_request (g : G) (m : Mode) (l : RwLock G) :
    (l.request g m).entries = l.entries ++ [(g, m)] :=
  (List.append_assoc ..).symm

theorem grant_eq_some {l l' : RwLock G} : l.grant = some l' ↔ ∃ g m queue,
    l.queue = (g, m) :: queue ∧ admits l.held m ∧ l' = ⟨l.held ++ [(g, m)], queue⟩ := by
  unfold grant
  split
  next hq => simp [hq]
  next g m queue hq =>
    rw [Option.ite_none_right_eq_some, Option.some.injEq]
    constructor
    · rintro ⟨hadm, rfl⟩
      exact ⟨g, m, queue, hq, hadm, rfl⟩
    · rintro ⟨g', m', queue', hq', hadm, rfl⟩
      rw [hq] at hq'
      cases hq'
      exact ⟨hadm, rfl⟩

theorem entries_grant {l l' : RwLock G} (h : l.grant = some l') : l'.entries = l.entries := by
  obtain ⟨g, m, queue, hq, -, rfl⟩ := grant_eq_some.1 h
  simp [entries, hq]

theorem admits_read {held : List (G × Mode)} :
    admits held .read ↔ ∀ e ∈ held, e.2 = .read := by
  simp [admits]

theorem admits_write {held : List (G × Mode)} : admits held .write ↔ held = [] := by
  simp [admits]

theorem reads_of_admits {held : List (G × Mode)} {m : Mode} (h : admits held m) :
    ∀ e ∈ held, e.2 = .read := by
  cases m with
  | read => exact admits_read.1 h
  | write => simp [admits_write.1 h]

namespace Wf

variable {l l' : RwLock G}

theorem request (h : l.Wf) {g : G} (hg : g ∉ l.entries.map Prod.fst) (m : Mode) :
    (l.request g m).Wf := by
  refine ⟨?_, h.exclusive⟩
  rw [entries_request, List.map_append, List.nodup_append]
  refine ⟨h.nodup, by simp, ?_⟩
  rintro a ha _ hb rfl
  obtain rfl : a = g := by simpa using hb
  exact hg ha

theorem grant (h : l.Wf) (hl : l.grant = some l') : l'.Wf := by
  refine ⟨by rw [entries_grant hl]; exact h.nodup, fun g hg => ?_⟩
  obtain ⟨g', m, queue, -, hadm, rfl⟩ := grant_eq_some.1 hl
  rcases List.mem_append.1 hg with hg | hg
  · exact absurd (reads_of_admits hadm _ hg) (by simp)
  · cases List.mem_singleton.1 hg
    simp [admits_write.1 hadm]

theorem retain (h : l.Wf) (keep : G → Bool) : (l.retain keep).Wf := by
  refine ⟨h.nodup.sublist ((List.Sublist.append List.filter_sublist (.refl _)).map _),
    fun g hg => ?_⟩
  have hheld := h.exclusive g (List.mem_of_mem_filter hg)
  have hkeep : keep g := (List.mem_filter.1 hg).2
  simp [RwLock.retain, hheld, hkeep]

theorem not_waits_of_holds (h : l.Wf) {g : G} (hg : l.Holds g) : ¬ l.Waits g := by
  have hnd := h.nodup
  rw [entries, List.map_append, List.nodup_append] at hnd
  exact fun hw => hnd.2.2 g hg g hw rfl

/-- The held guards are all read guards, or one write guard. -/
theorem held_cases (h : l.Wf) :
    (∀ e ∈ l.held, e.2 = .read) ∨ ∃ g, l.held = [(g, .write)] := by
  by_cases hw : ∃ g, (g, Mode.write) ∈ l.held
  · obtain ⟨g, hg⟩ := hw
    exact .inr ⟨g, h.exclusive g hg⟩
  · refine .inl fun e he => ?_
    obtain ⟨g, m⟩ := e
    cases m with
    | read => rfl
    | write => exact absurd ⟨g, he⟩ hw

end Wf

/-- Dropping or deactivating one active guard, and activating none. -/
theorem countP_filter_lt {α : Type*} {l : List α} {keep p q : α → Bool}
    (hle : ∀ a ∈ l, keep a → p a → q a) {b : α} (hb : b ∈ l) (hq : q b) (hnot : keep b → ¬ p b) :
    (l.filter keep).countP p < l.countP q := by
  obtain ⟨pre, post, rfl⟩ := List.append_of_mem hb
  have hmono (l' : List α) (hsub : ∀ a ∈ l', a ∈ pre ++ b :: post) :
      l'.countP (fun a => p a && keep a) ≤ l'.countP q :=
    List.countP_mono_left fun a ha hpk => by
      rw [Bool.and_eq_true] at hpk
      exact hle a (hsub a ha) hpk.2 hpk.1
  have hpre := hmono pre fun a ha => List.mem_append_left _ ha
  have hpost := hmono post fun a ha => List.mem_append_right _ (List.mem_cons_of_mem _ ha)
  have hb' : (p b && keep b) = false := by
    rw [Bool.eq_false_iff, Ne, Bool.and_eq_true]
    exact fun hpk => hnot hpk.2 hpk.1
  rw [List.countP_filter, List.countP_append, List.countP_append, List.countP_cons,
    List.countP_cons, if_neg (by simp [hb']), if_pos hq]
  omega

/-! ## Replaying the lock -/

section
variable {σ : Type*} [DecidableEq G] (parks : σ → G → Bool) (effect : σ → G → σ) (g : G)

/-- The sections of the entries run in order until `g` gets its guard (`true`), or a write request
stands behind a parked guard (`false`). -/
def served : σ → Bool → List (G × Mode) → Bool
  | _, _, [] => false
  | s, parked, (h, .read) :: rest => h = g || served s (parked || parks s h) rest
  | s, parked, (h, .write) :: rest => !parked && (h = g || served (effect s h) false rest)

variable {parks effect g}

/-- Read guards only matter by what they park. -/
theorem served_reads {s : σ} {parked : Bool} {pre rest : List (G × Mode)}
    (hread : ∀ e ∈ pre, e.2 = .read) (hg : g ∉ pre.map Prod.fst) :
    served parks effect g s parked (pre ++ rest) =
      served parks effect g s (parked || pre.any (parks s ·.1)) rest := by
  induction pre generalizing parked with
  | nil => simp
  | cons e pre ih =>
    obtain ⟨h, m⟩ := e
    obtain rfl : m = .read := hread _ List.mem_cons_self
    rw [List.map_cons, List.mem_cons, not_or] at hg
    rw [List.cons_append, served, ih (fun e he => hread e (List.mem_cons_of_mem _ he)) hg.2]
    simp [Ne.symm hg.1, Bool.or_assoc]

/-- Requests behind `g` do not matter. -/
theorem served_append {s : σ} {parked : Bool} {pre rest : List (G × Mode)}
    (hg : g ∈ pre.map Prod.fst) :
    served parks effect g s parked (pre ++ rest) = served parks effect g s parked pre := by
  induction pre generalizing s parked with
  | nil => cases hg
  | cons e pre ih =>
    obtain ⟨h, m⟩ := e
    by_cases hh : h = g
    · cases m <;> simp [served, hh]
    · have hpre : g ∈ pre.map Prod.fst := (List.mem_cons.1 hg).resolve_left (Ne.symm hh)
      cases m <;> simp [served, ih hpre]

theorem served_congr {parks' : σ → G → Bool} {effect' : σ → G → σ} {s : σ} {parked : Bool}
    {es : List (G × Mode)}
    (h : ∀ e ∈ es, ∀ s, parks' s e.1 = parks s e.1 ∧ effect' s e.1 = effect s e.1) :
    served parks' effect' g s parked es = served parks effect g s parked es := by
  induction es generalizing s parked with
  | nil => rfl
  | cons e es ih =>
    obtain ⟨hp, he⟩ := h e List.mem_cons_self s
    obtain ⟨k, m⟩ := e
    have hrest (s : σ) (parked : Bool) :
        served parks' effect' g s parked es = served parks effect g s parked es :=
      ih fun e he => h e (List.mem_cons_of_mem _ he)
    cases m <;> simp [served, hrest, hp, he]

/-- The first request of the queue is served if it can be granted now. -/
theorem served_front {s : σ} {held queue : List (G × Mode)} {m : Mode} (hadm : admits held m)
    (hg : g ∉ held.map Prod.fst) :
    served parks effect g s false (held ++ (g, m) :: queue) = true := by
  rw [served_reads (reads_of_admits hadm) hg]
  cases m with
  | read => simp [served]
  | write => simp [served, admits_write.1 hadm]

end

end RwLock

end Rust
