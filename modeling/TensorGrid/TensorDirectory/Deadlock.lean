import TensorGrid.TensorDirectory.Guards

/-!
# Deadlocks of the tensor directory

`evict_from_node` and `get_tensors_on_node` take `node_tensors` before `tensors`, the other calls
the other way round. Whether a set of calls can deadlock depends on the calls alone (`Compatible`).

* `Calm`: while no call nests a write to `node_tensors` inside `tensors`, the directory only
  shrinks, so no call starts to.
* `not_deadlocked_of_compatible`: then the locks are ranked one way or the other.
* `exists_deadlocked`: two calls that take the locks in opposite orders deadlock.
-/

namespace TensorGrid.TensorDirectory

open Rust

/-! ## Which calls deadlock -/

/-- From the directory `d`, the call comes to ask for `node_tensors` under its guard of
`tensors`. -/
def Nests (d : TensorDirectory) : Call → Prop
  | .op (.registerTensor _) => True
  | .op (.addPlacement t _) => t ∈ d.tensors
  | .op (.removePlacement t _) => t ∈ d.tensors
  | .op (.transferTensor t a _ _) => ∃ e, d.tensors.lookup t = some e ∧ PlacedOn a e
  | .op (.getTensor _ _) => False
  | .op (.evictFromNode _) => False
  | .getTensorsOnNode _ => False
  | .getStats => True

/-- No `evict_from_node` beside a call that nests, and no `get_tensors_on_node` beside one that
nests in write mode. -/
def Compatible (d : TensorDirectory) (calls : List Call) : Prop :=
  (∀ n, .op (.evictFromNode n) ∈ calls → ∀ c ∈ calls, ¬ Nests d c) ∧
  ∀ n, .getTensorsOnNode n ∈ calls → ∀ c ∈ calls, Nests d c → c = .getStats

theorem transferPlacement_isSome_iff {d : TensorDirectory} {t : TensorId} {a b : NodeId}
    {data : List UInt8} : (∃ p, transferPlacement d t a b data = some p) ↔
      ∃ e, d.tensors.lookup t = some e ∧ PlacedOn a e := by
  unfold transferPlacement PlacedOn
  cases d.tensors.lookup t with
  | none => simp
  | some e =>
    cases hfind : e.placements.find? (·.nodeId == a) with
    | none =>
      have hno := List.find?_eq_none.1 hfind
      simpa [hfind] using hno
    | some q =>
      have hq : q.nodeId = a := by simpa using List.find?_some hfind
      simpa [hfind] using ⟨q, List.mem_of_find?_eq_some hfind, hq⟩

/-- A call that asks for its second lock takes `node_tensors` first, or nests. -/
theorem nests_of_enter {d d' : TensorDirectory} {c : Call} (h : c.enter d = (d', .nest)) :
    c.first.1 = .nodeTensors ∨ Nests d c := by
  cases c with
  | op o =>
    cases o with
    | registerTensor r => exact .inr trivial
    | getTensor t now => cases h
    | addPlacement t p | removePlacement t p =>
      rw [Call.enter] at h
      split at h
      next hmem => exact .inr hmem
      next => cases h
    | evictFromNode n => exact .inl rfl
    | transferTensor t a b data =>
      rw [Call.enter] at h
      split at h <;> cases h
  | getTensorsOnNode n => exact .inl rfl
  | getStats => exact .inr trivial

/-- Only a transfer goes on as another call. -/
theorem enter_continueWith {d d' : TensorDirectory} {c c' : Call}
    (h : c.enter d = (d', .continueWith c')) :
    d' = d ∧ Nests d c ∧ c ≠ .getStats ∧ ∃ t p, c' = .op (.addPlacement t p) := by
  cases c with
  | op o =>
    cases o with
    | registerTensor r | getTensor t now | evictFromNode n => cases h
    | addPlacement t p | removePlacement t p =>
      rw [Call.enter] at h
      split at h <;> cases h
    | transferTensor t a b data =>
      rw [Call.enter] at h
      split at h
      next p hp =>
        cases h
        exact ⟨rfl, transferPlacement_isSome_iff.1 ⟨p, hp⟩, Call.noConfusion, t, p, rfl⟩
      next => cases h
  | getTensorsOnNode n => cases h
  | getStats => cases h

/-! ## Calls that do not nest shrink the directory -/

/-- Every entry of `d` was there in `d₀`, with at least its placements. -/
def Shrunk (d₀ d : TensorDirectory) : Prop :=
  ∀ t e, d.tensors.lookup t = some e →
    ∃ e₀, d₀.tensors.lookup t = some e₀ ∧ ∀ p ∈ e.placements, p ∈ e₀.placements

theorem Shrunk.refl (d : TensorDirectory) : Shrunk d d := fun _ e he => ⟨e, he, fun _ hp => hp⟩

theorem Shrunk.trans {d₁ d₂ d₃ : TensorDirectory} (h : Shrunk d₁ d₂) (h' : Shrunk d₂ d₃) :
    Shrunk d₁ d₃ := by
  intro t e he
  obtain ⟨e₂, he₂, hsub⟩ := h' t e he
  obtain ⟨e₁, he₁, hsub'⟩ := h t e₂ he₂
  exact ⟨e₁, he₁, fun p hp => hsub' p (hsub p hp)⟩

theorem Nests.of_shrunk {d₀ d : TensorDirectory} (h : Shrunk d₀ d) {c : Call} (hc : Nests d c) :
    Nests d₀ c := by
  have hmem : ∀ t ∈ d.tensors, t ∈ d₀.tensors := by
    intro t ht
    obtain ⟨e, he⟩ := HashMap.lookup_of_mem ht
    obtain ⟨e₀, he₀, -⟩ := h t e he
    exact HashMap.mem_of_lookup he₀
  cases c with
  | op o =>
    cases o with
    | registerTensor r => trivial
    | addPlacement t p | removePlacement t p => exact hmem t hc
    | transferTensor t a b data =>
      obtain ⟨e, he, p, hp, ha⟩ := hc
      obtain ⟨e₀, he₀, hsub⟩ := h t e he
      exact ⟨e₀, he₀, p, hsub p hp, ha⟩
    | getTensor | evictFromNode => exact hc.elim
  | getTensorsOnNode => exact hc.elim
  | getStats => trivial

theorem shrunk_getTensor (d : TensorDirectory) (t : TensorId) (now : DateTime) :
    Shrunk d (d.getTensor t now).2 := by
  intro u e he
  obtain ⟨e₀, _, he₀, rfl⟩ := of_lookup_getTensor he
  exact ⟨e₀, he₀, fun _ hp => hp⟩

theorem shrunk_evictFromNode (d : TensorDirectory) (n : NodeId) :
    Shrunk d (d.evictFromNode n).2 := by
  intro t e' he'
  obtain ⟨hout, hnone, hgone, hkeep⟩ :=
    lookup_evictLoop n ((d.nodeTensors.lookup n).getD []) d.tensors [] t
  cases he : d.tensors.lookup t with
  | none => cases (hnone he).symm.trans he'
  | some e =>
    refine ⟨e, rfl, ?_⟩
    by_cases hin : t ∈ (d.nodeTensors.lookup n).getD []
    · by_cases hoff : e.offNode n = []
      · cases (hgone e hin he hoff).symm.trans he'
      · obtain ⟨e₁, he₁, hk⟩ := hkeep e hin he hoff
        obtain rfl := Option.some.inj (he₁.symm.trans he')
        rw [hk]
        exact fun p hp => (mem_offNode.1 hp).1
    · obtain rfl := Option.some.inj ((hout hin).symm.trans he' |>.symm.trans he).symm
      exact fun _ hp => hp

/-- The first section of a call that does not nest, or only reads. -/
theorem shrunk_enter {d d' : TensorDirectory} {c : Call} {after : After}
    (h : c.enter d = (d', after)) (hc : Nests d c → c = .getStats) : Shrunk d d' := by
  cases c with
  | op o =>
    cases o with
    | registerTensor r => cases hc trivial
    | getTensor t now => cases h; exact shrunk_getTensor d t now
    | addPlacement t p | removePlacement t p =>
      have hmem : t ∉ d.tensors := by
        intro hmem
        cases hc hmem
      rw [Call.enter, if_neg hmem] at h
      cases h
      exact .refl d
    | evictFromNode n => cases h; exact .refl d
    | transferTensor t a b data =>
      rw [Call.enter] at h
      split at h <;> cases h <;> exact .refl d
  | getTensorsOnNode n => cases h; exact .refl d
  | getStats => cases h; exact .refl d

/-- The second section of a call that takes `node_tensors` first, or only reads. -/
theorem shrunk_finish (d : TensorDirectory) {c : Call}
    (hc : c.first.1 = .nodeTensors ∨ c = .getStats) : Shrunk d (c.finish d) := by
  cases c with
  | op o =>
    cases o with
    | evictFromNode n => exact shrunk_evictFromNode d n
    | registerTensor | getTensor | addPlacement | removePlacement | transferTensor =>
      rcases hc with hc | hc <;> cases hc
  | getTensorsOnNode n => exact .refl d
  | getStats => exact .refl d

/-! ## Compatible calls -/

/-- All calls take `tensors` first. -/
def TensorsFirst (s : Locking) : Prop := ∀ p ∈ s.procs, p.call.first.1 = .tensors

/-- The calls are still those of the start, the directory has only shrunk, and a call at its second
lock took `node_tensors` first or only reads. -/
structure Calm (d₀ : TensorDirectory) (calls : List Call) (s : Locking) : Prop where
  shrunk : Shrunk d₀ s.directory
  mem : ∀ p ∈ s.procs, p.call ∈ calls
  second : ∀ p ∈ s.procs, p.phase = .second → p.call.first.1 = .nodeTensors ∨ p.call = .getStats

theorem TensorsFirst.step {s t : Locking} (h : TensorsFirst s) (hs : s.Step t) :
    TensorsFirst t := by
  have hset {pid : Nat} {p' : Proc} (hp' : p'.call.first.1 = .tensors) :
      ∀ p ∈ s.procs.set pid p', p.call.first.1 = .tensors := fun p hp =>
    (List.mem_or_eq_of_mem_set hp).elim (h p) fun heq => heq ▸ hp'
  have hcall {pid : Nat} {c : Call} {ph : Phase} (hp : s.procs[pid]? = some ⟨c, ph⟩) :
      c.first.1 = .tensors := h ⟨c, ph⟩ (List.mem_of_getElem? hp)
  cases hs with
  | start hp => exact hset (hcall hp)
  | grant hg => exact h
  | leave hp hh he => exact hset (hcall hp)
  | nest hp hh he => exact hset (hcall hp)
  | continueWith hp hh he =>
    obtain ⟨-, -, -, t, p, rfl⟩ := enter_continueWith he
    exact hset rfl
  | finish hp hh => exact hset (hcall hp)

theorem Calm.step {d₀ : TensorDirectory} {calls : List Call} {s t : Locking}
    (hcalls : ∀ c ∈ calls, Nests d₀ c → c = .getStats) (h : Calm d₀ calls s) (hs : s.Step t) :
    Calm d₀ calls t := by
  have hset {pid : Nat} {c : Call} {ph ph' : Phase} {d : TensorDirectory}
      {locks : Lock → RwLock Nat} (hp : s.procs[pid]? = some ⟨c, ph⟩) (hd : Shrunk s.directory d)
      (hc : ph' = .second → c.first.1 = .nodeTensors ∨ c = .getStats) :
      Calm d₀ calls ⟨d, locks, s.procs.set pid ⟨c, ph'⟩⟩ := by
    refine ⟨h.shrunk.trans hd, fun p hmem => ?_, fun p hmem hph => ?_⟩
    · obtain hmem | rfl := List.mem_or_eq_of_mem_set hmem
      · exact h.mem p hmem
      · exact h.mem ⟨c, ph⟩ (List.mem_of_getElem? hp)
    · obtain hmem | rfl := List.mem_or_eq_of_mem_set hmem
      · exact h.second p hmem hph
      · exact hc hph
  have hnest {pid : Nat} {c : Call} {ph : Phase} (hp : s.procs[pid]? = some ⟨c, ph⟩) :
      Nests s.directory c → c = .getStats := fun hn =>
    hcalls c (h.mem _ (List.mem_of_getElem? hp)) (hn.of_shrunk h.shrunk)
  cases hs with
  | start hp => exact hset hp (.refl _) nofun
  | grant hg => exact ⟨h.shrunk, h.mem, h.second⟩
  | leave hp hh he => exact hset hp (shrunk_enter he (hnest hp)) nofun
  | nest hp hh he =>
    refine hset hp (shrunk_enter he (hnest hp)) fun _ => ?_
    exact (nests_of_enter he).imp_right (hnest hp)
  | continueWith hp hh he =>
    obtain ⟨-, hn, hne, -⟩ := enter_continueWith he
    exact absurd (hnest hp hn) hne
  | finish hp hh =>
    exact hset hp (shrunk_finish _ (h.second _ (List.mem_of_getElem? hp) rfl)) nofun

theorem TensorsFirst.not_deadlocked {s : Locking} (h : TensorsFirst s) (hl : Located s) :
    ¬ s.Deadlocked := by
  refine Deadlock.not_deadlocked_of_rank (fun l => if l = .tensors then 0 else 1)
    fun pid k l hh hw => ?_
  obtain ⟨c, hp, rfl, m, -, hsecond⟩ := hl.order hh hw
  have hfirst : c.first.1 = .tensors := h _ (List.mem_of_getElem? hp)
  have hne := c.first_ne_second
  rw [hsecond, hfirst] at hne
  rw [hfirst]
  cases l with
  | tensors => exact absurd rfl hne
  | nodeTensors => exact Nat.zero_lt_one

/-- The calls that ask for `node_tensors` in write mode. -/
theorem Call.writes_nodeTensors {c : Call}
    (h : c.first = (.nodeTensors, .write) ∨ c.second = (.nodeTensors, .write)) :
    (∃ n, c = .op (.evictFromNode n)) ∨ c.first.1 = .tensors ∧ c ≠ .getStats := by
  cases c with
  | op o =>
    cases o with
    | evictFromNode n => exact .inl ⟨n, rfl⟩
    | registerTensor | getTensor | addPlacement | removePlacement | transferTensor =>
      exact .inr ⟨rfl, Call.noConfusion⟩
  | getTensorsOnNode | getStats => rcases h with h | h <;> cases h

/-- Without evictions, `node_tensors` is only read. -/
theorem Calm.reads {d₀ : TensorDirectory} {calls : List Call} {s : Locking}
    (h : Calm d₀ calls s) (hl : Located s)
    (hno : ∀ n, .op (.evictFromNode n) ∉ calls) :
    ∀ e ∈ (s.locks .nodeTensors).entries, e.2 = .read := by
  rintro ⟨pid, m⟩ he
  -- the entry is that of the first or the second lock of a call
  have hloc : ∃ p, s.procs[pid]? = some p ∧ (p.phase = .second ∨ p.call.first = (.nodeTensors, m)) ∧
      (p.call.first = (.nodeTensors, m) ∨ p.call.second = (.nodeTensors, m)) := by
    have hlast {p : Proc} (hlast : p.last = some (.nodeTensors, m)) :
        (p.phase = .second ∨ p.call.first = (.nodeTensors, m)) ∧
          (p.call.first = (.nodeTensors, m) ∨ p.call.second = (.nodeTensors, m)) := by
      obtain ⟨c, ph⟩ := p
      cases ph with
      | start | done => cases hlast
      | first => exact ⟨.inr (Option.some.inj hlast), .inl (Option.some.inj hlast)⟩
      | second => exact ⟨.inl rfl, .inr (Option.some.inj hlast)⟩
    rcases List.mem_append.1 he with he | he
    · obtain ⟨p, hp, hpl | hpo⟩ := hl.held _ pid m he
      · exact ⟨p, hp, hlast hpl⟩
      · exact ⟨p, hp, .inl hpo.1, .inl hpo.2⟩
    · obtain ⟨p, hp, hpl⟩ := hl.queued _ pid m he
      exact ⟨p, hp, hlast hpl⟩
  obtain ⟨p, hp, hph, hlm⟩ := hloc
  have hmem := List.mem_of_getElem? hp
  cases m with
  | read => rfl
  | write =>
    rcases Call.writes_nodeTensors hlm with ⟨n, heq⟩ | ⟨hfirst, hne⟩
    · exact absurd (heq ▸ h.mem p hmem) (hno n)
    · rcases hph with hph | hph
      · obtain hnode | hstats := h.second p hmem hph
        · cases hfirst.symm.trans hnode
        · exact absurd hstats hne
      · rw [hph] at hfirst
        cases hfirst

/-- A request in a queue of readers is granted. -/
theorem not_waits_of_reads {s : Locking} {l : Lock}
    (h : ∀ e ∈ (s.locks l).entries, e.2 = .read) (pid : Nat) : ¬ s.Waits pid l := by
  rintro ⟨hq, hg⟩
  rw [RwLock.grant] at hg
  split at hg
  next hnil =>
    rw [RwLock.Waits, hnil] at hq
    cases hq
  next g m queue hqueue =>
    have hm : m = .read := h (g, m) (List.mem_append_right _ (by rw [hqueue]; exact .head _))
    have hadm : RwLock.admits (s.locks l).held m := by
      rw [hm, RwLock.admits_read]
      exact fun e he => h e (List.mem_append_left _ he)
    rw [if_pos hadm] at hg
    cases hg

theorem Calm.not_deadlocked {d₀ : TensorDirectory} {calls : List Call} {s : Locking}
    (h : Calm d₀ calls s) (hl : Located s)
    (hstats : .getStats ∈ calls → ∀ n, .op (.evictFromNode n) ∉ calls) : ¬ s.Deadlocked := by
  refine Deadlock.not_deadlocked_of_rank (fun l => if l = .nodeTensors then 0 else 1)
    fun pid k l hh hw => ?_
  obtain ⟨c, hp, rfl, m, -, hsecond⟩ := hl.order hh hw
  have hmem := List.mem_of_getElem? hp
  have hne := c.first_ne_second
  rw [hsecond] at hne
  rcases h.second _ hmem rfl with hfirst | hstat
  · rw [hfirst] at hne ⊢
    cases l with
    | nodeTensors => exact absurd rfl hne
    | tensors => exact Nat.zero_lt_one
  · -- `get_stats` never waits for `node_tensors`
    obtain rfl : c = .getStats := hstat
    obtain ⟨rfl, -⟩ := Prod.mk.inj hsecond
    exact absurd hw (not_waits_of_reads (h.reads hl (hstats (h.mem _ hmem))) pid)

theorem not_deadlocked_of_compatible {d : TensorDirectory} {calls : List Call}
    (h : Compatible d calls) {s : Locking}
    (hs : Lts.Reachable Locking.step (.init d calls) s) : ¬ s.Deadlocked := by
  have hl := Located.of_reachable hs
  by_cases hfirst : ∀ c ∈ calls, c.first.1 = .tensors
  · have htensors : TensorsFirst s := by
      refine hs.inv (I := TensorsFirst) (fun p hp => ?_) fun _ lab _ h hs =>
        h.step (Locking.step_iff.1 ⟨lab, hs⟩)
      obtain ⟨c, hc, rfl⟩ := List.mem_map.1 hp
      exact hfirst c hc
    exact htensors.not_deadlocked hl
  · -- some call takes `node_tensors` first
    have hcalls : ∀ c ∈ calls, Nests d c → c = .getStats := by
      intro c hc hn
      obtain ⟨c', hc', hne⟩ := not_forall₂.1 hfirst
      cases c' with
      | op o =>
        cases o with
        | evictFromNode n => exact absurd hn (h.1 n hc' c hc)
        | registerTensor | getTensor | addPlacement | removePlacement | transferTensor =>
          exact absurd rfl hne
      | getTensorsOnNode n => exact h.2 n hc' c hc hn
      | getStats => exact absurd rfl hne
    have hcalm : Calm d calls s := by
      refine hs.inv (I := Calm d calls) ⟨.refl d, fun p hp => ?_, fun p hp hph => ?_⟩
        fun _ lab _ h hs => h.step hcalls (Locking.step_iff.1 ⟨lab, hs⟩)
      · obtain ⟨c, hc, rfl⟩ := List.mem_map.1 hp
        exact hc
      · obtain ⟨c, hc, rfl⟩ := List.mem_map.1 hp
        cases hph
    exact hcalm.not_deadlocked hl fun hstats n hn => h.1 n hn .getStats hstats trivial

/-! ## Calls that take the locks in opposite orders -/

theorem Locking.Step.reachable {s₀ s t : Locking} (hs : s.Step t)
    (h : Lts.Reachable Locking.step s₀ s) : Lts.Reachable Locking.step s₀ t := by
  obtain ⟨lab, hlab⟩ := Locking.step_iff.2 hs
  exact h.next hlab

/-- A call gets its first lock, if that is free. -/
theorem reachable_first {s₀ s : Locking} (h : Lts.Reachable Locking.step s₀ s) {pid : Nat}
    {c : Call} (hp : s.procs[pid]? = some ⟨c, .start⟩) (hfree : s.locks c.first.1 = .empty) :
    Lts.Reachable Locking.step s₀ ⟨s.directory,
      Function.update s.locks c.first.1 ⟨[(pid, c.first.2)], []⟩,
      s.procs.set pid ⟨c, .first⟩⟩ := by
  have hgrant : (s.request pid c.first c.first.1).grant = some ⟨[(pid, c.first.2)], []⟩ := by
    rw [Locking.request, Function.update_self, hfree]
    cases c.first.2 <;> rfl
  have hreach := (Locking.Step.grant hgrant).reachable ((Locking.Step.start hp).reachable h)
  simpa only [Locking.request, Function.update_idem] using hreach

theorem grant_eq_none {i j : Nat} {m m' : Mode} (h : m = .write ∨ m' = .write) :
    (⟨[(i, m)], [(j, m')]⟩ : RwLock Nat).grant = none := by
  cases m with
  | read =>
    obtain rfl : m' = .write := h.resolve_left Mode.noConfusion
    rfl
  | write => cases m' <;> rfl

theorem exists_deadlocked {s₀ s : Locking} (h : Lts.Reachable Locking.step s₀ s) {i j : Nat}
    {ci cj : Call} {d : TensorDirectory} {mi mi' mj mj' : Mode} (hij : i ≠ j)
    (hi : s.procs[i]? = some ⟨ci, .start⟩) (hj : s.procs[j]? = some ⟨cj, .start⟩)
    (hfree : ∀ l, s.locks l = .empty) (hci : ci.first = (.nodeTensors, mi))
    (hci' : ci.second = (.tensors, mi')) (hcj : cj.first = (.tensors, mj))
    (hcj' : cj.second = (.nodeTensors, mj')) (hni : ∀ d, ci.enter d = (d, .nest))
    (hnj : cj.enter s.directory = (d, .nest)) (hnode : mi = .write ∨ mj' = .write)
    (htensors : mj = .write ∨ mi' = .write) :
    ∃ t, Lts.Reachable Locking.step s₀ t ∧ t.Deadlocked := by
  -- each of the two gets its first lock
  have hone := reachable_first h hj (hfree _)
  have hi' : (s.procs.set j ⟨cj, .first⟩)[i]? = some ⟨ci, .start⟩ := by
    rwa [List.getElem?_set_ne hij.symm]
  have htwo := reachable_first hone hi' (by rw [hci, hcj]; exact hfree .nodeTensors)
  simp only [hci, hcj] at htwo
  generalize hs₂ : Locking.mk _ _ _ = s₂ at htwo
  have hlt : i < s.procs.length := (List.getElem?_eq_some_iff.1 hi).1
  have hlt' : j < s.procs.length := (List.getElem?_eq_some_iff.1 hj).1
  have hj₂ : s₂.procs[j]? = some ⟨cj, .first⟩ := by
    rw [← hs₂, List.getElem?_set_ne hij, List.getElem?_set_self hlt']
  have hheld : s₂.Holds j cj.first.1 := by
    rw [← hs₂, hcj]
    exact List.mem_singleton.2 rfl
  -- each of the two asks for its second lock
  have hthree := (Locking.Step.nest hj₂ hheld (by rw [← hs₂]; exact hnj)).reachable htwo
  generalize hs₃ : Locking.mk _ _ _ = s₃ at hthree
  have hi₃ : s₃.procs[i]? = some ⟨ci, .first⟩ := by
    rw [← hs₃, List.getElem?_set_ne hij.symm, ← hs₂,
      List.getElem?_set_self (by rwa [List.length_set])]
  have hheld' : s₃.Holds i ci.first.1 := by
    rw [← hs₃, hci, hcj', ← hs₂]
    exact List.mem_singleton.2 rfl
  have hfour := (Locking.Step.nest hi₃ hheld' (hni _)).reachable hthree
  generalize hs₄ : Locking.mk _ _ _ = s₄ at hfour
  have hlocks : s₄.locks .tensors = ⟨[(j, mj)], [(i, mi')]⟩ ∧
      s₄.locks .nodeTensors = ⟨[(i, mi)], [(j, mj')]⟩ := by
    rw [← hs₄, ← hs₃, ← hs₂, hci', hcj']
    exact ⟨rfl, rfl⟩
  refine ⟨s₄, hfour, Deadlock.deadlocked_of_pair (p := i) (q := j) (l := Lock.tensors)
    (k := Lock.nodeTensors) ⟨?_, ?_⟩ ?_ ⟨?_, ?_⟩ ?_⟩
  · rw [hlocks.1]; exact List.mem_singleton.2 rfl
  · rw [hlocks.1]; exact grant_eq_none htensors
  · rw [Locking.Holds, hlocks.1]; exact List.mem_singleton.2 rfl
  · rw [hlocks.2]; exact List.mem_singleton.2 rfl
  · rw [hlocks.2]; exact grant_eq_none hnode
  · rw [Locking.Holds, hlocks.2]; exact List.mem_singleton.2 rfl

/-- The call is about to take `tensors` and then `node_tensors`. -/
structure TakesBoth (d : TensorDirectory) (c : Call) (m m' : Mode) : Prop where
  first : c.first = (.tensors, m)
  second : c.second = (.nodeTensors, m')
  enter : ∃ d', c.enter d = (d', .nest)

/-- A call that nests comes to take both locks; a transfer does so as an `add_placement`. -/
theorem exists_takesBoth {s₀ s : Locking} (h : Lts.Reachable Locking.step s₀ s) {j : Nat} {c : Call}
    (hj : s.procs[j]? = some ⟨c, .start⟩) (hfree : ∀ l, s.locks l = .empty)
    (hn : Nests s.directory c) : ∃ t c' m m', Lts.Reachable Locking.step s₀ t ∧
      t.directory = s.directory ∧ (∀ l, t.locks l = .empty) ∧
      t.procs = s.procs.set j ⟨c', .start⟩ ∧ TakesBoth s.directory c' m m' ∧
      (c ≠ .getStats → m = .write ∧ m' = .write) := by
  have hsame : s.procs.set j ⟨c, .start⟩ = s.procs := by
    obtain ⟨hlt, heq⟩ := List.getElem?_eq_some_iff.1 hj
    rw [← heq, List.set_getElem_self hlt]
  cases c with
  | op o =>
    cases o with
    | registerTensor r =>
      exact ⟨s, _, .write, .write, h, rfl, hfree, hsame.symm, ⟨rfl, rfl, _, rfl⟩,
        fun _ => ⟨rfl, rfl⟩⟩
    | addPlacement t p | removePlacement t p =>
      exact ⟨s, _, .write, .write, h, rfl, hfree, hsame.symm, ⟨rfl, rfl, _, if_pos hn⟩,
        fun _ => ⟨rfl, rfl⟩⟩
    | getTensor | evictFromNode => exact hn.elim
    | transferTensor t a b data =>
      obtain ⟨p, hp⟩ : ∃ p, transferPlacement s.directory t a b data = some p :=
        transferPlacement_isSome_iff.2 hn
      have hone := reachable_first h hj (hfree _)
      generalize hs₁ : Locking.mk _ _ _ = s₁ at hone
      have hj₁ : s₁.procs[j]? = some ⟨.op (.transferTensor t a b data), .first⟩ := by
        rw [← hs₁, List.getElem?_set_self (List.getElem?_eq_some_iff.1 hj).1]
      have hheld : s₁.Holds j .tensors := by
        rw [← hs₁]
        exact List.mem_singleton.2 rfl
      have henter : Call.enter s₁.directory (.op (.transferTensor t a b data)) =
          (s.directory, .continueWith (.op (.addPlacement t p))) := by
        rw [← hs₁, Call.enter, hp]
      have hmem : t ∈ s.directory.tensors := by
        obtain ⟨e, he, -⟩ := hn
        exact HashMap.mem_of_lookup he
      have htwo := (Locking.Step.continueWith hj₁ hheld henter).reachable hone
      refine ⟨_, .op (.addPlacement t p), .write, .write, htwo, rfl, fun l => ?_, ?_,
        ⟨rfl, rfl, _, if_pos hmem⟩, fun _ => ⟨rfl, rfl⟩⟩
      · rw [← hs₁]
        cases l with
        | tensors => simp [Locking.release, Call.first, RwLock.retain, RwLock.empty]
        | nodeTensors => simp [Locking.release, Call.first, RwLock.retain, hfree, RwLock.empty]
      · rw [← hs₁]
        exact List.set_set ..
  | getTensorsOnNode => exact hn.elim
  | getStats =>
    exact ⟨s, _, .read, .read, h, rfl, hfree, hsame.symm, ⟨rfl, rfl, _, rfl⟩,
      fun hne => absurd rfl hne⟩

/-- A call that nests deadlocks with one that takes `node_tensors` first, unless both only read. -/
theorem exists_deadlocked_of_nests {d : TensorDirectory} {calls : List Call} {ci cj : Call}
    {m : Mode} (hi : ci ∈ calls) (hj : cj ∈ calls) (hci : ci.first = (.nodeTensors, m))
    (hci' : ci.second = (.tensors, m)) (hni : ∀ d, ci.enter d = (d, .nest)) (hn : Nests d cj)
    (hm : m = .write ∨ cj ≠ .getStats) (hne : ci ≠ cj) :
    ∃ t, Lts.Reachable Locking.step (.init d calls) t ∧ t.Deadlocked := by
  obtain ⟨i, hi⟩ := List.mem_iff_getElem?.1 hi
  obtain ⟨j, hj⟩ := List.mem_iff_getElem?.1 hj
  have hij : i ≠ j := by
    rintro rfl
    exact hne (Option.some.inj (hi.symm.trans hj))
  have hpi : (Locking.init d calls).procs[i]? = some ⟨ci, .start⟩ := by
    simp [Locking.init, List.getElem?_map, hi]
  have hpj : (Locking.init d calls).procs[j]? = some ⟨cj, .start⟩ := by
    simp [Locking.init, List.getElem?_map, hj]
  obtain ⟨s, c, mj, mj', hs, hdir, hfree, hprocs, ⟨hfirst, hsecond, d', henter⟩, hmodes⟩ :=
    exists_takesBoth (.refl _) hpj (fun _ => rfl) hn
  refine exists_deadlocked hs hij ?_ ?_ hfree hci hci' hfirst hsecond hni
    (hdir ▸ henter) ?_ ?_
  · rwa [hprocs, List.getElem?_set_ne hij.symm]
  · rw [hprocs, List.getElem?_set_self (List.getElem?_eq_some_iff.1 hpj).1]
  · exact hm.imp_right fun h => (hmodes h).2
  · exact (hm.imp_right fun h => (hmodes h).1).symm

theorem compatible_of_deadlock_free {d : TensorDirectory} {calls : List Call}
    (h : ∀ s, Lts.Reachable Locking.step (.init d calls) s → ¬ s.Deadlocked) :
    Compatible d calls := by
  refine ⟨fun n hn c hc hnests => ?_, fun n hn c hc hnests => ?_⟩
  · obtain ⟨t, ht, hdead⟩ := exists_deadlocked_of_nests hn hc rfl rfl (fun _ => rfl) hnests
      (.inl rfl) fun heq => by rw [← heq] at hnests; exact hnests
    exact h t ht hdead
  · by_contra hstats
    obtain ⟨t, ht, hdead⟩ := exists_deadlocked_of_nests hn hc rfl rfl (fun _ => rfl) hnests
      (.inr hstats) fun heq => by rw [← heq] at hnests; exact hnests
    exact h t ht hdead

/-- **A set of concurrent calls can never deadlock exactly if it is compatible.** -/
theorem deadlock_free_iff (d : TensorDirectory) (calls : List Call) :
    (∀ s, Lts.Reachable Locking.step (.init d calls) s → ¬ s.Deadlocked) ↔ Compatible d calls :=
  ⟨compatible_of_deadlock_free, fun h _ hs => not_deadlocked_of_compatible h hs⟩

/-- A registration and an eviction, each under its first guard, wait for each other. -/
theorem register_evict_deadlock : ∃ s, Lts.Reachable Locking.step
    (.init new [.op (.registerTensor smallRegistration), .op (.evictFromNode ⟨1⟩)]) s ∧
      s.Deadlocked :=
  exists_deadlocked_of_nests (.tail _ (.head _)) (.head _) rfl rfl (fun _ => rfl) trivial (.inl rfl)
    nofun

end TensorGrid.TensorDirectory
