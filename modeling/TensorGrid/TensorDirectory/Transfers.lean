import TensorGrid.TensorDirectory.Deadlock

/-!
# Transfers and their source

`transfer_tensor` checks its source under a read guard, drops the guard, and records the replica as
an `add_placement`, under a write guard of its own. Between the two it is `InGap`: any other section
can run there.

* `sourced_enter`, `sourced_finish`: the sections that take a tensor off a node and leave its entry
  (`TakesOff`); all others keep the source of a transfer.
* `Sourced.step`: hence the transfers in the gap keep theirs, as long as no section takes it off.
* `meets_recordsLive`: then every replica is recorded while the tensor is on the source.
-/

namespace TensorGrid.TensorDirectory

open Rust

/-! ## Sections and sources -/

/-- If there is an entry, it has a placement on the node. -/
def OnNode (d : TensorDirectory) (t : TensorId) (a : NodeId) : Prop :=
  ∀ e, d.tensors.lookup t = some e → PlacedOn a e

/-- The next section of the call takes the tensor off the node and leaves an entry: a registration
on another node, or a removal or an eviction from this one that leaves other placements. -/
def TakesOff (d : TensorDirectory) (t : TensorId) (a : NodeId) : Proc → Prop
  | ⟨.op (.registerTensor r), .first⟩ => r.tensorId = t ∧ r.placement.nodeId ≠ a
  | ⟨.op (.removePlacement u n), .first⟩ =>
    u = t ∧ n = a ∧ ∃ e, d.tensors.lookup t = some e ∧ e.offNode a ≠ []
  | ⟨.op (.evictFromNode n), .second⟩ =>
    n = a ∧ InIndex d.nodeTensors a t ∧ ∃ e, d.tensors.lookup t = some e ∧ e.offNode a ≠ []
  | _ => False

theorem onNode_registerTensor {d : TensorDirectory} {t : TensorId} {a : NodeId}
    (h : OnNode d t a) {r : Registration} (hkeep : r.tensorId = t → r.placement.nodeId = a) :
    OnNode (d.registerTensor r).2 t a := by
  intro e he
  rcases of_lookup_registerTensor he with ⟨rfl, rfl⟩ | ⟨-, he⟩
  · exact ⟨r.placement, List.mem_singleton_self _, hkeep rfl⟩
  · exact h e he

theorem onNode_getTensor {d : TensorDirectory} {t : TensorId} {a : NodeId} (h : OnNode d t a)
    (u : TensorId) (now : DateTime) : OnNode (d.getTensor u now).2 t a := by
  intro e he
  obtain ⟨e₀, _, he₀, rfl⟩ := of_lookup_getTensor he
  exact h e₀ he₀

theorem onNode_addPlacement {d : TensorDirectory} {t : TensorId} {a : NodeId} (h : OnNode d t a)
    (u : TensorId) (p : PhysicalPlacement) : OnNode (d.addPlacement u p).2 t a := by
  intro e he
  rcases of_lookup_addPlacement he with ⟨-, e₀, he₀, rfl⟩ | ⟨-, he⟩
  · obtain ⟨q, hq, hqa⟩ := h e₀ he₀
    exact ⟨q, List.mem_append_left _ hq, hqa⟩
  · exact h e he

theorem onNode_removePlacement {d : TensorDirectory} {t : TensorId} {a : NodeId}
    (h : OnNode d t a) {u : TensorId} {n : NodeId}
    (hkeep : ¬ TakesOff d t a ⟨.op (.removePlacement u n), .first⟩) :
    OnNode (d.removePlacement u n).2 t a := by
  intro e he
  rcases of_lookup_removePlacement he with ⟨rfl, e₀, he₀, hoff, rfl⟩ | ⟨-, he⟩
  · -- the entry stays, so the removal is from another node
    have hna : n ≠ a := by
      rintro rfl
      exact hkeep ⟨rfl, rfl, e₀, he₀, hoff⟩
    exact placedOn_offNode (h e₀ he₀) hna.symm
  · exact h e he

theorem onNode_evictFromNode {d : TensorDirectory} {t : TensorId} {a : NodeId}
    (h : OnNode d t a) {n : NodeId}
    (hkeep : ¬ TakesOff d t a ⟨.op (.evictFromNode n), .second⟩) :
    OnNode (d.evictFromNode n).2 t a := by
  intro e' he'
  obtain ⟨hout, hnone, hgone, hleft⟩ :=
    lookup_evictLoop n ((d.nodeTensors.lookup n).getD []) d.tensors [] t
  cases he : d.tensors.lookup t with
  | none => cases (hnone he).symm.trans he'
  | some e =>
    by_cases hin : t ∈ (d.nodeTensors.lookup n).getD []
    · by_cases hoff : e.offNode n = []
      · cases (hgone e hin he hoff).symm.trans he'
      · obtain ⟨e₁, he₁, hk⟩ := hleft e hin he hoff
        obtain rfl := Option.some.inj (he₁.symm.trans he')
        have hna : n ≠ a := by
          rintro rfl
          refine hkeep ⟨rfl, ?_, e, he, hoff⟩
          cases hl : d.nodeTensors.lookup n with
          | none => simp [hl] at hin
          | some ids => exact ⟨ids, hl, by simpa [hl] using hin⟩
        obtain ⟨p, hp, hpa⟩ := placedOn_offNode (h e he) hna.symm
        rw [hk]
        exact ⟨p, hp, hpa⟩
    · obtain rfl := Option.some.inj ((hout hin).symm.trans he' |>.symm.trans he).symm
      exact h e he

/-- The section under the first guard. -/
theorem onNode_enter {d d' : TensorDirectory} {t : TensorId} {a : NodeId} {c : Call}
    {after : After} (henter : c.enter d = (d', after)) (h : OnNode d t a)
    (hkeep : ¬ TakesOff d t a ⟨c, .first⟩) : OnNode d' t a := by
  cases c with
  | op o =>
    cases o with
    | registerTensor r =>
      cases henter
      exact onNode_registerTensor h fun ht => by_contra fun ha => hkeep ⟨ht, ha⟩
    | getTensor u now =>
      cases henter
      exact onNode_getTensor h u now
    | addPlacement u p =>
      rw [Call.enter] at henter
      split at henter
      · cases henter
        exact onNode_addPlacement h u p
      · cases henter
        exact h
    | removePlacement u n =>
      rw [Call.enter] at henter
      split at henter
      · cases henter
        exact onNode_removePlacement h hkeep
      · cases henter
        exact h
    | evictFromNode n =>
      cases henter
      exact h
    | transferTensor u n m data =>
      rw [Call.enter] at henter
      split at henter
      · cases henter
        exact h
      · cases henter
        exact h
  | getTensorsOnNode | getStats =>
    cases henter
    exact h

/-- The section under both guards. -/
theorem onNode_finish {d : TensorDirectory} {t : TensorId} {a : NodeId} {c : Call}
    (h : OnNode d t a) (hkeep : ¬ TakesOff d t a ⟨c, .second⟩) : OnNode (c.finish d) t a := by
  cases c with
  | op o =>
    cases o with
    | evictFromNode n => exact onNode_evictFromNode h hkeep
    | registerTensor | getTensor | addPlacement | removePlacement | transferTensor => exact h
  | getTensorsOnNode | getStats => exact h

/-! ## The gap -/

/-- The call `pid` was made as a `transfer_tensor` of `t` from `a`; it has checked its source and
not recorded the replica. -/
def InGap (calls : List Call) (s : Locking) (pid : Nat) (t : TensorId) (a : NodeId) : Prop :=
  (∃ b data, calls[pid]? = some (.op (.transferTensor t a b data))) ∧
    ∃ p phase, s.procs[pid]? = some ⟨.op (.addPlacement t p), phase⟩ ∧
      (phase = .start ∨ phase = .first)

/-- No section takes a tensor off the source of a transfer in the gap. -/
def KeepsSources (calls : List Call) (s : Locking) : Label → Prop
  | .run pid => ∀ proc, s.procs[pid]? = some proc →
      ∀ pid' t a, InGap calls s pid' t a → ¬ TakesOff s.directory t a proc
  | .start _ | .grant _ => True

/-- A transfer that runs out of the gap records its replica, unless the entry is gone: then the
entry is on the source. -/
def RecordsLive (calls : List Call) (s : Locking) : Label → Prop
  | .run pid => ∀ t a, InGap calls s pid t a → OnNode s.directory t a
  | .start _ | .grant _ => True

/-- The call that an `After` goes on as. -/
def After.proc (c : Call) : After → Proc
  | .leave => ⟨c, .done⟩
  | .nest => ⟨c, .second⟩
  | .continueWith c' => ⟨c', .start⟩

theorem Locking.run_cases {s s' : Locking} {pid : Nat} (h : s.step (.run pid) = some s') :
    ∃ c, (s.procs[pid]? = some ⟨c, .first⟩ ∧ ∃ after, c.enter s.directory = (s'.directory, after) ∧
        s'.procs = s.procs.set pid (after.proc c)) ∨
      s.procs[pid]? = some ⟨c, .second⟩ ∧ s'.directory = c.finish s.directory ∧
        s'.procs = s.procs.set pid ⟨c, .done⟩ := by
  rw [Locking.step] at h
  split at h
  next c hp =>
    refine ⟨c, .inl ⟨hp, ?_⟩⟩
    split at h
    next =>
      split at h
      next d he =>
        cases h
        exact ⟨_, he, rfl⟩
      next d he =>
        cases h
        exact ⟨_, he, rfl⟩
      next d c' he =>
        cases h
        exact ⟨_, he, rfl⟩
    next => cases h
  next c hp =>
    refine ⟨c, .inr ⟨hp, ?_⟩⟩
    split at h
    next =>
      cases h
      exact ⟨rfl, rfl⟩
    next => cases h
  next => cases h

/-- Every call is the one that was made, or the second half of a transfer; and the transfers in the
gap have their source. -/
structure Sourced (calls : List Call) (s : Locking) : Prop where
  made : ∀ (pid : Nat) (p : Proc), s.procs[pid]? = some p →
    calls[pid]? = some p.call ∨ ∃ t q, p.call = .op (.addPlacement t q)
  live : ∀ pid t a, InGap calls s pid t a → OnNode s.directory t a

theorem sourced_init (d : TensorDirectory) (calls : List Call) :
    Sourced calls (Locking.init d calls) := by
  refine ⟨fun pid p hp => ?_, fun pid t a hgap => ?_⟩
  · rw [Locking.init, List.getElem?_map, Option.map_eq_some_iff] at hp
    obtain ⟨c, hc, rfl⟩ := hp
    exact .inl hc
  · obtain ⟨⟨b, data, hcall⟩, p, phase, hp, -⟩ := hgap
    rw [Locking.init, List.getElem?_map, hcall] at hp
    cases hp

theorem Sourced.set {calls : List Call} {s s' : Locking} (h : Sourced calls s) {pid : Nat}
    {p p' : Proc} (hp : s.procs[pid]? = some p) (hprocs : s'.procs = s.procs.set pid p')
    (hmade : p'.call = p.call ∨ ∃ t q, p'.call = .op (.addPlacement t q))
    (hlive : ∀ pid t a, InGap calls s pid t a → OnNode s'.directory t a)
    (hnew : ∀ t a, InGap calls s' pid t a → OnNode s'.directory t a) : Sourced calls s' := by
  have hlt := (List.getElem?_eq_some_iff.1 hp).1
  refine ⟨fun pid' q hq => ?_, fun pid' t a hgap => ?_⟩
  · rw [hprocs] at hq
    by_cases hpid : pid' = pid
    · subst hpid
      rw [List.getElem?_set_self hlt] at hq
      obtain rfl := Option.some.inj hq
      obtain heq | hadd := hmade
      · rw [heq]
        exact h.made pid' p hp
      · exact .inr hadd
    · rw [List.getElem?_set_ne (Ne.symm hpid)] at hq
      exact h.made pid' q hq
  · by_cases hpid : pid' = pid
    · subst hpid
      exact hnew t a hgap
    · obtain ⟨hcall, q, phase, hq, hphase⟩ := hgap
      rw [hprocs, List.getElem?_set_ne (Ne.symm hpid)] at hq
      exact hlive pid' t a ⟨hcall, q, phase, hq, hphase⟩

theorem InGap.of_set {calls : List Call} {s s' : Locking} {pid : Nat} {t : TensorId} {a : NodeId}
    {p p' : Proc} (hp : s.procs[pid]? = some p) (hprocs : s'.procs = s.procs.set pid p')
    (h : InGap calls s' pid t a) : (p'.phase = .start ∨ p'.phase = .first) ∧
      (∃ q, p'.call = .op (.addPlacement t q)) ∧
      ∃ b data, calls[pid]? = some (.op (.transferTensor t a b data)) := by
  obtain ⟨hcall, q, phase, hq, hphase⟩ := h
  rw [hprocs, List.getElem?_set_self (List.getElem?_eq_some_iff.1 hp).1] at hq
  obtain rfl := Option.some.inj hq
  exact ⟨hphase, ⟨q, rfl⟩, hcall⟩

/-- **One step** that takes no tensor off a source. -/
theorem Sourced.step {calls : List Call} {s s' : Locking} {lab : Label} (h : Sourced calls s)
    (hkeep : KeepsSources calls s lab) (hstep : s.step lab = some s') : Sourced calls s' := by
  cases lab with
  | start pid =>
    rw [Locking.step] at hstep
    split at hstep
    next c hp =>
      cases hstep
      refine h.set hp rfl (.inl rfl) h.live fun t a hgap => ?_
      obtain ⟨-, ⟨q, rfl⟩, hcall⟩ := hgap.of_set hp rfl
      exact h.live pid t a ⟨hcall, q, .start, hp, .inl rfl⟩
    next => cases hstep
  | grant l =>
    obtain ⟨lock, -, rfl⟩ := Option.map_eq_some_iff.1 hstep
    exact ⟨h.made, h.live⟩
  | run pid =>
    obtain ⟨c, ⟨hp, after, henter, hprocs⟩ | ⟨hp, hfinish, hprocs⟩⟩ := Locking.run_cases hstep
    · have hlive : ∀ pid' t a, InGap calls s pid' t a → OnNode s'.directory t a :=
        fun pid' t a hgap => onNode_enter henter (h.live pid' t a hgap) (hkeep _ hp pid' t a hgap)
      cases after with
      | leave =>
        refine h.set hp hprocs (.inl rfl) hlive fun t a hgap => ?_
        obtain ⟨hphase | hphase, -⟩ := hgap.of_set hp hprocs <;> cases hphase
      | nest =>
        refine h.set hp hprocs (.inl rfl) hlive fun t a hgap => ?_
        obtain ⟨hphase | hphase, -⟩ := hgap.of_set hp hprocs <;> cases hphase
      | continueWith c' =>
        -- the source has just been checked
        obtain ⟨hd, hnests, -, u, q, hc'⟩ := enter_continueWith henter
        refine h.set hp hprocs (.inr ⟨u, q, hc'⟩) hlive fun t a hgap => ?_
        obtain ⟨-, -, b, data, hcall⟩ := hgap.of_set hp hprocs
        obtain hmade | ⟨v, q', hmade⟩ := h.made pid _ hp
        · obtain rfl := Option.some.inj (hcall.symm.trans hmade)
          obtain ⟨e, he, hon⟩ := hnests
          intro e' he'
          rw [hd, he] at he'
          cases he'
          exact hon
        · subst hmade
          rw [Call.enter] at henter
          split at henter <;> cases congrArg Prod.snd henter
    · refine h.set hp hprocs (.inl rfl) (fun pid' t a hgap => ?_) fun t a hgap => ?_
      · rw [hfinish]
        exact onNode_finish (h.live pid' t a hgap) (hkeep _ hp pid' t a hgap)
      · obtain ⟨hphase | hphase, -⟩ := hgap.of_set hp hprocs <;> cases hphase

theorem Sourced.recordsLive {calls : List Call} {s : Locking} (hs : Sourced calls s)
    {labs : List Label} (h : Lts.Meets Locking.step (KeepsSources calls) s labs) :
    Lts.Meets Locking.step (RecordsLive calls) s labs := by
  induction labs generalizing s with
  | nil => trivial
  | cons lab labs ih =>
    intro s' hstep
    obtain ⟨hkeep, hrest⟩ := h s' hstep
    refine ⟨?_, ih (hs.step hkeep hstep) hrest⟩
    cases lab with
    | run pid => exact hs.live pid
    | start | grant => trivial

/-- **Transfers copy from a live source**, along every run in which no section takes a tensor off
the source of a transfer in the gap. -/
theorem meets_recordsLive (d : TensorDirectory) (calls : List Call) (labs : List Label)
    (h : Lts.Meets Locking.step (KeepsSources calls) (.init d calls) labs) :
    Lts.Meets Locking.step (RecordsLive calls) (.init d calls) labs :=
  (sourced_init d calls).recordsLive h

/-! ## Sets of calls -/

/-- No call of the set can take a tensor off the source of a transfer of the set. -/
def Harmless (calls : List Call) : Prop :=
  ∀ c ∈ calls, ∀ t a b data, .op (.transferTensor t a b data) ∈ calls →
    ∀ d phase, ¬ TakesOff d t a ⟨c, phase⟩

/-- The calls of such a set can be interleaved in any way. -/
theorem Harmless.meets {calls : List Call} (h : Harmless calls) {s : Locking}
    (hs : Sourced calls s) (labs : List Label) :
    Lts.Meets Locking.step (KeepsSources calls) s labs := by
  induction labs generalizing s with
  | nil => trivial
  | cons lab labs ih =>
    have hkeep : KeepsSources calls s lab := by
      cases lab with
      | run pid =>
        rintro ⟨c, phase⟩ hp pid' t a ⟨⟨b, data, hcall⟩, -⟩ htakes
        obtain hmade | ⟨u, q, hadd⟩ := hs.made pid _ hp
        · exact h c (List.mem_of_getElem? hmade) t a b data (List.mem_of_getElem? hcall) _ _ htakes
        · obtain rfl : c = .op (.addPlacement u q) := hadd
          exact htakes
      | start | grant => trivial
    exact fun s' hstep => ⟨hkeep, ih (hs.step hkeep hstep)⟩

/-- The tensor `t` on the nodes 1 and 2. -/
def onTwoNodes : TensorDirectory :=
  run [.registerTensor smallRegistration,
    .addPlacement "t" { smallPlacement with nodeId := ⟨2⟩, role := .replica }]

/-- A transfer from node 1 to node 3, and a removal from the node `n`. -/
def transferAndRemove (n : NodeId) : List Call :=
  [.op (.transferTensor "t" ⟨1⟩ ⟨3⟩ [0]), .op (.removePlacement "t" n)]

/-- The removal runs in the gap of the transfer. -/
def removeInGap : List Label :=
  [.start 0, .grant .tensors, .run 0, .start 1, .grant .tensors, .run 1, .grant .nodeTensors,
    .run 1, .start 0, .grant .tensors, .run 0]

/-- A removal from node 2 does no harm. -/
theorem meets_recordsLive_removeInGap :
    (Lts.exec Locking.step (.init onTwoNodes (transferAndRemove ⟨2⟩)) removeInGap).isSome ∧
      Lts.Meets Locking.step (RecordsLive (transferAndRemove ⟨2⟩))
        (.init onTwoNodes (transferAndRemove ⟨2⟩)) removeInGap := by
  have hharmless : Harmless (transferAndRemove ⟨2⟩) := by
    intro c hc t a b data htransfer d phase htakes
    obtain rfl : a = ⟨1⟩ := by
      obtain heq | heq := List.mem_pair.1 htransfer <;> cases heq
      rfl
    obtain rfl | rfl := List.mem_pair.1 hc
    · cases phase <;> exact htakes
    · cases phase with
      | first => exact absurd htakes.2.1 (by decide)
      | start | second | done => exact htakes
  exact ⟨rfl, meets_recordsLive _ _ _ (hharmless.meets (sourced_init _ _) _)⟩

/-- After a removal from node 1 the replica is recorded beside the placement on node 2 only. -/
theorem not_recordsLive_removeInGap :
    ¬ Lts.Meets Locking.step (RecordsLive (transferAndRemove ⟨1⟩))
      (.init onTwoNodes (transferAndRemove ⟨1⟩)) removeInGap := by
  intro h
  obtain ⟨s, s', p, e, hpre, hrun, hp, he, hoff⟩ : ∃ s s' p e,
      Lts.exec Locking.step (.init onTwoNodes (transferAndRemove ⟨1⟩)) (removeInGap.take 10) =
        some s ∧ s.step (.run 0) = some s' ∧
      s.procs[0]? = some ⟨.op (.addPlacement "t" p), .first⟩ ∧
      s.directory.tensors.lookup "t" = some e ∧ ∀ q ∈ e.placements, q.nodeId ≠ ⟨1⟩ :=
    ⟨_, _, _, _, rfl, rfl, rfl, rfl, by decide⟩
  have hlive := Lts.meets_iff.1 h (removeInGap.take 10) (.run 0) [] s s' rfl hpre hrun "t" ⟨1⟩
    ⟨⟨⟨3⟩, [0], rfl⟩, p, .first, hp, .inr rfl⟩
  obtain ⟨q, hq, hqa⟩ := hlive e he
  exact hoff q hq hqa

end TensorGrid.TensorDirectory
