import TensorGrid.Scheduler.Model

/-!
# When a reservation is all or nothing

`reserve_resources` checks and commits one node at a time, and returns at the first node that would
go over its limit without taking back what it has committed. `Reserved` is what the loop has done
when it ends (`reserveLoop_reserved`): a failed reservation leaves no trace exactly if it fails at
the first node it visits (`allOrNothing_iff`).
-/

namespace TensorGrid.Scheduler

open Rust

/-- The allocation would take its node over 100 %. -/
def Exceeds (ledger : HashMap NodeId NodeAllocation) (e : Σ _ : NodeId, ResourceAllocation) :
    Prop :=
  (ledgerOf ledger e.1).allocatedCpuPercent + e.2.cpuPercent > 100.0

instance (ledger : HashMap NodeId NodeAllocation) (e : Σ _ : NodeId, ResourceAllocation) :
    Decidable (Exceeds ledger e) := inferInstanceAs (Decidable (_ > _))

theorem ledgerOf_upsert (ledger : HashMap NodeId NodeAllocation) (k : NodeId)
    (f : NodeAllocation → NodeAllocation) :
    ledgerOf (ledger.upsert k NodeAllocation.zero f) k = f (ledgerOf ledger k) := by
  rw [ledgerOf, HashMap.lookup_upsert, Option.getD_some, ledgerOf]

theorem ledgerOf_upsert_ne {ledger : HashMap NodeId NodeAllocation} {k n : NodeId} (h : n ≠ k)
    (f : NodeAllocation → NodeAllocation) :
    ledgerOf (ledger.upsert k NodeAllocation.zero f) n = ledgerOf ledger n := by
  rw [ledgerOf, HashMap.lookup_upsert_ne h, ledgerOf]

/-- The loop has committed `done` and stopped before `rest`: it has visited all entries, or the
next one would exceed its node's limit. -/
structure Reserved (sessionId : SessionId) (before : HashMap NodeId NodeAllocation)
    (done rest : List (Σ _ : NodeId, ResourceAllocation)) (result : Outcome ScheduleError Unit)
    (after : HashMap NodeId NodeAllocation) : Prop where
  fits : ∀ e ∈ done, ¬ Exceeds before e
  committed : ∀ e ∈ done, ledgerOf after e.1 = (ledgerOf before e.1).reserve sessionId e.2
  others : ∀ n ∉ done.map (·.1), ledgerOf after n = ledgerOf before n
  result : rest = [] ∧ result = .ok () ∨ ∃ e ∈ rest.head?, Exceeds before e ∧
    result = .err (.insufficientResources e.1)

section
variable {sessionId : SessionId} {before : HashMap NodeId NodeAllocation}
  {done rest : List (Σ _ : NodeId, ResourceAllocation)} {result : Outcome ScheduleError Unit}
  {after : HashMap NodeId NodeAllocation} {e : Σ _ : NodeId, ResourceAllocation}

/-- One more entry before the others: it does not change what they find. -/
theorem Reserved.cons (hfits : ¬ Exceeds before e)
    (hnew : e.1 ∉ (done ++ rest).map (·.1))
    (h : Reserved sessionId (before.upsert e.1 NodeAllocation.zero (.reserve sessionId e.2))
      done rest result after) :
    Reserved sessionId before (e :: done) rest result after := by
  have hne : ∀ e' ∈ done ++ rest, e'.1 ≠ e.1 := fun e' he' heq =>
    hnew (heq ▸ List.mem_map_of_mem he')
  have hexceeds : ∀ e' ∈ done ++ rest,
      (Exceeds (before.upsert e.1 NodeAllocation.zero (.reserve sessionId e.2)) e' ↔
        Exceeds before e') := fun e' he' => by
    rw [Exceeds, ledgerOf_upsert_ne (hne e' he'), Exceeds]
  refine ⟨fun e' he' => ?_, fun e' he' => ?_, fun n hn => ?_, ?_⟩
  · rcases List.mem_cons.1 he' with rfl | he'
    · exact hfits
    · have hmem := List.mem_append_left rest he'
      exact fun hover => h.fits e' he' ((hexceeds e' hmem).2 hover)
  · rcases List.mem_cons.1 he' with rfl | he'
    · rw [h.others e'.1 fun hdone => hnew (by
        rw [List.map_append]
        exact List.mem_append_left _ hdone), ledgerOf_upsert]
    · rw [h.committed e' he', ledgerOf_upsert_ne (hne e' (List.mem_append_left rest he'))]
  · rw [List.map_cons, List.mem_cons, not_or] at hn
    rw [h.others n hn.2, ledgerOf_upsert_ne hn.1]
  · rcases h.result with hok | ⟨e', he', hover, herr⟩
    · exact .inl hok
    · have hmem := List.mem_append_right done (List.mem_of_mem_head? he')
      exact .inr ⟨e', he', (hexceeds e' hmem).1 hover, herr⟩

/-- **The loop** commits the entries before the first that exceeds its node's limit. -/
theorem reserveLoop_reserved (sessionId : SessionId)
    {es : List (Σ _ : NodeId, ResourceAllocation)} (hnodup : (es.map (·.1)).Nodup)
    (before : HashMap NodeId NodeAllocation) :
    ∃ done rest, es = done ++ rest ∧ Reserved sessionId before done rest
      (reserveLoop sessionId es before).1 (reserveLoop sessionId es before).2 := by
  induction es generalizing before with
  | nil =>
    exact ⟨[], [], rfl, by simp, by simp, fun _ _ => rfl, .inl ⟨rfl, rfl⟩⟩
  | cons e es ih =>
    obtain ⟨nodeId, allocation⟩ := e
    rw [List.map_cons, List.nodup_cons] at hnodup
    rw [reserveLoop]
    split
    · next hover =>
      refine ⟨[], _, rfl, by simp, by simp, fun n _ => ?_, .inr ⟨_, rfl, hover, rfl⟩⟩
      -- `or_insert_with` has run: the node may have a zero entry now
      by_cases hn : n = nodeId
      · rw [hn, ledgerOf_upsert, id]
      · rw [ledgerOf_upsert_ne hn]
    · next hfits =>
      obtain ⟨done, rest, rfl, h⟩ := ih hnodup.2
        (before.upsert nodeId NodeAllocation.zero (.reserve sessionId allocation))
      exact ⟨⟨nodeId, allocation⟩ :: done, rest, rfl, Reserved.cons hfits hnodup.1 h⟩

/-- A commit leaves a trace: the node has one more active session. -/
theorem Reserved.ledgerOf_ne (h : Reserved sessionId before done rest result after)
    (he : e ∈ done) : ledgerOf after e.1 ≠ ledgerOf before e.1 := by
  intro heq
  have hlen := congrArg (fun a : NodeAllocation => a.activeSessions.length)
    ((h.committed e he).symm.trans heq)
  simp [NodeAllocation.reserve] at hlen

end

/-- A reservation that fails leaves every node's entry as it was. -/
def AllOrNothing (visit : HashMap.Visit NodeId ResourceAllocation) (sessionId : SessionId)
    (allocations : HashMap NodeId ResourceAllocation) (ledger : HashMap NodeId NodeAllocation) :
    Prop :=
  ∀ e, (reserveResources visit sessionId allocations ledger).1 = .err e →
    ∀ n, ledgerOf (reserveResources visit sessionId allocations ledger).2 n = ledgerOf ledger n

/-- **When a reservation is all or nothing**: no allocation exceeds its node's limit, or the one
visited first does. -/
theorem allOrNothing_iff (visit : HashMap.Visit NodeId ResourceAllocation) (sessionId : SessionId)
    (allocations : HashMap NodeId ResourceAllocation) (ledger : HashMap NodeId NodeAllocation) :
    AllOrNothing visit sessionId allocations ledger ↔
      ((∃ e ∈ visit.order allocations, Exceeds ledger e) →
        ∃ e ∈ (visit.order allocations).head?, Exceeds ledger e) := by
  have hnodup : ((visit.order allocations).map (·.1)).Nodup :=
    ((visit.perm allocations).map _).nodup_iff.2 allocations.keys_nodup
  obtain ⟨done, rest, horder, h⟩ := reserveLoop_reserved sessionId hnodup ledger
  rw [AllOrNothing, reserveResources]
  constructor
  · rintro hkeep ⟨e, he, hover⟩
    rw [horder] at he ⊢
    rcases List.mem_append.1 he with hdone | hrest
    · exact absurd hover (h.fits e hdone)
    · rcases h.result with ⟨rfl, -⟩ | ⟨e', he', hover', herr⟩
      · cases hrest
      · cases done with
        | nil => exact ⟨e', he', hover'⟩
        | cons d done => exact absurd (hkeep _ herr d.1) (h.ledgerOf_ne (List.mem_cons_self ..))
  · intro hfirst err herr n
    rcases h.result with ⟨-, hok⟩ | ⟨e, he, hover, -⟩
    · rw [hok] at herr
      cases herr
    · obtain ⟨e', he', hover'⟩ := hfirst ⟨e, by
        rw [horder]
        exact List.mem_append_right _ (List.mem_of_mem_head? he), hover⟩
      cases done with
      | nil => exact h.others n (by simp)
      | cons d done =>
        rw [horder] at he'
        obtain rfl := Option.some.inj he'
        exact absurd hover' (h.fits d (List.mem_cons_self ..))

/-- Two allocations of 30 %, the second on a node that has 90 % allocated. -/
def twoAllocations : HashMap NodeId ResourceAllocation := calculateAllocations [⟨2⟩, ⟨1⟩]

def busyLedger : HashMap NodeId NodeAllocation :=
  (∅ : HashMap NodeId NodeAllocation).insert ⟨2⟩ ⟨90.0, 0, 0, [⟨5⟩]⟩

/-- The reservation fails at the second node, and the first keeps its share. -/
theorem not_allOrNothing_busy :
    ¬ AllOrNothing (.stored _ _) ⟨7⟩ twoAllocations busyLedger := by
  intro h
  have hkeep := h (.insufficientResources ⟨2⟩) (Outcome.err?_eq_some.1 (by decide +kernel)) ⟨1⟩
  exact absurd hkeep (by decide +kernel)

end TensorGrid.Scheduler
