import TensorGrid.TensorDirectory.Entries

/-!
# Eviction is complete and exact

`evict_from_node` only visits the ids in the node index, which may hold duplicates and stale ids.
What it needs of the index is one-sided: `Indexed d`, every entry has a placement and every
placement's tensor is in the index of its node. Each operation keeps it (`indexed_step`).

The eviction loop is described by what it does to one id (`lookup_evictOne`), then to all
(`lookup_evictLoop`, `evicted_evictLoop`): visiting an id twice changes its version only.
-/

namespace TensorGrid.TensorDirectory

open Rust

/-- Tensor `t` occurs in `node_tensors[n]`. -/
def InIndex (index : HashMap NodeId (List TensorId)) (n : NodeId) (t : TensorId) : Prop :=
  ∃ ids, index.lookup n = some ids ∧ t ∈ ids

/-- The one-sided index invariant (module doc). -/
structure Indexed (d : TensorDirectory) : Prop where
  placed : ∀ t e, d.tensors.lookup t = some e → e.placements ≠ []
  index : ∀ t e, d.tensors.lookup t = some e → ∀ p ∈ e.placements,
    InIndex d.nodeTensors p.nodeId t

/-! ## The index -/

theorem inIndex_pushIndex_self (index : HashMap NodeId (List TensorId)) (n : NodeId)
    (t : TensorId) : InIndex (pushIndex n t index) n t :=
  ⟨_, HashMap.lookup_upsert .., by simp⟩

theorem InIndex.push {index : HashMap NodeId (List TensorId)} {n : NodeId} {t : TensorId}
    (h : InIndex index n t) (m : NodeId) (u : TensorId) : InIndex (pushIndex m u index) n t := by
  obtain ⟨ids, hl, ht⟩ := h
  by_cases hn : n = m
  · subst hn
    exact ⟨_, HashMap.lookup_upsert .., by simp [hl, ht]⟩
  · exact ⟨ids, by simp [pushIndex, hn, hl], ht⟩

/-- Dropping `u` from the index of `m` leaves every other pair. -/
theorem InIndex.retain {index : HashMap NodeId (List TensorId)} {n m : NodeId} {t u : TensorId}
    (h : InIndex index n t) (hne : n ≠ m ∨ t ≠ u) : InIndex (retainIndex m u index) n t := by
  obtain ⟨ids, hl, ht⟩ := h
  unfold retainIndex
  split
  · exact ⟨ids, hl, ht⟩
  · next us hm =>
    by_cases hn : n = m
    · subst hn
      obtain rfl : ids = us := Option.some.inj (hl.symm.trans hm)
      have hmem : t ∈ ids.filter (· != u) := by simpa [ht] using hne
      have hnil : (ids.filter (· != u)).isEmpty = false := by
        cases hf : ids.filter (· != u) with
        | nil => rw [hf] at hmem; cases hmem
        | cons => rfl
      simp only [hnil, Bool.false_eq_true, if_false]
      exact ⟨_, by simp [hl], hmem⟩
    · dsimp only
      split <;> exact ⟨ids, by simp [hn, hl], ht⟩

theorem InIndex.erase {index : HashMap NodeId (List TensorId)} {n m : NodeId} {t : TensorId}
    (h : InIndex index n t) (hne : n ≠ m) : InIndex (index.erase m) n t := by
  obtain ⟨ids, hl, ht⟩ := h
  exact ⟨ids, by simp [hne, hl], ht⟩

/-! ## One entry under eviction -/

/-- One round of the loop at the visited id and elsewhere. -/
theorem lookup_evictOne (n : NodeId) (m : HashMap TensorId TensorEntry) (ev : List TensorId)
    (id t : TensorId) : (evictOne n (m, ev) id).1.lookup t =
      if t = id then (m.lookup t).bind fun e =>
        if e.offNode n = [] then none else some (evictEntry n e)
      else m.lookup t := by
  unfold evictOne
  by_cases ht : t = id
  · subst ht
    cases he : m.lookup t with
    | none => simp [he]
    | some e =>
      simp only [if_true, Option.bind_some, List.isEmpty_iff]
      by_cases hn : e.offNode n = []
      · simp [hn]
      · simp [hn, he, evictEntry]
  · simp only [ht, if_false]
    split
    · rfl
    · split <;> simp [ht]

/-- The id of the round is reported exactly if its entry is removed. -/
theorem evicted_evictOne (n : NodeId) (m : HashMap TensorId TensorEntry) (ev : List TensorId)
    (id : TensorId) : (evictOne n (m, ev) id).2 =
      if ∃ e, m.lookup id = some e ∧ e.offNode n = [] then ev ++ [id] else ev := by
  unfold evictOne
  cases he : m.lookup id with
  | none => simp
  | some e => by_cases hn : e.offNode n = [] <;> simp [hn]

/-! ## The loop -/

/-- The entry has lost its placements on `n`; the version apart, nothing else changed. -/
def OffNode (n : NodeId) (e e' : TensorEntry) : Prop :=
  e' = { e with placements := e.offNode n, version := e'.version }

theorem lookup_evictLoop (n : NodeId) (ids : List TensorId) (m : HashMap TensorId TensorEntry)
    (ev : List TensorId) (t : TensorId) :
    let m' := (ids.foldl (evictOne n) (m, ev)).1
    (t ∉ ids → m'.lookup t = m.lookup t) ∧
    (m.lookup t = none → m'.lookup t = none) ∧
    (∀ e, t ∈ ids → m.lookup t = some e → e.offNode n = [] → m'.lookup t = none) ∧
    (∀ e, t ∈ ids → m.lookup t = some e → e.offNode n ≠ [] →
      ∃ e', m'.lookup t = some e' ∧ OffNode n e e') := by
  induction ids generalizing m ev with
  | nil => simp
  | cons id ids ih =>
    simp only [List.foldl_cons]
    obtain ⟨ihout, ihnone, ihgone, ihkeep⟩ :=
      ih (evictOne n (m, ev) id).1 (evictOne n (m, ev) id).2
    have hone := lookup_evictOne n m ev id t
    refine ⟨fun ht => ?_, fun hn => ?_, fun e ht he hoff => ?_, fun e ht he hoff => ?_⟩
    · rw [List.mem_cons, not_or] at ht
      rw [ihout ht.2, hone, if_neg ht.1]
    · refine ihnone ?_
      rw [hone]
      split <;> simp [hn]
    · by_cases hid : t = id
      · refine ihnone ?_
        rw [hone, if_pos hid, he]
        simp [hoff]
      · rw [if_neg hid, he] at hone
        exact ihgone e (by simpa [hid] using ht) hone hoff
    · by_cases hid : t = id
      · have hvis : (evictOne n (m, ev) id).1.lookup t = some (evictEntry n e) := by
          rw [hone, if_pos hid, he]
          simp [hoff]
        by_cases hin : t ∈ ids
        · obtain ⟨e', he', hk⟩ := ihkeep _ hin hvis (by simpa using hoff)
          exact ⟨e', he', by rw [hk]; simp [evictEntry, OffNode, TensorEntry.offNode]⟩
        · exact ⟨evictEntry n e, (ihout hin).trans hvis, by simp [evictEntry, OffNode]⟩
      · rw [if_neg hid, he] at hone
        exact ihkeep e (by simpa [hid] using ht) hone hoff

/-- The ids reported by the loop: those visited whose entry had no placement elsewhere, each
once. -/
theorem evicted_evictLoop (n : NodeId) (ids : List TensorId) (m : HashMap TensorId TensorEntry)
    (ev : List TensorId) : ∃ out, (ids.foldl (evictOne n) (m, ev)).2 = ev ++ out ∧ out.Nodup ∧
      ∀ t, t ∈ out ↔ t ∈ ids ∧ ∃ e, m.lookup t = some e ∧ e.offNode n = [] := by
  induction ids generalizing m ev with
  | nil => exact ⟨[], by simp, by simp, by simp⟩
  | cons id ids ih =>
    obtain ⟨out, hout, hnd, hmem⟩ := ih (evictOne n (m, ev) id).1 (evictOne n (m, ev) id).2
    simp only [List.foldl_cons]
    -- an id other than the visited one sees the same entry before and after the round
    have hrest : ∀ t, t ≠ id → (t ∈ out ↔ t ∈ ids ∧ ∃ e, m.lookup t = some e ∧
        e.offNode n = []) := by
      intro t ht
      rw [hmem, lookup_evictOne, if_neg ht]
    by_cases hgone : ∃ e, m.lookup id = some e ∧ e.offNode n = []
    · have hid : id ∉ out := by
        obtain ⟨e, he, hoff⟩ := hgone
        rw [hmem, lookup_evictOne, if_pos rfl, he]
        simp [hoff]
      refine ⟨id :: out, ?_, List.nodup_cons.2 ⟨hid, hnd⟩, fun t => ?_⟩
      · rw [hout, evicted_evictOne, if_pos hgone]
        simp
      · by_cases ht : t = id
        · subst ht
          simpa using hgone
        · simp [ht, hrest t ht]
    · have hid : id ∉ out := by
        rw [hmem, lookup_evictOne, if_pos rfl]
        rintro ⟨-, e', he', hoff⟩
        cases he : m.lookup id with
        | none => simp [he] at he'
        | some e =>
          have hne : e.offNode n ≠ [] := fun h => hgone ⟨e, he, h⟩
          simp only [he, Option.bind_some, hne, if_false, Option.some.injEq] at he'
          subst he'
          exact hne (by simpa using hoff)
      refine ⟨out, ?_, hnd, fun t => ?_⟩
      · rw [hout, evicted_evictOne, if_neg hgone]
      · by_cases ht : t = id
        · subst ht
          simp [hid, hgone]
        · simp [ht, hrest t ht]

/-! ## Invariant -/

theorem indexed_new : Indexed new where
  placed t e h := by simp [new] at h
  index t e h := by simp [new] at h

theorem Indexed.registerTensor {d : TensorDirectory} (h : Indexed d) (r : Registration) :
    Indexed (d.registerTensor r).2 := by
  refine ⟨fun t e he => ?_, fun t e he p hp => ?_⟩
  · rcases of_lookup_registerTensor he with ⟨-, rfl⟩ | ⟨-, he⟩
    · exact List.cons_ne_nil _ _
    · exact h.placed t e he
  · rcases of_lookup_registerTensor he with ⟨rfl, rfl⟩ | ⟨-, he⟩
    · obtain rfl := List.mem_singleton.1 hp
      exact inIndex_pushIndex_self ..
    · exact (h.index t e he p hp).push ..

theorem Indexed.getTensor {d : TensorDirectory} (h : Indexed d) (t : TensorId) (now : DateTime) :
    Indexed (d.getTensor t now).2 := by
  refine ⟨fun u e he => ?_, fun u e he p hp => ?_⟩
  · obtain ⟨e₀, _, he₀, rfl⟩ := of_lookup_getTensor he
    exact h.placed u e₀ he₀
  · obtain ⟨e₀, _, he₀, rfl⟩ := of_lookup_getTensor he
    exact h.index u e₀ he₀ p hp

theorem Indexed.addPlacement {d : TensorDirectory} (h : Indexed d) (t : TensorId)
    (q : PhysicalPlacement) : Indexed (d.addPlacement t q).2 := by
  by_cases hmem : t ∈ d.tensors
  case neg => rwa [addPlacement_of_notMem hmem]
  refine ⟨fun u e he => ?_, fun u e he p hp => ?_⟩
  · rcases of_lookup_addPlacement he with ⟨-, e₀, -, rfl⟩ | ⟨-, he⟩
    · simp [grow]
    · exact h.placed u e he
  · have hindex : (d.addPlacement t q).2.nodeTensors = pushIndex q.nodeId t d.nodeTensors := by
      rw [addPlacement_of_mem hmem]
    rw [hindex]
    rcases of_lookup_addPlacement he with ⟨rfl, e₀, he₀, rfl⟩ | ⟨-, he⟩
    · rcases List.mem_append.1 hp with hp | hp
      · exact (h.index u e₀ he₀ p hp).push ..
      · obtain rfl := List.mem_singleton.1 hp
        exact inIndex_pushIndex_self ..
    · exact (h.index u e he p hp).push ..

theorem Indexed.removePlacement {d : TensorDirectory} (h : Indexed d) (t : TensorId) (n : NodeId) :
    Indexed (d.removePlacement t n).2 := by
  cases he₀ : d.tensors.lookup t with
  | none => rwa [removePlacement_of_none he₀]
  | some e₀ =>
    refine ⟨fun u e he => ?_, fun u e he p hp => ?_⟩
    · rcases of_lookup_removePlacement he with ⟨-, e₁, -, hne, rfl⟩ | ⟨-, he⟩
      · exact hne
      · exact h.placed u e he
    · rw [nodeTensors_removePlacement he₀]
      rcases of_lookup_removePlacement he with ⟨-, e₁, he₁, -, rfl⟩ | ⟨hu, he⟩
      · obtain ⟨hp, hpn⟩ := mem_offNode.1 hp
        exact (h.index u e₁ he₁ p hp).retain (.inl hpn)
      · exact (h.index u e he p hp).retain (.inr hu)

/-- What an eviction leaves of an entry: its placements on the other nodes, if there are any. -/
theorem lookup_evictFromNode {d : TensorDirectory} (h : Indexed d) (n : NodeId) (t : TensorId)
    (e : TensorEntry) (he : d.tensors.lookup t = some e) :
    (e.offNode n = [] → (d.evictFromNode n).2.tensors.lookup t = none) ∧
    (e.offNode n ≠ [] → ∃ e', (d.evictFromNode n).2.tensors.lookup t = some e' ∧ OffNode n e e') := by
  obtain ⟨hout, -, hgone, hkeep⟩ :=
    lookup_evictLoop n ((d.nodeTensors.lookup n).getD []) d.tensors [] t
  by_cases hon : ∃ p ∈ e.placements, p.nodeId = n
  · obtain ⟨p, hp, rfl⟩ := hon
    obtain ⟨ids, hl, ht⟩ := h.index t e he p hp
    have hin : t ∈ (d.nodeTensors.lookup p.nodeId).getD [] := by simpa [hl] using ht
    exact ⟨hgone e hin he, hkeep e hin he⟩
  · have hoff : e.offNode n = e.placements :=
      List.filter_eq_self.2 fun p hp => by simpa using fun hpn => hon ⟨p, hp, hpn⟩
    refine ⟨fun hnil => absurd (hoff ▸ hnil) (h.placed t e he), fun hne => ?_⟩
    by_cases hin : t ∈ (d.nodeTensors.lookup n).getD []
    · exact hkeep e hin he hne
    · exact ⟨e, (hout hin).trans he, by simp [OffNode, hoff]⟩

theorem lookup_evictFromNode_none {d : TensorDirectory} (n : NodeId) (t : TensorId)
    (he : d.tensors.lookup t = none) : (d.evictFromNode n).2.tensors.lookup t = none :=
  (lookup_evictLoop n ((d.nodeTensors.lookup n).getD []) d.tensors [] t).2.1 he

/-- An entry after an eviction comes from one before it. -/
theorem of_lookup_evictFromNode {d : TensorDirectory} (h : Indexed d) {n : NodeId} {t : TensorId}
    {e' : TensorEntry} (he' : (d.evictFromNode n).2.tensors.lookup t = some e') :
    ∃ e, d.tensors.lookup t = some e ∧ e.offNode n ≠ [] ∧ OffNode n e e' := by
  cases he : d.tensors.lookup t with
  | none => rw [lookup_evictFromNode_none n t he] at he'; cases he'
  | some e =>
    obtain ⟨hgone, hkeep⟩ := lookup_evictFromNode h n t e he
    by_cases hoff : e.offNode n = []
    · rw [hgone hoff] at he'; cases he'
    · obtain ⟨e₁, he₁, hk⟩ := hkeep hoff
      obtain rfl : e₁ = e' := Option.some.inj (he₁.symm.trans he')
      exact ⟨e, rfl, hoff, hk⟩

theorem Indexed.evictFromNode {d : TensorDirectory} (h : Indexed d) (n : NodeId) :
    Indexed (d.evictFromNode n).2 := by
  refine ⟨fun t e' he' => ?_, fun t e' he' p hp => ?_⟩
  · obtain ⟨e, -, hoff, hk⟩ := of_lookup_evictFromNode h he'
    rw [hk]
    exact hoff
  · obtain ⟨e, he, -, hk⟩ := of_lookup_evictFromNode h he'
    rw [hk] at hp
    obtain ⟨hp, hpn⟩ := mem_offNode.1 hp
    exact (h.index t e he p hp).erase hpn

theorem Indexed.transferTensor {d : TensorDirectory} (h : Indexed d) (t : TensorId) (a b : NodeId)
    (data : List UInt8) : Indexed (d.transferTensor t a b data).2 := by
  unfold TensorDirectory.transferTensor
  split
  · exact h
  · split
    · exact h
    · exact h.addPlacement ..

theorem Indexed.apply {d : TensorDirectory} (h : Indexed d) (op : Op) : Indexed (d.apply op) := by
  cases op with
  | registerTensor r => exact h.registerTensor r
  | getTensor t now => exact h.getTensor t now
  | addPlacement t p => exact h.addPlacement t p
  | removePlacement t n => exact h.removePlacement t n
  | evictFromNode n => exact h.evictFromNode n
  | transferTensor t a b data => exact h.transferTensor t a b data

theorem indexed_run (ops : List Op) : Indexed (run ops) :=
  List.foldlRecOn ops apply indexed_new fun _ h op _ => h.apply op

/-! ## Eviction -/

/-- **Eviction is complete and exact** in every state of every run: every entry has a placement
and all its placements are indexed; evicting `n` succeeds and reports, once each, the ids of the
entries placed on `n` alone; these are the entries removed; and every other entry keeps exactly
its placements on other nodes, in order. -/
theorem evictFromNode_exact (ops : List Op) :
    (∀ t e, (run ops).tensors.lookup t = some e →
      e.placements ≠ [] ∧ ∀ p ∈ e.placements, InIndex (run ops).nodeTensors p.nodeId t) ∧
    ∀ n, ∃ evicted, ((run ops).evictFromNode n).1 = .ok evicted ∧ evicted.Nodup ∧
      (∀ t, t ∈ evicted ↔
        ∃ e, (run ops).tensors.lookup t = some e ∧ ∀ p ∈ e.placements, p.nodeId = n) ∧
      (∀ t, t ∈ ((run ops).evictFromNode n).2.tensors ↔ t ∈ (run ops).tensors ∧ t ∉ evicted) ∧
      ∀ t e', ((run ops).evictFromNode n).2.tensors.lookup t = some e' →
        (∀ p ∈ e'.placements, p.nodeId ≠ n) ∧
        ∃ e, (run ops).tensors.lookup t = some e ∧
          e'.placements = e.placements.filter (·.nodeId != n) := by
  have h := indexed_run ops
  generalize run ops = d at h
  refine ⟨fun t e he => ⟨h.placed t e he, h.index t e he⟩, fun n => ?_⟩
  obtain ⟨out, hout, hnd, hmem⟩ :=
    evicted_evictLoop n ((d.nodeTensors.lookup n).getD []) d.tensors []
  have hev : ∀ t, t ∈ out ↔
      ∃ e, d.tensors.lookup t = some e ∧ ∀ p ∈ e.placements, p.nodeId = n := by
    intro t
    simp only [hmem, offNode_nil_iff, and_iff_right_iff_imp, forall_exists_index, and_imp]
    -- such an entry has a placement, which is on `n` and indexed there
    intro e he hall
    obtain ⟨p, hp⟩ := List.exists_mem_of_ne_nil _ (h.placed t e he)
    obtain ⟨ids, hl, ht⟩ := hall p hp ▸ h.index t e he p hp
    simpa [hl] using ht
  refine ⟨out, ?_, hnd, hev, fun t => ?_, fun t e' he' => ?_⟩
  · simpa [evictFromNode] using hout
  · constructor
    · intro ht
      obtain ⟨e', he'⟩ := HashMap.lookup_of_mem ht
      obtain ⟨e, he, hoff, -⟩ := of_lookup_evictFromNode h he'
      refine ⟨HashMap.mem_of_lookup he, fun hin => ?_⟩
      obtain ⟨e₁, he₁, hall⟩ := (hev t).1 hin
      obtain rfl : e = e₁ := Option.some.inj (he.symm.trans he₁)
      exact hoff (offNode_nil_iff.2 hall)
    · rintro ⟨ht, hnot⟩
      obtain ⟨e, he⟩ := HashMap.lookup_of_mem ht
      obtain ⟨e', he', -⟩ := (lookup_evictFromNode h n t e he).2 fun hoff =>
        hnot ((hev t).2 ⟨e, he, offNode_nil_iff.1 hoff⟩)
      exact HashMap.mem_of_lookup he'
  · obtain ⟨e, he, -, hk⟩ := of_lookup_evictFromNode h he'
    rw [OffNode] at hk
    have hpl : e'.placements = e.offNode n := by rw [hk]
    exact ⟨fun p hp => (mem_offNode.1 (hpl ▸ hp)).2, e, he, hpl⟩

end TensorGrid.TensorDirectory
