import TensorGrid.TensorDirectory.Placements

/-!
# When versions identify placement lists

A version tracks the placement list if it goes up whenever the list changes, and stays otherwise
(`Tracked`). The operations raise it whatever they find: a removal also where the node had no
placement, an eviction once for each time the id is in the index; and a registration sets it back
to 1. `BumpsOnChange` says when that comes to the same (`versionsTrack_iff`, and for runs
`meets_versionsTrack_iff`).
-/

namespace TensorGrid.TensorDirectory

open Rust

/-- The version goes up if the placement list changes, and stays if it does not. -/
def Tracked (e e' : TensorEntry) : Prop :=
  (e'.placements ≠ e.placements → e.version < e'.version) ∧
    (e'.placements = e.placements → e'.version = e.version)

/-- The versions of all tensors that stay in the directory track their placement lists. -/
def VersionsTrack (d : TensorDirectory) (op : Op) : Prop :=
  ∀ t e e', d.tensors.lookup t = some e → (d.apply op).tensors.lookup t = some e' → Tracked e e'

/-- How often an eviction visits a tensor, which is by how much it raises its version. -/
def visits (d : TensorDirectory) (n : NodeId) (t : TensorId) : UInt64 :=
  UInt64.ofNat (((d.nodeTensors.lookup n).getD []).count t)

/-- The operation raises versions only with a change, and no version wraps around; a tensor is
registered again only as it is. -/
def BumpsOnChange (d : TensorDirectory) : Op → Prop
  | .registerTensor r => ∀ e, d.tensors.lookup r.tensorId = some e →
    e.version = if e.placements = [r.placement] then 1 else 0
  | .getTensor _ _ => True
  | .addPlacement t _ => ∀ e, d.tensors.lookup t = some e → e.version < e.version + 1
  | .removePlacement t n => ∀ e, d.tensors.lookup t = some e → e.offNode n ≠ [] →
    PlacedOn n e ∧ e.version < e.version + 1
  | .evictFromNode n => ∀ t e, d.tensors.lookup t = some e → e.offNode n ≠ [] →
    (PlacedOn n e → e.version < e.version + visits d n t) ∧ (¬ PlacedOn n e → visits d n t = 0)
  | .transferTensor t a _ _ => ∀ e, d.tensors.lookup t = some e → PlacedOn a e →
    e.version < e.version + 1

/-! ## One entry -/

theorem Tracked.of_eq {e e' : TensorEntry} (hplacements : e'.placements = e.placements)
    (hversion : e'.version = e.version) : Tracked e e' :=
  ⟨fun hne => absurd hplacements hne, fun _ => hversion⟩

theorem tracked_grow_iff {p : PhysicalPlacement} {e : TensorEntry} :
    Tracked e (grow p e) ↔ e.version < e.version + 1 := by
  have hne : (grow p e).placements ≠ e.placements := by simp [grow]
  exact ⟨fun h => h.1 hne, fun h => ⟨fun _ => h, fun heq => absurd heq hne⟩⟩

theorem offNode_eq_iff {n : NodeId} {e : TensorEntry} :
    e.offNode n = e.placements ↔ ¬ PlacedOn n e := by
  rw [TensorEntry.offNode, List.filter_eq_self]
  constructor
  · rintro h ⟨p, hp, hn⟩
    simpa [hn] using h p hp
  · exact fun h p hp => bne_iff_ne.2 fun hn => h ⟨p, hp, hn⟩

/-- The entry lost its placements on the node. -/
theorem tracked_offNode_iff {n : NodeId} {e e' : TensorEntry}
    (h : e'.placements = e.offNode n) : Tracked e e' ↔
      (PlacedOn n e → e.version < e'.version) ∧ (¬ PlacedOn n e → e'.version = e.version) := by
  rw [Tracked, h, Ne, offNode_eq_iff, not_not]

theorem tracked_evictEntry_iff {n : NodeId} {e : TensorEntry} :
    Tracked e (evictEntry n e) ↔ PlacedOn n e ∧ e.version < e.version + 1 := by
  have hne : (evictEntry n e).version ≠ e.version := fun h => by
    have hone : (1 : UInt64) = 0 := add_eq_left.1 h
    exact absurd hone (by decide)
  rw [tracked_offNode_iff (n := n) rfl]
  constructor
  · rintro ⟨hon, hoff⟩
    have hplaced : PlacedOn n e := by_contra fun h => hne (hoff h)
    exact ⟨hplaced, hon hplaced⟩
  · rintro ⟨hplaced, hlt⟩
    exact ⟨fun _ => hlt, fun h => absurd hplaced h⟩

/-! ## One operation -/

section
variable {d : TensorDirectory} {op : Op} {t : TensorId}

/-- An operation on one tensor. -/
theorem versionsTrack_iff_of_others
    (h : ∀ u, u ≠ t → (d.apply op).tensors.lookup u = d.tensors.lookup u) :
    VersionsTrack d op ↔ ∀ e, d.tensors.lookup t = some e →
      ∀ e', (d.apply op).tensors.lookup t = some e' → Tracked e e' := by
  constructor
  · exact fun htrack e he e' he' => htrack t e e' he he'
  · intro htrack u e e' he he'
    by_cases hu : u = t
    · exact htrack e (hu ▸ he) e' (hu ▸ he')
    · rw [h u hu, he] at he'
      obtain rfl := Option.some.inj he'
      exact .of_eq rfl rfl

/-- An operation that changes no tensor. -/
theorem versionsTrack_of_eq (h : (d.apply op).tensors = d.tensors) : VersionsTrack d op := by
  intro t e e' he he'
  rw [h, he] at he'
  obtain rfl := Option.some.inj he'
  exact .of_eq rfl rfl

theorem versionsTrack_registerTensor (r : Registration) :
    VersionsTrack d (.registerTensor r) ↔ BumpsOnChange d (.registerTensor r) := by
  have hothers (u : TensorId) (hu : u ≠ r.tensorId) :
      (d.apply (.registerTensor r)).tensors.lookup u = d.tensors.lookup u :=
    lookup_registerTensor_ne hu
  rw [versionsTrack_iff_of_others hothers]
  refine forall₂_congr fun e he => ?_
  rw [TensorDirectory.apply, lookup_registerTensor]
  refine ⟨fun h => ?_, fun h e' he' => ?_⟩
  · obtain ⟨hchanged, hsame⟩ := h _ rfl
    split
    · next heq => exact (hsame heq.symm).symm
    · next hne => exact UInt64.lt_one_iff.1 (hchanged fun heq => hne heq.symm)
  · obtain rfl := Option.some.inj he'
    refine ⟨fun hne => ?_, fun heq => ?_⟩
    · have hzero : e.version = 0 := h.trans (if_neg fun heq => hne heq.symm)
      rw [hzero]
      exact (by decide : (0 : UInt64) < 1)
    · exact (h.trans (if_pos heq.symm)).symm

theorem versionsTrack_getTensor (t : TensorId) (now : DateTime) :
    VersionsTrack d (.getTensor t now) := by
  intro u e e' he he'
  obtain ⟨e₀, _, he₀, rfl⟩ := of_lookup_getTensor he'
  obtain rfl := Option.some.inj (he.symm.trans he₀)
  exact .of_eq rfl rfl

theorem versionsTrack_addPlacement (t : TensorId) (p : PhysicalPlacement) :
    VersionsTrack d (.addPlacement t p) ↔ BumpsOnChange d (.addPlacement t p) := by
  have hothers (u : TensorId) (hu : u ≠ t) :
      (d.apply (.addPlacement t p)).tensors.lookup u = d.tensors.lookup u :=
    lookup_addPlacement_ne hu
  rw [versionsTrack_iff_of_others hothers]
  refine forall₂_congr fun e he => ?_
  rw [TensorDirectory.apply, lookup_addPlacement p he, ← tracked_grow_iff (p := p)]
  exact ⟨fun h => h _ rfl, fun h e' he' => Option.some.inj he' ▸ h⟩

theorem versionsTrack_transferTensor (t : TensorId) (a b : NodeId) (data : List UInt8) :
    VersionsTrack d (.transferTensor t a b data) ↔
      BumpsOnChange d (.transferTensor t a b data) := by
  rcases transferTensor_eq d t a b data with ⟨⟨e, he, hon⟩, p, -, heq⟩ | ⟨hno, heq⟩
  · have happly : d.apply (.transferTensor t a b data) = d.apply (.addPlacement t p) :=
      congrArg Prod.snd heq
    have hadd := versionsTrack_addPlacement (d := d) t p
    rw [VersionsTrack, happly, ← VersionsTrack, hadd]
    constructor
    · exact fun h e' he' _ => h e' he'
    · intro h e' he'
      obtain rfl := Option.some.inj (he.symm.trans he')
      exact h e he hon
  · refine iff_of_true (versionsTrack_of_eq ?_) fun e he hon => absurd ⟨e, he, hon⟩ hno
    rw [TensorDirectory.apply, heq]

theorem versionsTrack_removePlacement (t : TensorId) (n : NodeId) :
    VersionsTrack d (.removePlacement t n) ↔ BumpsOnChange d (.removePlacement t n) := by
  have hothers (u : TensorId) (hu : u ≠ t) :
      (d.apply (.removePlacement t n)).tensors.lookup u = d.tensors.lookup u :=
    lookup_removePlacement_ne hu
  rw [versionsTrack_iff_of_others hothers]
  refine forall₂_congr fun e he => ?_
  rw [TensorDirectory.apply, lookup_removePlacement he, ← tracked_evictEntry_iff]
  split
  · next hnil => exact iff_of_true (by simp) fun hne => absurd hnil hne
  · next hne => exact ⟨fun h _ => h _ rfl, fun h e' he' => Option.some.inj he' ▸ h hne⟩

/-- **The eviction loop** raises the version once for each visit. -/
theorem version_evictLoop {n : NodeId} (ids : List TensorId) {m : HashMap TensorId TensorEntry}
    (ev : List TensorId) {e e' : TensorEntry} (he : m.lookup t = some e)
    (he' : (ids.foldl (evictOne n) (m, ev)).1.lookup t = some e') :
    e'.version = e.version + UInt64.ofNat (ids.count t) := by
  induction ids generalizing m ev e with
  | nil =>
    obtain rfl := Option.some.inj (he.symm.trans he')
    exact (add_zero _).symm
  | cons id ids ih =>
    rw [List.foldl_cons] at he'
    have hone := lookup_evictOne n m ev id t
    by_cases hid : t = id
    · rw [if_pos hid, he, Option.bind_some] at hone
      split at hone
      · -- the entry is gone, and stays so
        have hgone := (lookup_evictLoop n ids (evictOne n (m, ev) id).1
          (evictOne n (m, ev) id).2 t).2.1 hone
        exact absurd (hgone.symm.trans he') (by simp)
      · rw [ih _ hone he', hid, List.count_cons_self, UInt64.ofNat_add]
        show e.version + 1 + _ = e.version + (_ + 1)
        rw [add_assoc, add_comm 1]
    · rw [if_neg hid, he] at hone
      rw [ih _ hone he', List.count_cons_of_ne (Ne.symm hid)]

theorem versionsTrack_evictFromNode (h : Indexed d) (n : NodeId) :
    VersionsTrack d (.evictFromNode n) ↔ BumpsOnChange d (.evictFromNode n) := by
  have hone (t : TensorId) (e e' : TensorEntry) (he : d.tensors.lookup t = some e)
      (he' : (d.evictFromNode n).2.tensors.lookup t = some e') : Tracked e e' ↔
        (PlacedOn n e → e.version < e.version + visits d n t) ∧
          (¬ PlacedOn n e → visits d n t = 0) := by
    obtain ⟨e₀, he₀, -, hoff⟩ := of_lookup_evictFromNode h he'
    obtain rfl := Option.some.inj (he.symm.trans he₀)
    have hversion : e'.version = e.version + visits d n t := version_evictLoop _ [] he he'
    rw [tracked_offNode_iff (n := n) (by rw [hoff]), hversion, add_eq_left]
  refine ⟨fun htrack t e he hne => ?_, fun hbumps t e e' he he' => ?_⟩
  · obtain ⟨e', he', -⟩ := (lookup_evictFromNode h n t e he).2 hne
    exact (hone t e e' he he').1 (htrack t e e' he he')
  · obtain ⟨e₀, he₀, hne, -⟩ := of_lookup_evictFromNode h he'
    obtain rfl := Option.some.inj (he.symm.trans he₀)
    exact (hone t e e' he he').2 (hbumps t e he hne)

end

theorem versionsTrack_iff {d : TensorDirectory} (h : Indexed d) (op : Op) :
    VersionsTrack d op ↔ BumpsOnChange d op := by
  cases op with
  | registerTensor r => exact versionsTrack_registerTensor r
  | getTensor t now => exact iff_of_true (versionsTrack_getTensor t now) trivial
  | addPlacement t p => exact versionsTrack_addPlacement t p
  | removePlacement t n => exact versionsTrack_removePlacement t n
  | evictFromNode n => exact versionsTrack_evictFromNode h n
  | transferTensor t a b data => exact versionsTrack_transferTensor t a b data

/-- **Versions track placement lists along a run exactly if its operations raise them only with a
change**, and register no tensor again as another. -/
theorem meets_versionsTrack_iff (ops : List Op) :
    Lts.Meets step VersionsTrack new ops ↔ Lts.Meets step BumpsOnChange new ops := by
  refine Lts.meets_congr_of_inv (I := Indexed) ?_ (fun _ op h => versionsTrack_iff h op) indexed_new
  rintro d op _ h ⟨⟩
  exact h.apply op

/-- Tensor `t` is on node 1, and its placement on node 2 is removed. -/
def removeElsewhere : List Op :=
  [.registerTensor smallRegistration, .removePlacement "t" ⟨2⟩]

/-- Registered again on node 2, the tensor has another placement list and the same version; with
its placement on node 2 removed, it has the same list and another version. -/
theorem not_meets_versionsTrack :
    ¬ Lts.Meets step VersionsTrack new registerTwice ∧
      ¬ Lts.Meets step VersionsTrack new removeElsewhere := by
  refine ⟨fun h => ?_, fun h => ?_⟩
  · have htrack := ((h _ rfl).2 _ rfl).1 "t" _ _ (lookup_registerTensor new smallRegistration)
      (lookup_registerTensor _ _)
    exact absurd (htrack.1 (by decide)) (by decide)
  · have hentry := lookup_registerTensor new smallRegistration
    have htrack := ((h _ rfl).2 _ rfl).1 "t" _ _ hentry
      ((lookup_removePlacement hentry).trans (if_neg (by decide)))
    exact absurd (htrack.2 (by decide)) (by decide)

end TensorGrid.TensorDirectory
