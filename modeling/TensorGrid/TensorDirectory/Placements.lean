import TensorGrid.TensorDirectory.Index

/-!
# Placements are lost by registering an id again

Removing a placement is what `remove_placement` and `evict_from_node` are for (`Drops`). Every other
operation keeps all placements, except that `register_tensor` replaces the entry of an id that is
already registered (`keeps_iff`). `lasts_iff` is the same for whole runs.
-/

namespace TensorGrid.TensorDirectory

open Rust

/-- The entry of the tensor has the placement. -/
def HasPlacement (tp : TensorId × PhysicalPlacement) (d : TensorDirectory) : Prop :=
  ∃ e, d.tensors.lookup tp.1 = some e ∧ tp.2 ∈ e.placements

/-- The operation is meant to remove the placement. -/
def Drops (tp : TensorId × PhysicalPlacement) : Op → Prop
  | .removePlacement t n => t = tp.1 ∧ n = tp.2.nodeId
  | .evictFromNode n => n = tp.2.nodeId
  | .registerTensor _ | .getTensor _ _ | .addPlacement _ _ | .transferTensor _ _ _ _ => False

/-- A registered id is registered again only with the one placement it has. -/
def ReplacesNothing (d : TensorDirectory) : Op → Prop
  | .registerTensor r =>
    ∀ e, d.tensors.lookup r.tensorId = some e → ∀ p ∈ e.placements, p = r.placement
  | .getTensor _ _ | .addPlacement _ _ | .removePlacement _ _ | .evictFromNode _ |
    .transferTensor _ _ _ _ => True

section
variable {d : TensorDirectory} {tp : TensorId × PhysicalPlacement}

theorem HasPlacement.registerTensor (h : HasPlacement tp d) {r : Registration}
    (hsame : tp.1 = r.tensorId → tp.2 = r.placement) :
    HasPlacement tp (d.registerTensor r).2 := by
  obtain ⟨e, he, hp⟩ := h
  by_cases ht : tp.1 = r.tensorId
  · exact ⟨r.entry, ht ▸ lookup_registerTensor d r, List.mem_singleton.2 (hsame ht)⟩
  · exact ⟨e, (lookup_registerTensor_ne ht).trans he, hp⟩

theorem HasPlacement.getTensor (h : HasPlacement tp d) (t : TensorId) (now : DateTime) :
    HasPlacement tp (d.getTensor t now).2 := by
  obtain ⟨e, he, hp⟩ := h
  obtain ⟨_, htime⟩ := lookup_getTensor t now he
  exact ⟨_, htime, hp⟩

theorem HasPlacement.addPlacement (h : HasPlacement tp d) (t : TensorId) (q : PhysicalPlacement) :
    HasPlacement tp (d.addPlacement t q).2 := by
  obtain ⟨e, he, hp⟩ := h
  by_cases ht : tp.1 = t
  · subst ht
    exact ⟨grow q e, lookup_addPlacement q he, List.mem_append_left _ hp⟩
  · exact ⟨e, (lookup_addPlacement_ne ht).trans he, hp⟩

theorem HasPlacement.removePlacement (h : HasPlacement tp d) {t : TensorId} {n : NodeId}
    (hne : t = tp.1 → n ≠ tp.2.nodeId) : HasPlacement tp (d.removePlacement t n).2 := by
  obtain ⟨e, he, hp⟩ := h
  by_cases ht : tp.1 = t
  · subst ht
    have hkept : tp.2 ∈ e.offNode n := mem_offNode.2 ⟨hp, (hne rfl).symm⟩
    exact ⟨evictEntry n e, (lookup_removePlacement he).trans
      (if_neg (List.ne_nil_of_mem hkept)), hkept⟩
  · exact ⟨e, (lookup_removePlacement_ne ht).trans he, hp⟩

theorem HasPlacement.evictFromNode (h : HasPlacement tp d) {n : NodeId}
    (hne : n ≠ tp.2.nodeId) : HasPlacement tp (d.evictFromNode n).2 := by
  obtain ⟨e, he, hp⟩ := h
  have hkept : tp.2 ∈ e.offNode n := mem_offNode.2 ⟨hp, hne.symm⟩
  obtain ⟨hout, -, -, hkeep⟩ :=
    lookup_evictLoop n ((d.nodeTensors.lookup n).getD []) d.tensors [] tp.1
  by_cases hin : tp.1 ∈ (d.nodeTensors.lookup n).getD []
  · obtain ⟨e', he', hoff⟩ := hkeep e hin he (List.ne_nil_of_mem hkept)
    exact ⟨e', he', by rw [hoff]; exact hkept⟩
  · exact ⟨e, (hout hin).trans he, hp⟩

theorem HasPlacement.transferTensor (h : HasPlacement tp d) (t : TensorId) (a b : NodeId)
    (data : List UInt8) : HasPlacement tp (d.transferTensor t a b data).2 := by
  rcases transferTensor_eq d t a b data with ⟨-, p, -, heq⟩ | ⟨-, heq⟩
  · rw [heq]
    exact h.addPlacement t p
  · rwa [heq]

end

/-- What an operation has to meet in order to keep every placement it is not meant to remove. -/
theorem keeps_iff (d : TensorDirectory) (op : Op) :
    Lts.Keeps step HasPlacement Drops d op ↔ ReplacesNothing d op := by
  constructor
  · intro h
    cases op with
    | registerTensor r =>
      intro e he p hp
      obtain ⟨e', he', hp'⟩ := h (r.tensorId, p) ⟨e, he, hp⟩ id _ rfl
      obtain rfl := Option.some.inj ((lookup_registerTensor d r).symm.trans he')
      exact List.mem_singleton.1 hp'
    | getTensor | addPlacement | removePlacement | evictFromNode | transferTensor => trivial
  · rintro hno tp h hdrop _ ⟨⟩
    cases op with
    | registerTensor r =>
      refine h.registerTensor fun ht => ?_
      obtain ⟨e, he, hp⟩ := h
      exact hno e (ht ▸ he) tp.2 hp
    | getTensor t now => exact h.getTensor t now
    | addPlacement t q => exact h.addPlacement t q
    | removePlacement t n => exact h.removePlacement fun ht hn => hdrop ⟨ht, hn⟩
    | evictFromNode n => exact h.evictFromNode hdrop
    | transferTensor t a b data => exact h.transferTensor t a b data

/-- **Placements last until they are removed exactly along the runs that register no id again with a
placement other than the one it has.** -/
theorem lasts_iff (ops : List Op) :
    Lts.Lasts step HasPlacement Drops new ops ↔ Lts.Meets step ReplacesNothing new ops :=
  Lts.lasts_iff_meets.trans (Lts.meets_congr keeps_iff)

/-- Tensor `t` is registered on node 1 and then on node 2. -/
def registerTwice : List Op :=
  [.registerTensor smallRegistration,
    .registerTensor { smallRegistration with placement := { smallPlacement with nodeId := ⟨2⟩ } }]

/-- The second registration drops the first placement. -/
theorem registerTwice_drops : ¬ Lts.Lasts step HasPlacement Drops new registerTwice := by
  intro h
  obtain ⟨e, he, hp⟩ := h (registerTwice.take 1) (registerTwice.drop 1) [] _ _ rfl rfl rfl
    ("t", smallPlacement) ⟨_, AList.lookup_insert _, .head _⟩ (by simp [registerTwice, Drops])
  have hentry := (AList.lookup_insert _).symm.trans he
  rw [← Option.some.inj hentry] at hp
  exact absurd (List.mem_singleton.1 hp) (by decide)

end TensorGrid.TensorDirectory
