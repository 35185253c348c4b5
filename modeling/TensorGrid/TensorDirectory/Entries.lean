import TensorGrid.TensorDirectory.Model

/-!
# What an operation does to an entry

For each operation on one tensor: the entry it leaves, and where an entry that is there afterwards
comes from. No operation touches another tensor's entry. (`evict_from_node`, which runs through many
tensors, is in `Eviction`.)
-/

namespace TensorGrid.TensorDirectory

open Rust

/-- The entry `register_tensor` makes. -/
def Registration.entry (r : Registration) : TensorEntry :=
  { tensorId := r.tensorId, shape := r.shape, dtype := r.dtype, placements := [r.placement],
    version := 1, mutable := r.mutable, ownerSession := r.ownerSession, createdAt := r.createdAt,
    lastAccessed := r.lastAccessed }

/-- The entry `add_placement` makes. -/
def grow (p : PhysicalPlacement) (e : TensorEntry) : TensorEntry :=
  { e with placements := e.placements ++ [p], version := e.version + 1 }

/-- The entry after one visit of the eviction loop. -/
def evictEntry (n : NodeId) (e : TensorEntry) : TensorEntry :=
  { e with placements := e.offNode n, version := e.version + 1 }

theorem mem_offNode {n : NodeId} {e : TensorEntry} {p : PhysicalPlacement} :
    p ∈ e.offNode n ↔ p ∈ e.placements ∧ p.nodeId ≠ n := by
  simp [TensorEntry.offNode]

theorem offNode_nil_iff {n : NodeId} {e : TensorEntry} :
    e.offNode n = [] ↔ ∀ p ∈ e.placements, p.nodeId = n := by
  simp [TensorEntry.offNode]

@[simp] theorem offNode_evictEntry (n : NodeId) (e : TensorEntry) :
    (evictEntry n e).offNode n = e.offNode n := by
  simp [evictEntry, TensorEntry.offNode]

section
variable {d : TensorDirectory} {t u : TensorId} {e : TensorEntry}

/-! ## Registration -/

theorem lookup_registerTensor (d : TensorDirectory) (r : Registration) :
    (d.registerTensor r).2.tensors.lookup r.tensorId = some r.entry :=
  AList.lookup_insert _

theorem lookup_registerTensor_ne {r : Registration} (ht : t ≠ r.tensorId) :
    (d.registerTensor r).2.tensors.lookup t = d.tensors.lookup t :=
  AList.lookup_insert_ne ht

theorem of_lookup_registerTensor {r : Registration}
    (h : (d.registerTensor r).2.tensors.lookup t = some e) :
    t = r.tensorId ∧ e = r.entry ∨ t ≠ r.tensorId ∧ d.tensors.lookup t = some e := by
  by_cases ht : t = r.tensorId
  · subst ht
    rw [lookup_registerTensor] at h
    exact .inl ⟨rfl, (Option.some.inj h).symm⟩
  · rw [lookup_registerTensor_ne ht] at h
    exact .inr ⟨ht, h⟩

/-! ## Reading -/

/-- Only the time of the last access may differ. -/
theorem lookup_getTensor (u : TensorId) (now : DateTime) (h : d.tensors.lookup t = some e) :
    ∃ time, (d.getTensor u now).2.tensors.lookup t = some { e with lastAccessed := time } := by
  by_cases ht : t = u
  · exact ⟨now, by simp [getTensor, ← ht, h]⟩
  · exact ⟨e.lastAccessed, by simp [getTensor, ht, h]⟩

theorem of_lookup_getTensor {now : DateTime}
    (h : (d.getTensor u now).2.tensors.lookup t = some e) :
    ∃ e₀ time, d.tensors.lookup t = some e₀ ∧ e = { e₀ with lastAccessed := time } := by
  cases he₀ : d.tensors.lookup t with
  | none =>
    have hmem : t ∈ d.tensors := by
      rw [← HashMap.mem_modify]
      exact HashMap.mem_of_lookup h
    exact absurd hmem (HashMap.notMem_of_lookup he₀)
  | some e₀ =>
    obtain ⟨time, htime⟩ := lookup_getTensor u now he₀
    exact ⟨e₀, time, rfl, Option.some.inj (h.symm.trans htime)⟩

/-! ## A new placement -/

section
variable {p : PhysicalPlacement}

theorem addPlacement_of_mem (h : t ∈ d.tensors) (p : PhysicalPlacement) :
    (d.addPlacement t p).2 =
      ⟨d.tensors.modify t (grow p), pushIndex p.nodeId t d.nodeTensors⟩ := by
  rw [addPlacement, if_pos h]
  rfl

theorem addPlacement_of_notMem (h : t ∉ d.tensors) (p : PhysicalPlacement) :
    (d.addPlacement t p).2 = d := by
  rw [addPlacement, if_neg h]

theorem lookup_addPlacement (p : PhysicalPlacement) (h : d.tensors.lookup t = some e) :
    (d.addPlacement t p).2.tensors.lookup t = some (grow p e) := by
  rw [addPlacement_of_mem (HashMap.mem_of_lookup h), HashMap.lookup_modify, h, Option.map_some]

theorem lookup_addPlacement_ne (ht : t ≠ u) :
    (d.addPlacement u p).2.tensors.lookup t = d.tensors.lookup t := by
  by_cases hu : u ∈ d.tensors
  · rw [addPlacement_of_mem hu, HashMap.lookup_modify_ne ht]
  · rw [addPlacement_of_notMem hu]

theorem of_lookup_addPlacement (h : (d.addPlacement u p).2.tensors.lookup t = some e) :
    (t = u ∧ ∃ e₀, d.tensors.lookup t = some e₀ ∧ e = grow p e₀) ∨
      t ≠ u ∧ d.tensors.lookup t = some e := by
  by_cases ht : t = u
  · subst ht
    by_cases hmem : t ∈ d.tensors
    · obtain ⟨e₀, he₀⟩ := HashMap.lookup_of_mem hmem
      exact .inl ⟨rfl, e₀, he₀, Option.some.inj (h.symm.trans (lookup_addPlacement p he₀))⟩
    · rw [addPlacement_of_notMem hmem] at h
      exact absurd (HashMap.mem_of_lookup h) hmem
  · rw [lookup_addPlacement_ne ht] at h
    exact .inr ⟨ht, h⟩

end

/-! ## The removal of a placement -/

section
variable {n : NodeId}

theorem removePlacement_of_none (h : d.tensors.lookup t = none) :
    (d.removePlacement t n).2 = d := by
  rw [removePlacement, h]

theorem nodeTensors_removePlacement (h : d.tensors.lookup t = some e) :
    (d.removePlacement t n).2.nodeTensors = retainIndex n t d.nodeTensors := by
  rw [removePlacement, h]

theorem lookup_removePlacement (h : d.tensors.lookup t = some e) :
    (d.removePlacement t n).2.tensors.lookup t =
      if e.offNode n = [] then none else some (evictEntry n e) := by
  simp only [removePlacement, h, List.isEmpty_iff]
  split
  · exact AList.lookup_erase t d.tensors
  · rw [HashMap.lookup_modify, h]
    rfl

theorem lookup_removePlacement_ne (ht : t ≠ u) :
    (d.removePlacement u n).2.tensors.lookup t = d.tensors.lookup t := by
  unfold removePlacement
  split
  · rfl
  · dsimp only
    split <;> simp [ht]

theorem of_lookup_removePlacement (h : (d.removePlacement u n).2.tensors.lookup t = some e) :
    (t = u ∧ ∃ e₀, d.tensors.lookup t = some e₀ ∧ e₀.offNode n ≠ [] ∧ e = evictEntry n e₀) ∨
      t ≠ u ∧ d.tensors.lookup t = some e := by
  by_cases ht : t = u
  · subst ht
    cases he₀ : d.tensors.lookup t with
    | none =>
      rw [removePlacement_of_none he₀, he₀] at h
      cases h
    | some e₀ =>
      rw [lookup_removePlacement he₀] at h
      split at h
      · cases h
      next hne => exact .inl ⟨rfl, e₀, rfl, hne, (Option.some.inj h).symm⟩
  · rw [lookup_removePlacement_ne ht] at h
    exact .inr ⟨ht, h⟩

end

end

end TensorGrid.TensorDirectory
