import Mathlib

/-!
# Hash maps

A `Rust.HashMap K V` is an association list without repeated keys. The order of its entries stands
for the (arbitrary, but fixed while the map is unchanged) iteration order of the hash table, so a
statement about every map is a statement about every iteration order.

`HashMap.modify` is `get_mut` followed by an assignment, `HashMap.upsert` the same through
`entry(..).or_insert(..)`, `HashMap.mapValues` is a loop over `iter_mut`, and `HashMap.total` sums a
quantity over the entries.
-/

namespace Rust

/-- `std::collections::HashMap`. -/
abbrev HashMap (K : Type*) (V : Type*) := AList fun _ : K => V

namespace HashMap

variable {K V M : Type*} [DecidableEq K]

/-- Replace the value at `k` by its image under `f`; nothing happens if `k` is absent. -/
def modify (k : K) (f : V → V) (m : HashMap K V) : HashMap K V where
  entries := m.entries.map (.map id fun a v => if a = k then f v else v)
  nodupKeys := m.nodupKeys.map₂ _

@[simp] theorem keys_modify (k : K) (f : V → V) (m : HashMap K V) :
    (m.modify k f).keys = m.keys :=
  List.map₂_keys _ _

@[simp] theorem mem_modify {k a : K} {f : V → V} {m : HashMap K V} :
    a ∈ m.modify k f ↔ a ∈ m := by
  rw [AList.mem_keys, keys_modify, ← AList.mem_keys]

@[simp] theorem lookup_modify (k : K) (f : V → V) (m : HashMap K V) :
    (m.modify k f).lookup k = (m.lookup k).map f := by
  simp [AList.lookup, modify, List.dlookup_map₂]

@[simp] theorem lookup_modify_ne {k a : K} (h : a ≠ k) (f : V → V) (m : HashMap K V) :
    (m.modify k f).lookup a = m.lookup a := by
  simp [AList.lookup, modify, List.dlookup_map₂, h]

theorem lookup_modify_eq_some {k a : K} {f : V → V} {m : HashMap K V} {v : V}
    (h : (m.modify k f).lookup a = some v) :
    ∃ old, m.lookup a = some old ∧ v = if a = k then f old else old := by
  by_cases hkey : a = k
  · rw [hkey, lookup_modify] at h
    obtain ⟨old, hold, rfl⟩ := Option.map_eq_some_iff.1 h
    exact ⟨old, hkey ▸ hold, (if_pos hkey).symm⟩
  · rw [lookup_modify_ne hkey] at h
    exact ⟨v, h, (if_neg hkey).symm⟩

/-- `entry(k).or_insert(d)` followed by an assignment through the reference. -/
def upsert (k : K) (d : V) (f : V → V) (m : HashMap K V) : HashMap K V :=
  if k ∈ m then m.modify k f else m.insert k (f d)

@[simp] theorem lookup_upsert (k : K) (d : V) (f : V → V) (m : HashMap K V) :
    (m.upsert k d f).lookup k = some (f ((m.lookup k).getD d)) := by
  unfold upsert
  split
  · next h =>
    obtain ⟨v, hv⟩ := Option.isSome_iff_exists.1 (AList.lookup_isSome.2 h)
    simp [hv]
  · next h => simp [AList.lookup_eq_none.2 h]

@[simp] theorem lookup_upsert_ne {k a : K} (h : a ≠ k) (d : V) (f : V → V) (m : HashMap K V) :
    (m.upsert k d f).lookup a = m.lookup a := by
  unfold upsert
  split <;> simp [h]

/-- Keep the entries that satisfy `p`. -/
def retain (p : K → V → Bool) (m : HashMap K V) : HashMap K V where
  entries := m.entries.filter fun e => p e.1 e.2
  nodupKeys := List.NodupKeys.sublist List.filter_sublist m.nodupKeys

omit [DecidableEq K] in
theorem mem_of_mem_retain {k : K} {p : K → V → Bool} {m : HashMap K V} (h : k ∈ m.retain p) :
    k ∈ m := by
  rw [AList.mem_keys] at h ⊢
  exact (List.filter_sublist.map Sigma.fst).subset h

/-- Replace every value by its image under `f`: a loop over `iter_mut` that keeps to the value it is
at. -/
def mapValues (f : V → V) (m : HashMap K V) : HashMap K V where
  entries := m.entries.map (.map id fun _ v => f v)
  nodupKeys := m.nodupKeys.map₂ _

@[simp] theorem lookup_mapValues (f : V → V) (m : HashMap K V) (k : K) :
    (m.mapValues f).lookup k = (m.lookup k).map f := by
  simp [AList.lookup, mapValues, List.dlookup_map₂]

/-- Remove the keys of a list, one after the other. -/
def eraseAll (ks : List K) (m : HashMap K V) : HashMap K V := ks.foldl (fun m k => m.erase k) m

theorem lookup_eraseAll (ks : List K) (m : HashMap K V) (k : K) :
    (eraseAll ks m).lookup k = if k ∈ ks then none else m.lookup k := by
  induction ks generalizing m with
  | nil => rfl
  | cons a ks ih =>
    show (eraseAll ks (m.erase a)).lookup k = _
    rw [ih]
    by_cases ha : k = a
    · rw [ha, AList.lookup_erase, if_pos (List.mem_cons_self), ite_self]
    · rw [AList.lookup_erase_ne ha]
      simp [ha]

/-- The order in which a loop over a hash map visits its entries: any order, chosen map by map. -/
structure Visit (K V : Type*) where
  order : HashMap K V → List (Σ _ : K, V)
  perm : ∀ m, (order m).Perm m.entries

/-- Visiting the entries as they are stored. -/
def Visit.stored (K V : Type*) : Visit K V := ⟨fun m => m.entries, fun _ => .refl _⟩

theorem modify_id (k : K) (m : HashMap K V) : m.modify k id = m := by
  apply AList.ext
  have hid : (Sigma.map id fun (a : K) (v : V) => if a = k then id v else v) = id := by
    funext e
    simp [Sigma.map]
  exact (congrArg (List.map · m.entries) hid).trans (List.map_id _)

theorem mem_of_lookup {k : K} {v : V} {m : HashMap K V} (h : m.lookup k = some v) : k ∈ m :=
  AList.lookup_isSome.1 (by simp [h])

theorem lookup_of_mem {k : K} {m : HashMap K V} (h : k ∈ m) : ∃ v, m.lookup k = some v :=
  Option.isSome_iff_exists.1 (AList.lookup_isSome.2 h)

theorem notMem_of_lookup {k : K} {m : HashMap K V} (h : m.lookup k = none) : k ∉ m :=
  AList.lookup_eq_none.1 h

theorem mem_entries_iff {k : K} {v : V} {m : HashMap K V} :
    ⟨k, v⟩ ∈ m.entries ↔ m.lookup k = some v :=
  AList.mem_lookup_iff.symm

theorem modify_of_notMem {k : K} {m : HashMap K V} (h : k ∉ m) (f : V → V) : m.modify k f = m := by
  apply AList.ext
  have hfix : ∀ e ∈ m.entries, Sigma.map id (fun (a : K) (v : V) => if a = k then f v else v) e =
      e := by
    rintro ⟨a, v⟩ he
    have hne : a ≠ k := by
      rintro rfl
      exact h (mem_of_lookup (mem_entries_iff.1 he))
    exact congrArg (Sigma.mk a) (if_neg hne)
  exact (List.map_congr_left hfix).trans (List.map_id'' (fun _ => rfl) _)

/-- An entry is kept if it satisfies `p`. -/
theorem lookup_retain (k : K) (p : K → V → Bool) (m : HashMap K V) :
    (m.retain p).lookup k = (m.lookup k).filter (p k) := by
  refine Option.ext fun v => ?_
  rw [Option.filter_eq_some_iff, ← mem_entries_iff, ← mem_entries_iff]
  exact List.mem_filter

theorem lookup_insert_eq (k a : K) (v : V) (m : HashMap K V) :
    (m.insert k v).lookup a = if a = k then some v else m.lookup a := by
  split
  · next h => rw [h, AList.lookup_insert]
  · next h => rw [AList.lookup_insert_ne h]

theorem lookup_erase_eq (k a : K) (m : HashMap K V) :
    (m.erase k).lookup a = if a = k then none else m.lookup a := by
  split
  · next h => rw [h, AList.lookup_erase]
  · next h => rw [AList.lookup_erase_ne h]

/-- The values, looked up along any list that has every key once. -/
theorem filterMap_lookup_perm {ks : List K} (hnodup : ks.Nodup) {m : HashMap K V}
    (hmem : ∀ k ∈ m, k ∈ ks) : (ks.filterMap m.lookup).Perm (m.entries.map Sigma.snd) := by
  have hkeys : m.entries.map Sigma.snd = m.keys.filterMap m.lookup := by
    rw [AList.keys, List.keys, List.filterMap_map, ← List.filterMap_eq_map]
    refine List.filterMap_congr fun e he => ?_
    exact (mem_entries_iff.1 he).symm
  have hdrop : ks.filterMap m.lookup = (ks.filter (· ∈ m)).filterMap m.lookup := by
    rw [List.filterMap_filter]
    refine List.filterMap_congr fun k _ => ?_
    by_cases hk : k ∈ m
    · simp [hk]
    · simp [hk, AList.lookup_eq_none.2 hk]
  rw [hkeys, hdrop]
  refine List.Perm.filterMap _ ((List.perm_ext_iff_of_nodup (hnodup.filter _) m.keys_nodup).2 ?_)
  intro k
  rw [List.mem_filter, ← AList.mem_keys, decide_eq_true_iff]
  exact ⟨fun h => h.2, fun h => ⟨hmem k h, h⟩⟩

theorem length_insert_le (k : K) (v : V) (m : HashMap K V) :
    (m.insert k v).entries.length ≤ m.entries.length + 1 := by
  rw [AList.entries_insert, List.length_cons]
  exact Nat.add_le_add_right (List.kerase_sublist k m.entries).length_le 1

theorem length_insert {k : K} {m : HashMap K V} (h : k ∉ m) (v : V) :
    (m.insert k v).entries.length = m.entries.length + 1 := by
  rw [AList.entries_insert_of_notMem h, List.length_cons]

theorem length_erase {k : K} {m : HashMap K V} (h : k ∈ m) :
    (m.erase k).entries.length + 1 = m.entries.length := by
  obtain ⟨w, l₁, l₂, -, h₁, h₂⟩ := List.exists_of_kerase (AList.mem_keys.1 h)
  show (List.kerase k m.entries).length + 1 = _
  rw [h₂, congrArg List.length h₁]
  simp only [List.length_append, List.length_cons]
  omega

theorem length_insert_of_mem {k : K} {m : HashMap K V} (h : k ∈ m) (v : V) :
    (m.insert k v).entries.length = m.entries.length := by
  rw [AList.entries_insert, List.length_cons]
  exact length_erase h

/-! ## Sums over the entries -/

section
variable [AddCommMonoid M] (f : K → V → M)

/-- The sum of `f` over the entries. -/
def total (m : HashMap K V) : M := (m.entries.map fun e => f e.1 e.2).sum

theorem total_const {m : HashMap K V} {c : M} (h : ∀ k v, m.lookup k = some v → f k v = c) :
    total f m = m.entries.length • c := by
  rw [total, List.map_congr_left fun e he => h e.1 e.2 (mem_entries_iff.1 he), List.map_const',
    List.sum_replicate]

/-- The order of the entries makes no difference. -/
theorem total_congr {m m' : HashMap K V} (h : ∀ k, m.lookup k = m'.lookup k) :
    total f m = total f m' := by
  have hperm : m.entries.Perm m'.entries :=
    List.lookup_ext m.nodupKeys m'.nodupKeys fun k v => by
      rw [← AList.lookup, ← AList.lookup, h k]
  exact (hperm.map _).sum_eq

theorem total_insert (k : K) (v : V) (m : HashMap K V) :
    total f (m.insert k v) = f k v + total f (m.erase k) := by
  rw [total, AList.entries_insert, List.map_cons, List.sum_cons]
  rfl

/-- An entry and the others. -/
theorem total_eq_add_erase {k : K} {v : V} {m : HashMap K V} (h : m.lookup k = some v) :
    total f m = f k v + total f (m.erase k) := by
  rw [← total_insert]
  refine total_congr f fun a => ?_
  rw [lookup_insert_eq]
  split
  · next ha => rw [ha, h]
  · rfl

theorem total_modify {k : K} {v : V} {m : HashMap K V} (h : m.lookup k = some v) (g : V → V) :
    total f (m.modify k g) = f k (g v) + total f (m.erase k) := by
  rw [← total_insert]
  refine total_congr f fun a => ?_
  rw [lookup_insert_eq]
  split
  · next ha => rw [ha, lookup_modify, h, Option.map_some]
  · next ha => rw [lookup_modify_ne ha]

/-- A change that keeps the quantity. -/
theorem total_modify_of_eq {g : V → V} (h : ∀ k v, f k (g v) = f k v) (k : K)
    (m : HashMap K V) : total f (m.modify k g) = total f m := by
  by_cases hk : k ∈ m
  · obtain ⟨v, hv⟩ := lookup_of_mem hk
    rw [total_modify f hv, h, ← total_eq_add_erase f hv]
  · rw [modify_of_notMem hk]

omit [DecidableEq K] in
theorem total_mapValues_of_eq {g : V → V} (h : ∀ k v, f k (g v) = f k v) (m : HashMap K V) :
    total f (m.mapValues g) = total f m := by
  rw [total, mapValues, List.map_map]
  exact congrArg List.sum (List.map_congr_left fun e _ => h e.1 e.2)

end

theorem total_erase_le (f : K → V → ℕ) (k : K) (m : HashMap K V) :
    total f (m.erase k) ≤ total f m :=
  ((List.kerase_sublist k m.entries).map _).sum_le_sum fun _ _ => Nat.zero_le _

theorem total_eraseAll_le (f : K → V → ℕ) (ks : List K) (m : HashMap K V) :
    total f (eraseAll ks m) ≤ total f m := by
  induction ks generalizing m with
  | nil => exact le_rfl
  | cons k ks ih => exact (ih (m.erase k)).trans (total_erase_le f k m)

end HashMap

end Rust
