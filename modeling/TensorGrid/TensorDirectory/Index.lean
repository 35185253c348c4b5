import TensorGrid.Lib.Lts
import TensorGrid.TensorDirectory.Eviction

/-!
# The node index

`get_tensors_on_node` follows the node index, which the operations update by `push` and `retain`: it
returns the entries placed on the node, once each, as long as no operation pushes an id that is
already there or leaves an id behind.

* `Consistent`: the index holds each id once, and only on nodes where the tensor is placed.
* `consistent_step`: kept by the operations that push an id to new nodes only (`PushesNew`).
* `pushesNew_of_exact`: any other operation makes `get_tensors_on_node` wrong.
* `always_exact_iff`: the same for whole runs.
-/

namespace TensorGrid.TensorDirectory

open Rust

/-- The entry has a placement on the node. -/
def PlacedOn (n : NodeId) (e : TensorEntry) : Prop := ∃ p ∈ e.placements, p.nodeId = n

/-- `get_tensors_on_node` returns the entries with a placement on the node, each once. -/
def Exact (d : TensorDirectory) : Prop :=
  ∀ n, (d.getTensorsOnNode n).Nodup ∧
    ∀ e, e ∈ d.getTensorsOnNode n ↔ ∃ t, d.tensors.lookup t = some e ∧ PlacedOn n e

/-- The index invariant (module doc). -/
structure Consistent (d : TensorDirectory) : Prop extends Indexed d where
  keyed : ∀ t e, d.tensors.lookup t = some e → e.tensorId = t
  nodup : ∀ n ids, d.nodeTensors.lookup n = some ids → ids.Nodup
  on : ∀ n t, InIndex d.nodeTensors n t → ∃ e, d.tensors.lookup t = some e ∧ PlacedOn n e

/-- Ids are pushed to the index of new nodes only: a tensor is registered under a new id, and a
placement is added on a node where the tensor has none. -/
def PushesNew (d : TensorDirectory) : Op → Prop
  | .registerTensor r => r.tensorId ∉ d.tensors
  | .addPlacement t p => ∀ e, d.tensors.lookup t = some e → ¬ PlacedOn p.nodeId e
  | .transferTensor t a b _ =>
    ∀ e, d.tensors.lookup t = some e → PlacedOn a e → ¬ PlacedOn b e
  | .getTensor _ _ | .removePlacement _ _ | .evictFromNode _ => True

/-! ## What the index is used for -/

theorem mem_getTensorsOnNode {d : TensorDirectory} {n : NodeId} {e : TensorEntry} :
    e ∈ d.getTensorsOnNode n ↔ ∃ t, InIndex d.nodeTensors n t ∧ d.tensors.lookup t = some e := by
  unfold getTensorsOnNode InIndex
  cases d.nodeTensors.lookup n with
  | none => simp
  | some ids => simp

theorem Consistent.exact {d : TensorDirectory} (h : Consistent d) : Exact d := by
  refine fun n => ⟨?_, fun e => ?_⟩
  · unfold getTensorsOnNode
    cases hl : d.nodeTensors.lookup n with
    | none => exact List.nodup_nil
    | some ids =>
      -- different ids have different entries
      refine (h.nodup n ids hl).filterMap fun t t' e ht ht' => ?_
      rw [← h.keyed t e ht, ← h.keyed t' e ht']
  · rw [mem_getTensorsOnNode]
    constructor
    · rintro ⟨t, hin, he⟩
      obtain ⟨e', he', hon⟩ := h.on n t hin
      cases he.symm.trans he'
      exact ⟨t, he, hon⟩
    · rintro ⟨t, he, p, hp, rfl⟩
      exact ⟨t, h.index t e he p hp, he⟩

/-! ## Index updates -/

theorem inIndex_push_cases {index : HashMap NodeId (List TensorId)} {n m : NodeId} {t u : TensorId}
    (h : InIndex (pushIndex m u index) n t) : InIndex index n t ∨ n = m ∧ t = u := by
  obtain ⟨ids, hl, ht⟩ := h
  by_cases hn : n = m
  · subst hn
    rw [pushIndex, HashMap.lookup_upsert] at hl
    cases hl
    rcases List.mem_append.1 ht with ht | ht
    · cases hold : index.lookup n with
      | none => rw [hold] at ht; cases ht
      | some ids => exact .inl ⟨ids, hold, by rw [hold] at ht; exact ht⟩
    · exact .inr ⟨rfl, List.mem_singleton.1 ht⟩
  · exact .inl ⟨ids, by rwa [pushIndex, HashMap.lookup_upsert_ne hn] at hl, ht⟩

theorem nodup_push {index : HashMap NodeId (List TensorId)}
    (h : ∀ n ids, index.lookup n = some ids → ids.Nodup) {m : NodeId} {u : TensorId}
    (hnew : ¬ InIndex index m u) :
    ∀ n ids, (pushIndex m u index).lookup n = some ids → ids.Nodup := by
  intro n ids hl
  by_cases hn : n = m
  · subst hn
    rw [pushIndex, HashMap.lookup_upsert] at hl
    cases hl
    cases hold : index.lookup n with
    | none => simp
    | some ids =>
      refine (h n ids hold).append (List.nodup_singleton u) fun t ht hu => hnew ?_
      obtain rfl := List.mem_singleton.1 hu
      exact ⟨ids, hold, ht⟩
  · exact h n ids (by rwa [pushIndex, HashMap.lookup_upsert_ne hn] at hl)

theorem lookup_retainIndex_cases {index : HashMap NodeId (List TensorId)} {n m : NodeId}
    {u : TensorId} {ids : List TensorId} (h : (retainIndex m u index).lookup n = some ids) :
    n ≠ m ∧ index.lookup n = some ids ∨
      n = m ∧ ∃ ids₀, index.lookup n = some ids₀ ∧ ids = ids₀.filter (· != u) := by
  unfold retainIndex at h
  split at h
  next hm =>
    refine .inl ⟨?_, h⟩
    rintro rfl
    cases hm.symm.trans h
  next ids₀ hm =>
    by_cases hn : n = m
    · subst hn
      refine .inr ⟨rfl, ids₀, hm, ?_⟩
      dsimp only at h
      split at h
      · rw [AList.lookup_erase] at h; cases h
      · rw [HashMap.lookup_modify, hm] at h
        exact (Option.some.inj h).symm
    · refine .inl ⟨hn, ?_⟩
      dsimp only at h
      split at h
      · rwa [AList.lookup_erase_ne hn] at h
      · rwa [HashMap.lookup_modify_ne hn] at h

theorem InIndex.of_retain {index : HashMap NodeId (List TensorId)} {n m : NodeId} {t u : TensorId}
    (h : InIndex (retainIndex m u index) n t) : InIndex index n t ∧ (n ≠ m ∨ t ≠ u) := by
  obtain ⟨ids, hl, ht⟩ := h
  rcases lookup_retainIndex_cases hl with ⟨hn, hl₀⟩ | ⟨rfl, ids₀, hl₀, rfl⟩
  · exact ⟨⟨ids, hl₀, ht⟩, .inl hn⟩
  · obtain ⟨ht, hne⟩ := List.mem_filter.1 ht
    exact ⟨⟨ids₀, hl₀, ht⟩, .inr (by simpa using hne)⟩

theorem nodup_retain {index : HashMap NodeId (List TensorId)}
    (h : ∀ n ids, index.lookup n = some ids → ids.Nodup) (m : NodeId) (u : TensorId) :
    ∀ n ids, (retainIndex m u index).lookup n = some ids → ids.Nodup := by
  intro n ids hl
  rcases lookup_retainIndex_cases hl with ⟨-, hl₀⟩ | ⟨-, ids₀, hl₀, rfl⟩
  · exact h n ids hl₀
  · exact (h n ids₀ hl₀).filter _

theorem InIndex.of_erase {index : HashMap NodeId (List TensorId)} {n m : NodeId} {t : TensorId}
    (h : InIndex (index.erase m) n t) : n ≠ m ∧ InIndex index n t := by
  obtain ⟨ids, hl, ht⟩ := h
  have hn : n ≠ m := by
    rintro rfl
    rw [AList.lookup_erase] at hl
    cases hl
  exact ⟨hn, ids, by rwa [AList.lookup_erase_ne hn] at hl, ht⟩

/-! ## Steps that push new ids only -/

theorem Consistent.notIndexed {d : TensorDirectory} (h : Consistent d) {n : NodeId} {t : TensorId}
    (hno : ∀ e, d.tensors.lookup t = some e → ¬ PlacedOn n e) : ¬ InIndex d.nodeTensors n t := by
  intro hin
  obtain ⟨e, he, hon⟩ := h.on n t hin
  exact hno e he hon

theorem Consistent.registerTensor {d : TensorDirectory} (h : Consistent d) {r : Registration}
    (hnew : r.tensorId ∉ d.tensors) : Consistent (d.registerTensor r).2 := by
  have hnone : d.tensors.lookup r.tensorId = none := AList.lookup_eq_none.2 hnew
  refine ⟨h.toIndexed.registerTensor r, fun t e he => ?_, ?_, fun n t hin => ?_⟩
  · rcases of_lookup_registerTensor he with ⟨rfl, rfl⟩ | ⟨-, he⟩
    · rfl
    · exact h.keyed t e he
  · exact nodup_push h.nodup (h.notIndexed fun e he => by rw [hnone] at he; cases he)
  · rcases inIndex_push_cases hin with hin | ⟨rfl, rfl⟩
    · obtain ⟨e, he, hon⟩ := h.on n t hin
      have ht : t ≠ r.tensorId := by
        rintro rfl
        rw [hnone] at he
        cases he
      exact ⟨e, (lookup_registerTensor_ne ht).trans he, hon⟩
    · exact ⟨_, lookup_registerTensor d r, r.placement, List.mem_singleton.2 rfl, rfl⟩

theorem Consistent.getTensor {d : TensorDirectory} (h : Consistent d) (t : TensorId)
    (now : DateTime) : Consistent (d.getTensor t now).2 := by
  refine ⟨h.toIndexed.getTensor t now, fun u e he => ?_, h.nodup, fun n u hin => ?_⟩
  · obtain ⟨e₀, _, he₀, rfl⟩ := of_lookup_getTensor he
    exact h.keyed u e₀ he₀
  · obtain ⟨e, he, hon⟩ := h.on n u hin
    obtain ⟨_, htime⟩ := lookup_getTensor t now he
    exact ⟨_, htime, hon⟩

theorem Consistent.addPlacement {d : TensorDirectory} (h : Consistent d) {t : TensorId}
    {p : PhysicalPlacement} (hnew : ∀ e, d.tensors.lookup t = some e → ¬ PlacedOn p.nodeId e) :
    Consistent (d.addPlacement t p).2 := by
  by_cases ht : t ∈ d.tensors
  case neg => rwa [addPlacement_of_notMem ht]
  have hindex : (d.addPlacement t p).2.nodeTensors = pushIndex p.nodeId t d.nodeTensors := by
    rw [addPlacement_of_mem ht]
  refine ⟨h.toIndexed.addPlacement t p, fun u e he => ?_, ?_, fun n u hin => ?_⟩
  · rcases of_lookup_addPlacement he with ⟨-, e₀, he₀, rfl⟩ | ⟨-, he⟩
    · exact h.keyed u e₀ he₀
    · exact h.keyed u e he
  · rw [hindex]
    exact nodup_push h.nodup (h.notIndexed hnew)
  · rw [hindex] at hin
    rcases inIndex_push_cases hin with hin | ⟨rfl, rfl⟩
    · obtain ⟨e, he, q, hq, hn⟩ := h.on n u hin
      by_cases hu : u = t
      · subst hu
        exact ⟨grow p e, lookup_addPlacement p he, q, List.mem_append_left _ hq, hn⟩
      · exact ⟨e, (lookup_addPlacement_ne hu).trans he, q, hq, hn⟩
    · obtain ⟨e, he⟩ := HashMap.lookup_of_mem ht
      exact ⟨grow p e, lookup_addPlacement p he, p, by simp [grow], rfl⟩

theorem placedOn_offNode {n m : NodeId} {e : TensorEntry} (h : PlacedOn m e) (hm : m ≠ n) :
    ∃ p ∈ e.offNode n, p.nodeId = m := by
  obtain ⟨p, hp, rfl⟩ := h
  exact ⟨p, mem_offNode.2 ⟨hp, hm⟩, rfl⟩

theorem Consistent.removePlacement {d : TensorDirectory} (h : Consistent d) (t : TensorId)
    (n : NodeId) : Consistent (d.removePlacement t n).2 := by
  cases he₀ : d.tensors.lookup t with
  | none => rwa [removePlacement_of_none he₀]
  | some e₀ =>
    refine ⟨h.toIndexed.removePlacement t n, fun u e he => ?_, ?_, fun m u hin => ?_⟩
    · rcases of_lookup_removePlacement he with ⟨-, e₁, he₁, -, rfl⟩ | ⟨-, he⟩
      · exact h.keyed u e₁ he₁
      · exact h.keyed u e he
    · rw [nodeTensors_removePlacement he₀]
      exact nodup_retain h.nodup n t
    · rw [nodeTensors_removePlacement he₀] at hin
      obtain ⟨hin, hne⟩ := InIndex.of_retain hin
      obtain ⟨e, he, hon⟩ := h.on m u hin
      by_cases hu : u = t
      · subst hu
        obtain ⟨p, hp, hm⟩ := placedOn_offNode hon (hne.resolve_right fun h => h rfl)
        exact ⟨evictEntry n e, (lookup_removePlacement he).trans
          (if_neg (List.ne_nil_of_mem hp)), p, hp, hm⟩
      · exact ⟨e, (lookup_removePlacement_ne hu).trans he, hon⟩

theorem Consistent.evictFromNode {d : TensorDirectory} (h : Consistent d) (n : NodeId) :
    Consistent (d.evictFromNode n).2 := by
  refine ⟨h.toIndexed.evictFromNode n, fun t e' he' => ?_, fun m ids hl => ?_, fun m t hin => ?_⟩
  · obtain ⟨e, he, -, hoff⟩ := of_lookup_evictFromNode h.toIndexed he'
    rw [hoff]
    exact h.keyed t e he
  · have hm : m ≠ n := by
      rintro rfl
      exact absurd hl (by simp [TensorDirectory.evictFromNode])
    exact h.nodup m ids ((AList.lookup_erase_ne hm).symm.trans hl)
  · obtain ⟨hm, hin⟩ := InIndex.of_erase hin
    obtain ⟨e, he, hon⟩ := h.on m t hin
    obtain ⟨p, hp, hpm⟩ := placedOn_offNode hon hm
    obtain ⟨e', he', hoff⟩ :=
      (lookup_evictFromNode h.toIndexed n t e he).2 (List.ne_nil_of_mem hp)
    exact ⟨e', he', p, by rw [hoff]; exact hp, hpm⟩

/-- A transfer adds a placement if the tensor is on the source node. -/
theorem transferTensor_eq (d : TensorDirectory) (t : TensorId) (a b : NodeId)
    (data : List UInt8) :
    ((∃ e, d.tensors.lookup t = some e ∧ PlacedOn a e) ∧ ∃ p : PhysicalPlacement, p.nodeId = b ∧
      d.transferTensor t a b data = d.addPlacement t p) ∨
    (¬ ∃ e, d.tensors.lookup t = some e ∧ PlacedOn a e) ∧
      (d.transferTensor t a b data).2 = d := by
  unfold TensorDirectory.transferTensor
  cases he : d.tensors.lookup t with
  | none => exact .inr ⟨by simp, rfl⟩
  | some e =>
    dsimp only
    cases hfind : e.placements.find? (·.nodeId == a) with
    | none =>
      refine .inr ⟨?_, rfl⟩
      rintro ⟨_, ⟨⟩, q, hq, hn⟩
      simpa [hn] using List.find?_eq_none.1 hfind q hq
    | some q =>
      refine .inl ⟨⟨e, rfl, q, List.mem_of_find?_eq_some hfind, ?_⟩, _, rfl, rfl⟩
      simpa using List.find?_some hfind

theorem Consistent.apply {d : TensorDirectory} (h : Consistent d) {op : Op}
    (hnew : PushesNew d op) : Consistent (d.apply op) := by
  cases op with
  | registerTensor r => exact h.registerTensor hnew
  | getTensor t now => exact h.getTensor t now
  | addPlacement t p => exact h.addPlacement hnew
  | removePlacement t n => exact h.removePlacement t n
  | evictFromNode n => exact h.evictFromNode n
  | transferTensor t a b data =>
    rcases transferTensor_eq d t a b data with ⟨⟨e, he, hon⟩, p, rfl, heq⟩ | ⟨-, heq⟩
    · rw [TensorDirectory.apply, heq]
      refine h.addPlacement fun e' he' => ?_
      cases he.symm.trans he'
      exact hnew e he hon
    · rw [TensorDirectory.apply, heq]
      exact h

/-! ## Steps that push a known id -/

/-- An id pushed to a node where it already is shows up twice. -/
theorem not_nodup_of_push {d : TensorDirectory} {index : HashMap NodeId (List TensorId)}
    {n : NodeId} {t : TensorId} {e : TensorEntry} (hidx : d.nodeTensors = pushIndex n t index)
    (hin : InIndex index n t) (he : d.tensors.lookup t = some e) :
    ¬ (d.getTensorsOnNode n).Nodup := by
  obtain ⟨ids, hl, ht⟩ := hin
  have hlist : d.getTensorsOnNode n = ids.filterMap d.tensors.lookup ++ [e] := by
    rw [getTensorsOnNode, hidx, pushIndex, HashMap.lookup_upsert, hl]
    simp [he]
  rw [hlist, List.nodup_append]
  exact fun h => h.2.2 e (List.mem_filterMap.2 ⟨t, ht, he⟩) e (.head _) rfl

theorem pushesNew_of_exact_register {d : TensorDirectory} (h : Consistent d) {r : Registration}
    (hexact : Exact (d.registerTensor r).2) : r.tensorId ∉ d.tensors := by
  intro hmem
  obtain ⟨e, he⟩ := HashMap.lookup_of_mem hmem
  obtain ⟨p, hp⟩ := List.exists_mem_of_ne_nil _ (h.placed _ e he)
  have hin := h.index _ e he p hp
  obtain ⟨e', he', hplaced⟩ : ∃ e', (d.registerTensor r).2.tensors.lookup r.tensorId = some e' ∧
      e'.placements = [r.placement] := ⟨_, AList.lookup_insert _, rfl⟩
  by_cases hn : p.nodeId = r.placement.nodeId
  · rw [hn] at hin
    exact not_nodup_of_push rfl hin he' (hexact _).1
  · -- the index still leads from the old node to the new entry
    have hstale : e' ∈ (d.registerTensor r).2.getTensorsOnNode p.nodeId :=
      mem_getTensorsOnNode.2 ⟨r.tensorId, hin.push _ _, he'⟩
    obtain ⟨t, -, q, hq, hqn⟩ := ((hexact _).2 e').1 hstale
    have hlast : (e' : TensorEntry).placements = [r.placement] := hplaced
    rw [hlast] at hq
    rw [List.mem_singleton.1 hq] at hqn
    exact hn hqn.symm

theorem pushesNew_of_exact_add {d : TensorDirectory} (h : Consistent d) {t : TensorId}
    {p : PhysicalPlacement} (hexact : Exact (d.addPlacement t p).2) (e : TensorEntry)
    (he : d.tensors.lookup t = some e) : ¬ PlacedOn p.nodeId e := by
  rintro ⟨q, hq, hn⟩
  rw [addPlacement_of_mem (HashMap.mem_of_lookup he)] at hexact
  refine not_nodup_of_push (e := grow p e) rfl (hn ▸ h.index t e he q hq) ?_ (hexact p.nodeId).1
  simp [he]

theorem pushesNew_of_exact {d : TensorDirectory} (h : Consistent d) {op : Op}
    (hexact : Exact (d.apply op)) : PushesNew d op := by
  cases op with
  | registerTensor r => exact pushesNew_of_exact_register h hexact
  | addPlacement t p => exact pushesNew_of_exact_add h hexact
  | transferTensor t a b data =>
    intro e he hon
    rcases transferTensor_eq d t a b data with ⟨-, p, rfl, heq⟩ | ⟨hno, -⟩
    · rw [TensorDirectory.apply, heq] at hexact
      exact pushesNew_of_exact_add h hexact e he
    · exact absurd ⟨e, he, hon⟩ hno
  | getTensor | removePlacement | evictFromNode => trivial

/-! ## Runs -/

theorem consistent_new : Consistent new where
  toIndexed := indexed_new
  keyed t e h := by simp [new] at h
  nodup n ids h := by simp [new] at h
  on n t h := by
    obtain ⟨ids, h, -⟩ := h
    simp [new] at h

/-- **`get_tensors_on_node` is exact in every state of a run exactly when all its operations push
ids to new nodes only.** -/
theorem always_exact_iff (ops : List Op) :
    Lts.Always step Exact new ops ↔ Lts.Meets step PushesNew new ops := by
  refine Lts.always_iff_meets_of_inv (I := Consistent) (fun d h => h.exact) ?_ ?_ consistent_new
  · rintro d op _ h hnew ⟨⟩
    exact h.apply hnew
  · rintro d op _ h ⟨⟩ hexact
    exact pushesNew_of_exact h hexact

/-- A placement on node 1. -/
def smallPlacement : PhysicalPlacement := ⟨⟨1⟩, "cpu:0", 0, 1024, .primary⟩

/-- The registration of tensor `t` on node 1. -/
def smallRegistration : Registration :=
  ⟨"t", [128, 128], "f32", smallPlacement, false, none, ⟨0⟩, ⟨0⟩⟩

/-- A tensor with two placements on a node is returned twice. -/
theorem not_always_exact : ¬ Lts.Always step Exact new
    [.registerTensor smallRegistration, .addPlacement "t" smallPlacement] := by
  intro h
  have hone : Consistent (new.registerTensor smallRegistration).2 :=
    consistent_new.registerTensor (AList.notMem_empty _)
  have htwo : Exact ((new.registerTensor smallRegistration).2.addPlacement "t" smallPlacement).2 :=
    ((h.2 _ rfl).2 _ rfl).head
  exact pushesNew_of_exact_add hone htwo _ (AList.lookup_insert _) ⟨smallPlacement, .head _, rfl⟩

end TensorGrid.TensorDirectory
