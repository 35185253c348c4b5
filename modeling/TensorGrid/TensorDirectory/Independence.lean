import TensorGrid.Lib.Components
import TensorGrid.TensorDirectory.Replies
import TensorGrid.TensorDirectory.Versions

/-!
# Tensors do not interfere

A `Track` is all that the directory holds of one tensor: its entry, and how often each node lists
it. `trackMachine` is what the operations that name the tensor, and the evictions, do to its track.
Every tensor of a directory is one such machine (`component`), so what becomes of it, and what is
answered about it, depends on no operation on another tensor: `tensors_independent`. An eviction
touches many tensors, but each by its own track only.
-/

namespace TensorGrid.TensorDirectory

open Rust

structure Track where
  entry : Option TensorEntry
  listed : NodeId → Nat

/-- How often `node_tensors[n]` lists the tensor. -/
def timesListed (index : HashMap NodeId (List TensorId)) (t : TensorId) (n : NodeId) : Nat :=
  ((index.lookup n).getD []).count t

/-- What the directory holds of the tensor. -/
def track (t : TensorId) (d : TensorDirectory) : Track :=
  ⟨d.tensors.lookup t, timesListed d.nodeTensors t⟩

/-- The operation names the tensor, or evicts. -/
def Op.concerns (t : TensorId) : Op → Bool
  | .registerTensor r => r.tensorId = t
  | .getTensor u _ | .addPlacement u _ | .removePlacement u _ | .transferTensor u _ _ _ => u = t
  | .evictFromNode _ => true

/-- What is answered about a tensor: the reply to an operation on it, and whether an eviction
reports it. -/
inductive Answer
  | reply (reply : Reply)
  | evicted (reported : Bool)

def answerFor (t : TensorId) (d : TensorDirectory) : Op → Answer
  | .evictFromNode n =>
    .evicted <| match (d.evictFromNode n).1 with
      | .ok ids => decide (t ∈ ids)
      | .error _ => false
  | op => .reply (Call.reply d (.op op))

/-! ## One tensor -/

namespace Track

/-- One more placement, on a node that lists it from then on. -/
def place (k : Track) (e : TensorEntry) (p : PhysicalPlacement) : Track where
  entry := some (grow p e)
  listed n := k.listed n + if n = p.nodeId then 1 else 0

/-- No node `n`. -/
def unlist (k : Track) (n : NodeId) : NodeId → Nat := Function.update k.listed n 0

/-- The placement that a transfer makes. -/
def transferred (e : TensorEntry) (fromNode toNode : NodeId) (data : List UInt8) :
    Option PhysicalPlacement :=
  (e.placements.find? (·.nodeId == fromNode)).map fun source =>
    { nodeId := toNode, device := source.device, offset := 0
      length := UInt64.ofNat data.length, role := .replica }

/-- The entry after an eviction that comes by it `visits` times. -/
def evict (n : NodeId) (visits : Nat) (e : TensorEntry) : Option TensorEntry :=
  if visits = 0 then some e
  else if e.offNode n = [] then none
  else some { e with placements := e.offNode n, version := e.version + UInt64.ofNat visits }

def next (k : Track) : Op → Track
  | .registerTensor r =>
    { entry := some r.entry
      listed n := k.listed n + if n = r.placement.nodeId then 1 else 0 }
  | .getTensor _ now =>
    { k with entry := k.entry.map fun e => { e with lastAccessed := now } }
  | .addPlacement _ p =>
    match k.entry with
    | some e => k.place e p
    | none => k
  | .removePlacement _ n =>
    match k.entry with
    | some e => ⟨if e.offNode n = [] then none else some (evictEntry n e), k.unlist n⟩
    | none => k
  | .evictFromNode n => ⟨k.entry.bind (evict n (k.listed n)), k.unlist n⟩
  | .transferTensor _ a b data =>
    match k.entry with
    | some e => (transferred e a b data).elim k (k.place e)
    | none => k

def notFound (t : TensorId) : Reply := .unit (.error ("Tensor not found: " ++ t))

def out (k : Track) : Op → Answer
  | .registerTensor _ => .reply (.unit (.ok ()))
  | .getTensor _ now => .reply (.entry (k.entry.map fun e => { e with lastAccessed := now }))
  | .addPlacement t _ | .removePlacement t _ =>
    .reply (if k.entry.isSome then .unit (.ok ()) else notFound t)
  | .evictFromNode n =>
    .evicted (k.listed n ≠ 0 ∧ (k.entry.bind (evict n (k.listed n))) = none ∧ k.entry.isSome)
  | .transferTensor t a b data =>
    .reply <| match k.entry with
      | some e =>
        .unit (if (transferred e a b data).isSome then .ok ()
          else .error "Tensor not on source node")
      | none => notFound t

end Track

def trackMachine : Lts.Machine Track Op Answer := ⟨Track.next, Track.out⟩

/-! ## The lists of the nodes -/

section
variable (index : HashMap NodeId (List TensorId)) (n m : NodeId) (t u : TensorId)

theorem timesListed_pushIndex : timesListed (pushIndex m u index) t n =
    timesListed index t n + if n = m ∧ u = t then 1 else 0 := by
  by_cases hn : n = m
  · subst hn
    by_cases ht : u = t
    · subst ht
      simp [timesListed, pushIndex]
    · simp [timesListed, pushIndex, ht]
  · simp [timesListed, pushIndex, hn]

theorem timesListed_retainIndex : timesListed (retainIndex m u index) t n =
    if n = m ∧ u = t then 0 else timesListed index t n := by
  unfold retainIndex
  cases hm : index.lookup m with
  | none =>
    dsimp only
    split
    · next h =>
      obtain ⟨rfl, -⟩ := h
      simp [timesListed, hm]
    · rfl
  | some ids =>
    by_cases hn : n = m
    · subst hn
      have hcount : (ids.filter (· != u)).count t = if u = t then 0 else ids.count t := by
        split
        · next ht =>
          subst ht
          rw [List.count_eq_zero]
          simp
        · next ht => exact List.count_filter (by simpa using Ne.symm ht)
      by_cases hnil : (ids.filter (· != u)).isEmpty
      · rw [List.isEmpty_iff.1 hnil] at hcount
        simpa [timesListed, hnil, hm] using hcount
      · simpa [timesListed, hnil, hm] using hcount
    · by_cases hnil : (ids.filter (· != u)).isEmpty <;> simp [timesListed, hnil, hn]

theorem timesListed_erase : timesListed (index.erase m) t n =
    if n = m then 0 else timesListed index t n := by
  unfold timesListed
  rw [HashMap.lookup_erase_eq]
  split <;> simp

end

/-! ## The directory is made of tracks -/

section
variable {d : TensorDirectory} {t u : TensorId}

theorem track_ext {d d' : TensorDirectory} {t : TensorId}
    (hentry : d'.tensors.lookup t = d.tensors.lookup t)
    (hlisted : ∀ n, timesListed d'.nodeTensors t n = timesListed d.nodeTensors t n) :
    track t d' = track t d := by
  simp only [track, hentry, funext hlisted]

theorem track_addPlacement (d : TensorDirectory) (t : TensorId) (p : PhysicalPlacement) :
    track t (d.addPlacement t p).2 =
      ((d.tensors.lookup t).elim (track t d) fun e => (track t d).place e p) := by
  cases he : d.tensors.lookup t with
  | none => rw [addPlacement_of_notMem (HashMap.notMem_of_lookup he)]; rfl
  | some e =>
    simp only [track, addPlacement_of_mem (HashMap.mem_of_lookup he), HashMap.lookup_modify, he,
      Option.map_some, Option.elim_some, Track.place, Track.mk.injEq, true_and]
    funext n
    simp [timesListed_pushIndex]

theorem track_addPlacement_ne (hne : u ≠ t) (p : PhysicalPlacement) :
    track t (d.addPlacement u p).2 = track t d := by
  refine track_ext (lookup_addPlacement_ne hne.symm) fun n => ?_
  by_cases hu : u ∈ d.tensors
  · simp [addPlacement_of_mem hu, timesListed_pushIndex, hne]
  · rw [addPlacement_of_notMem hu]

/-- A transfer adds the placement that it makes of the one on the source. -/
theorem transferTensor_eq_elim (d : TensorDirectory) (t : TensorId) (a b : NodeId)
    (data : List UInt8) : d.transferTensor t a b data =
      match d.tensors.lookup t with
      | none => (.error ("Tensor not found: " ++ t), d)
      | some e => (Track.transferred e a b data).elim (.error "Tensor not on source node", d)
          (d.addPlacement t) := by
  unfold TensorDirectory.transferTensor Track.transferred
  cases d.tensors.lookup t with
  | none => rfl
  | some e => cases hfind : e.placements.find? (·.nodeId == a) <;> simp [hfind]

/-- An eviction, for one tensor. -/
theorem lookup_evictFromNode_eq (d : TensorDirectory) (n : NodeId) (t : TensorId) :
    (d.evictFromNode n).2.tensors.lookup t =
      (d.tensors.lookup t).bind (Track.evict n (timesListed d.nodeTensors t n)) := by
  obtain ⟨hout, hnone, hgone, hkeep⟩ :=
    lookup_evictLoop n ((d.nodeTensors.lookup n).getD []) d.tensors [] t
  cases he : d.tensors.lookup t with
  | none => exact hnone he
  | some e =>
    rw [Option.bind_some, Track.evict]
    by_cases hin : t ∈ (d.nodeTensors.lookup n).getD []
    · rw [if_neg (by rw [timesListed, List.count_eq_zero]; exact not_not.2 hin)]
      split
      · next hoff => exact hgone e hin he hoff
      · next hoff =>
        obtain ⟨e', he', hleft⟩ := hkeep e hin he hoff
        refine he'.trans (congrArg some ?_)
        rw [hleft, version_evictLoop _ [] he he']
        rfl
    · rw [if_pos (show timesListed d.nodeTensors t n = 0 from List.count_eq_zero.2 hin), ← he]
      exact hout hin

/-- What an eviction reports of one tensor. -/
theorem evicted_evictFromNode (d : TensorDirectory) (n : NodeId) (t : TensorId) :
    ∃ ids, (d.evictFromNode n).1 = .ok ids ∧ (t ∈ ids ↔ timesListed d.nodeTensors t n ≠ 0 ∧
      (d.tensors.lookup t).bind (Track.evict n (timesListed d.nodeTensors t n)) = none ∧
      (d.tensors.lookup t).isSome) := by
  obtain ⟨out, hout, -, hmem⟩ :=
    evicted_evictLoop n ((d.nodeTensors.lookup n).getD []) d.tensors []
  refine ⟨_, rfl, ?_⟩
  rw [hout, List.nil_append, hmem, timesListed, ← not_iff_not, not_and_or, not_and_or]
  cases he : d.tensors.lookup t with
  | none => simp
  | some e =>
    by_cases hin : t ∈ (d.nodeTensors.lookup n).getD []
    · by_cases hoff : e.offNode n = [] <;> simp [Track.evict, hin, hoff, List.count_eq_zero]
    · simp [List.count_eq_zero, hin]

/-- **An operation moves the tensors that it concerns by their tracks.** -/
theorem track_apply {op : Op} (h : op.concerns t = true) :
    track t (d.apply op) = (track t d).next op := by
  cases op with
  | registerTensor r =>
    obtain rfl := of_decide_eq_true h
    simp only [track, TensorDirectory.apply, lookup_registerTensor, Track.next, Track.mk.injEq,
      true_and]
    funext n
    simp [registerTensor, timesListed_pushIndex]
  | getTensor u now =>
    obtain rfl := of_decide_eq_true h
    simp [track, TensorDirectory.apply, getTensor, Track.next]
  | addPlacement u p =>
    obtain rfl := of_decide_eq_true h
    rw [TensorDirectory.apply, track_addPlacement]
    simp only [Track.next, track]
    cases d.tensors.lookup u <;> rfl
  | removePlacement u n =>
    obtain rfl := of_decide_eq_true h
    simp only [track, TensorDirectory.apply, Track.next, Track.unlist]
    cases he : d.tensors.lookup u with
    | none => rw [removePlacement_of_none he, he]
    | some e =>
      simp only [lookup_removePlacement he, nodeTensors_removePlacement he, Track.mk.injEq,
        true_and]
      funext m
      simp [timesListed_retainIndex, Function.update_apply]
  | evictFromNode n =>
    simp only [track, TensorDirectory.apply, Track.next, Track.unlist, lookup_evictFromNode_eq,
      Track.mk.injEq, true_and]
    funext m
    simp [evictFromNode, timesListed_erase, Function.update_apply]
  | transferTensor u a b data =>
    obtain rfl := of_decide_eq_true h
    rw [TensorDirectory.apply, transferTensor_eq_elim]
    simp only [Track.next, track]
    cases he : d.tensors.lookup u with
    | none => simp [he]
    | some e =>
      cases hp : Track.transferred e a b data with
      | none => simp [he, hp]
      | some p =>
        simp only [hp, Option.elim_some]
        have hadd := track_addPlacement d u p
        rwa [he, Option.elim_some, track, track, he] at hadd

/-- The other tensors keep theirs. -/
theorem track_apply_ne {op : Op} (h : op.concerns t = false) :
    track t (d.apply op) = track t d := by
  cases op with
  | registerTensor r =>
    have hne := of_decide_eq_false h
    refine track_ext (lookup_registerTensor_ne (Ne.symm hne)) fun n => ?_
    simp [TensorDirectory.apply, registerTensor, timesListed_pushIndex, hne]
  | getTensor u now =>
    have hne := of_decide_eq_false h
    refine track_ext ?_ fun n => rfl
    simp [TensorDirectory.apply, getTensor, Ne.symm hne]
  | addPlacement u p => exact track_addPlacement_ne (of_decide_eq_false h) p
  | removePlacement u n =>
    have hne := of_decide_eq_false h
    refine track_ext (lookup_removePlacement_ne (Ne.symm hne)) fun m => ?_
    rw [TensorDirectory.apply]
    cases he : d.tensors.lookup u with
    | none => rw [removePlacement_of_none he]
    | some e => simp [nodeTensors_removePlacement he, timesListed_retainIndex, hne]
  | evictFromNode n => cases h
  | transferTensor u a b data =>
    have hne := of_decide_eq_false h
    rw [TensorDirectory.apply, transferTensor_eq_elim]
    cases d.tensors.lookup u with
    | none => rfl
    | some e =>
      cases hp : Track.transferred e a b data with
      | none => simp [hp]
      | some p => simpa [hp] using track_addPlacement_ne hne p

theorem answerFor_eq {op : Op} (h : op.concerns t = true) :
    answerFor t d op = (track t d).out op := by
  cases op with
  | registerTensor r => rfl
  | getTensor u now =>
    obtain rfl := of_decide_eq_true h
    simp [answerFor, Call.reply, getTensor, Track.out, track]
  | addPlacement u p =>
    obtain rfl := of_decide_eq_true h
    simp only [answerFor, Call.reply, addPlacement, Track.out, track, AList.lookup_isSome,
      Track.notFound]
    split <;> rfl
  | removePlacement u n =>
    obtain rfl := of_decide_eq_true h
    simp only [answerFor, Call.reply, Track.out, track, AList.lookup_isSome, Track.notFound]
    split
    · next hmem => rw [removePlacement_reply hmem]
    · next hmem => simp [removePlacement, AList.lookup_eq_none.2 hmem]
  | evictFromNode n =>
    obtain ⟨ids, hids, hmem⟩ := evicted_evictFromNode d n t
    simp [answerFor, hids, Track.out, track, hmem]
  | transferTensor u a b data =>
    obtain rfl := of_decide_eq_true h
    simp only [answerFor, Call.reply, transferTensor_eq_elim, Track.out, track, Track.notFound]
    cases he : d.tensors.lookup u with
    | none => rfl
    | some e =>
      cases hp : Track.transferred e a b data with
      | none => simp [hp]
      | some p => simp [hp, addPlacement_reply (HashMap.mem_of_lookup he)]

end

/-- Each tensor is a component of the directory. -/
theorem component (t : TensorId) :
    Lts.Component step (answerFor t) (track t) (Op.concerns t) trackMachine where
  next he h := by
    cases he
    exact track_apply h
  out h := answerFor_eq h
  other he h := by
    cases he
    exact track_apply_ne h

theorem exec_run (ops : List Op) : Lts.exec step new ops = some (run ops) := by
  have hfold : ∀ (ops : List Op) (d : TensorDirectory),
      Lts.exec step d ops = some (ops.foldl apply d) := by
    intro ops
    induction ops with
    | nil => exact fun _ => rfl
    | cons op ops ih => exact fun d => Lts.exec_cons.2 ⟨_, rfl, ih (d.apply op)⟩
  exact hfold ops new

/-- **Tensors do not interfere.** After any operations, what the directory holds of a tensor is what
the operations on it and the evictions, in their order, have made of it, and what they answered
about it is what they would have without the other operations. -/
theorem tensors_independent (ops : List Op) (t : TensorId) :
    track t (run ops) = trackMachine.run ⟨none, fun _ => 0⟩ (ops.filter (Op.concerns t)) ∧
      Lts.answers step (answerFor t) (Op.concerns t) new ops =
        trackMachine.outputs ⟨none, fun _ => 0⟩ (ops.filter (Op.concerns t)) :=
  ⟨(component t).exec (exec_run ops), (component t).outputs (exec_run ops)⟩

end TensorGrid.TensorDirectory
