import TensorGrid.TensorDirectory.Guards

/-!
# What the calls of the directory return

`Call.reply` is what a call returns that runs alone. Concurrent calls return from a section: from
the first one (`Call.enterReply`), or from the one under both guards (`Call.finishReply`).

`enters` is what the first section can do, for the directory and for the reply: it is the whole call
(`leaves`), or the part of a write that decides on everything but the index (`writes`), or it does
nothing yet (`reads`, `checks`).
-/

namespace TensorGrid.TensorDirectory

open Rust

structure DirectoryStats where
  totalTensors : Nat
  totalPlacements : Nat
  mutableCount : Nat
  nodeCount : Nat
deriving DecidableEq, Repr

def getStats (d : TensorDirectory) : DirectoryStats where
  totalTensors := d.tensors.entries.length
  totalPlacements := (d.tensors.entries.map (·.2.placements.length)).sum
  mutableCount := d.tensors.entries.countP (·.2.mutable)
  nodeCount := d.nodeTensors.entries.length

inductive Reply
  | unit (result : Except String Unit)
  | entry (entry : Option TensorEntry)
  | evicted (result : Except String (List TensorId))
  | entries (entries : List TensorEntry)
  | stats (stats : DirectoryStats)

/-- What a call returns that runs alone. -/
def Call.reply (d : TensorDirectory) : Call → Reply
  | .op (.registerTensor r) => .unit (d.registerTensor r).1
  | .op (.getTensor t now) => .entry (d.getTensor t now).1
  | .op (.addPlacement t p) => .unit (d.addPlacement t p).1
  | .op (.removePlacement t n) => .unit (d.removePlacement t n).1
  | .op (.evictFromNode n) => .evicted (d.evictFromNode n).1
  | .op (.transferTensor t a b data) => .unit (d.transferTensor t a b data).1
  | .getTensorsOnNode n => .entries (d.getTensorsOnNode n)
  | .getStats => .stats d.getStats

/-- What a call returns from its first section, if it does. -/
def Call.enterReply (d : TensorDirectory) : Call → Option Reply
  | .op (.getTensor t now) => some (.entry (d.getTensor t now).1)
  | .op (.addPlacement t _) =>
    if t ∈ d.tensors then none else some (.unit (.error ("Tensor not found: " ++ t)))
  | .op (.removePlacement t _) =>
    if t ∈ d.tensors then none else some (.unit (.error ("Tensor not found: " ++ t)))
  | .op (.transferTensor t a _ _) =>
    match d.tensors.lookup t with
    | none => some (.unit (.error ("Tensor not found: " ++ t)))
    | some entry =>
      if (entry.placements.find? (·.nodeId == a)).isSome then none
      else some (.unit (.error "Tensor not on source node"))
  | .op (.registerTensor _) | .op (.evictFromNode _) | .getTensorsOnNode _ | .getStats => none

/-- What a call returns from the section under both guards. -/
def Call.finishReply (d : TensorDirectory) : Call → Reply
  | .op (.evictFromNode n) => .evicted (d.evictFromNode n).1
  | .op _ => .unit (.ok ())
  | .getTensorsOnNode n => .entries (d.getTensorsOnNode n)
  | .getStats => .stats d.getStats

/-- The guard under which a call writes the entries before it asks for the index. -/
def Call.Writes (c : Call) : Prop := c.first = (.tensors, .write)

instance (c : Call) : Decidable c.Writes := inferInstanceAs (Decidable (_ = _))

/-- What the first section can do. -/
inductive Call.Enters (d : TensorDirectory) (c : Call) : TensorDirectory × After → Prop
  | leaves : c.first.1 = .tensors → c.enterReply d = some (c.reply d) →
      Enters d c (c.apply d, .leave)
  | writes {d' : TensorDirectory} : c.Writes → c.finish d' = c.apply d →
      c.reply d = .unit (.ok ()) → c.enterReply d = none → Enters d c (d', .nest)
  | reads : ¬ c.Writes → (∀ d, c.finish d = c.apply d ∧ c.finishReply d = c.reply d) →
      c.enterReply d = none → Enters d c (d, .nest)
  | checks {t : TensorId} {a b : NodeId} {data : List UInt8} {p : PhysicalPlacement} :
      c = .op (.transferTensor t a b data) → transferPlacement d t a b data = some p →
      c.enterReply d = none → Enters d c (d, .continueWith (.op (.addPlacement t p)))

theorem addPlacement_reply {d : TensorDirectory} {t : TensorId} (h : t ∈ d.tensors)
    (p : PhysicalPlacement) : (d.addPlacement t p).1 = .ok () := by
  simp [TensorDirectory.addPlacement, h]

theorem removePlacement_reply {d : TensorDirectory} {t : TensorId} (h : t ∈ d.tensors)
    (n : NodeId) : (d.removePlacement t n).1 = .ok () := by
  obtain ⟨e, he⟩ := HashMap.lookup_of_mem h
  simp [TensorDirectory.removePlacement, he]

/-- **What the first section does**, whatever the call. -/
theorem enters (d : TensorDirectory) (c : Call) : c.Enters d (c.enter d) := by
  have heq := enter_eq d c
  cases c with
  | op o =>
    cases o with
    | registerTensor r => exact .writes rfl rfl rfl rfl
    | getTensor t now => exact .leaves rfl rfl
    | addPlacement t p =>
      by_cases h : t ∈ d.tensors
      · rw [Call.enter, if_pos h] at heq ⊢
        exact .writes rfl heq (congrArg _ (addPlacement_reply h p)) (if_pos h)
      · rw [Call.enter, if_neg h] at heq ⊢
        have hreply : Call.enterReply d (.op (.addPlacement t p)) =
            some (Call.reply d (.op (.addPlacement t p))) := by
          simp [Call.enterReply, Call.reply, TensorDirectory.addPlacement, h]
        rw [show (d, After.leave) = (Call.apply d (.op (.addPlacement t p)), .leave) by rw [← heq]]
        exact .leaves rfl hreply
    | removePlacement t n =>
      by_cases h : t ∈ d.tensors
      · rw [Call.enter, if_pos h] at heq ⊢
        exact .writes rfl heq (congrArg _ (removePlacement_reply h n)) (if_pos h)
      · rw [Call.enter, if_neg h] at heq ⊢
        have hreply : Call.enterReply d (.op (.removePlacement t n)) =
            some (Call.reply d (.op (.removePlacement t n))) := by
          simp [Call.enterReply, Call.reply, TensorDirectory.removePlacement, h,
            AList.lookup_eq_none.2 h]
        rw [show (d, After.leave) = (Call.apply d (.op (.removePlacement t n)), .leave) by
          rw [← heq]]
        exact .leaves rfl hreply
    | evictFromNode n => exact .reads (fun h => by cases h) (fun _ => ⟨rfl, rfl⟩) rfl
    | transferTensor t a b data =>
      cases hp : transferPlacement d t a b data with
      | some p =>
        rw [Call.enter, hp]
        refine .checks rfl hp ?_
        obtain ⟨e, he, hsource⟩ := Option.bind_eq_some_iff.1 hp
        obtain ⟨source, hfind, -⟩ := Option.bind_eq_some_iff.1 hsource
        simp [Call.enterReply, he, hfind]
      | none =>
        simp only [Call.enter, hp] at heq ⊢
        have hreply : Call.enterReply d (.op (.transferTensor t a b data)) =
            some (Call.reply d (.op (.transferTensor t a b data))) := by
          unfold transferPlacement at hp
          cases he : d.tensors.lookup t with
          | none => simp [Call.enterReply, Call.reply, TensorDirectory.transferTensor, he]
          | some e =>
            cases hfind : e.placements.find? (·.nodeId == a) with
            | none =>
              simp [Call.enterReply, Call.reply, TensorDirectory.transferTensor, he, hfind]
            | some source => simp [he, hfind] at hp
        rw [show (d, After.leave) = (Call.apply d (.op (.transferTensor t a b data)), .leave) by
          rw [← heq]]
        exact .leaves rfl hreply
  | getTensorsOnNode n => exact .reads (fun h => by cases h) (fun _ => ⟨rfl, rfl⟩) rfl
  | getStats => exact .reads (fun h => by cases h) (fun _ => ⟨rfl, rfl⟩) rfl

/-- A write has decided on its reply before its last section. -/
theorem Call.Writes.finishReply {c : Call} (h : c.Writes) (d : TensorDirectory) :
    c.finishReply d = .unit (.ok ()) := by
  cases c with
  | op o =>
    cases o with
    | evictFromNode n => cases h
    | registerTensor | getTensor | addPlacement | removePlacement | transferTensor => rfl
  | getTensorsOnNode | getStats => cases h

theorem Call.first_or_second (c : Call) : c.first.1 = .tensors ∨ c.second.1 = .tensors := by
  have hne := c.first_ne_second
  cases hfirst : c.first.1 with
  | tensors => exact .inl rfl
  | nodeTensors =>
    cases hsecond : c.second.1 with
    | tensors => exact .inr rfl
    | nodeTensors => exact absurd (hfirst.trans hsecond.symm) hne

end TensorGrid.TensorDirectory
