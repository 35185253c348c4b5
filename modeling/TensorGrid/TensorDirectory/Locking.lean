import TensorGrid.Lib.Deadlock
import TensorGrid.Lib.RwLock
import TensorGrid.TensorDirectory.Index

/-!
# The locks of the tensor directory

The calls of the directory as processes over its two `RwLock`s. A call asks for its first lock, runs
the section up to its second `await`, asks for the second lock if the section gets there (`After`),
and drops both guards at its end. `transfer_tensor` drops its read guard and goes on as an
`add_placement`. What the calls return is left out.

`Call.enter` and `Call.finish` are the two sections; together they are the operation as a whole
(`enter_eq`).
-/

namespace TensorGrid.TensorDirectory

open Rust

inductive Lock
  | tensors | nodeTensors
deriving DecidableEq, Repr

inductive Call
  | op (op : Op)
  | getTensorsOnNode (nodeId : NodeId)
  | getStats

/-- The first lock of a call. -/
def Call.first : Call → Lock × Mode
  | .op (.registerTensor _) => (.tensors, .write)
  | .op (.getTensor _ _) => (.tensors, .write)
  | .op (.addPlacement _ _) => (.tensors, .write)
  | .op (.removePlacement _ _) => (.tensors, .write)
  | .op (.evictFromNode _) => (.nodeTensors, .write)
  | .op (.transferTensor _ _ _ _) => (.tensors, .read)
  | .getTensorsOnNode _ => (.nodeTensors, .read)
  | .getStats => (.tensors, .read)

/-- The second lock of a call that asks for one. -/
def Call.second : Call → Lock × Mode
  | .op (.evictFromNode _) => (.tensors, .write)
  | .op _ => (.nodeTensors, .write)
  | .getTensorsOnNode _ => (.tensors, .read)
  | .getStats => (.nodeTensors, .read)

/-- How a call goes on after its first section: it returns, asks for its second lock, or drops its
guard and goes on as another call. -/
inductive After
  | leave
  | nest
  | continueWith (call : Call)

/-- The placement that `transfer_tensor` adds, if the tensor is on the source node. -/
def transferPlacement (d : TensorDirectory) (tensorId : TensorId) (fromNode toNode : NodeId)
    (data : List UInt8) : Option PhysicalPlacement := do
  let entry ← d.tensors.lookup tensorId
  let source ← entry.placements.find? (·.nodeId == fromNode)
  some { nodeId := toNode, device := source.device, offset := 0,
         length := UInt64.ofNat data.length, role := .replica }

/-- The section under the first guard. -/
def Call.enter (d : TensorDirectory) : Call → TensorDirectory × After
  | .op (.registerTensor r) => ({ d with tensors := (d.registerTensor r).2.tensors }, .nest)
  | .op (.getTensor t now) => ((d.getTensor t now).2, .leave)
  | .op (.addPlacement t p) =>
    if t ∈ d.tensors then ({ d with tensors := (d.addPlacement t p).2.tensors }, .nest)
    else (d, .leave)
  | .op (.removePlacement t n) =>
    if t ∈ d.tensors then ({ d with tensors := (d.removePlacement t n).2.tensors }, .nest)
    else (d, .leave)
  | .op (.evictFromNode _) => (d, .nest)
  | .op (.transferTensor t a b data) =>
    match transferPlacement d t a b data with
    | some p => (d, .continueWith (.op (.addPlacement t p)))
    | none => (d, .leave)
  | .getTensorsOnNode _ => (d, .nest)
  | .getStats => (d, .nest)

/-- The section under both guards. -/
def Call.finish (d : TensorDirectory) : Call → TensorDirectory
  | .op (.registerTensor r) =>
    { d with nodeTensors := pushIndex r.placement.nodeId r.tensorId d.nodeTensors }
  | .op (.addPlacement t p) => { d with nodeTensors := pushIndex p.nodeId t d.nodeTensors }
  | .op (.removePlacement t n) => { d with nodeTensors := retainIndex n t d.nodeTensors }
  | .op (.evictFromNode n) => (d.evictFromNode n).2
  | .op (.getTensor _ _) => d
  | .op (.transferTensor _ _ _ _) => d
  | .getTensorsOnNode _ => d
  | .getStats => d

/-- The directory after a call that runs alone. -/
def Call.apply (d : TensorDirectory) : Call → TensorDirectory
  | .op o => d.apply o
  | .getTensorsOnNode _ => d
  | .getStats => d

/-! ## The system -/

inductive Phase
  /-- Before the first lock. -/
  | start
  /-- Waiting for the first lock, or under its guard. -/
  | first
  /-- Waiting for the second lock under the first guard, or under both guards. -/
  | second
  | done
deriving DecidableEq, Repr

structure Proc where
  call : Call
  phase : Phase

/-- The directory, its locks and the calls; a guard is named by the position of its call. -/
structure Locking where
  directory : TensorDirectory
  locks : Lock → RwLock Nat
  procs : List Proc

inductive Label
  | start (pid : Nat)
  | grant (lock : Lock)
  | run (pid : Nat)

namespace Locking

def init (d : TensorDirectory) (calls : List Call) : Locking :=
  ⟨d, fun _ => .empty, calls.map (⟨·, .start⟩)⟩

/-- `pid` joins the queue of a lock. -/
def request (s : Locking) (pid : Nat) (lm : Lock × Mode) : Lock → RwLock Nat :=
  Function.update s.locks lm.1 ((s.locks lm.1).request pid lm.2)

/-- `pid` drops its guards. -/
def release (s : Locking) (pid : Nat) : Lock → RwLock Nat :=
  fun l => (s.locks l).retain (· ≠ pid)

/-- One step: a call asks for its first lock, a lock grants its first request, or a call runs the
section whose guard it got last. -/
def step (s : Locking) : Label → Option Locking
  | .start pid =>
    match s.procs[pid]? with
    | some ⟨call, .start⟩ => some { s with
        locks := s.request pid call.first
        procs := s.procs.set pid ⟨call, .first⟩ }
    | _ => none
  | .grant l => (s.locks l).grant.map fun lock => { s with locks := Function.update s.locks l lock }
  | .run pid =>
    match s.procs[pid]? with
    | some ⟨call, .first⟩ =>
      if (s.locks call.first.1).Holds pid then
        match call.enter s.directory with
        | (d, .leave) => some
          { directory := d, locks := s.release pid, procs := s.procs.set pid ⟨call, .done⟩ }
        | (d, .nest) => some
          { directory := d, locks := s.request pid call.second
            procs := s.procs.set pid ⟨call, .second⟩ }
        | (d, .continueWith call') => some
          { directory := d, locks := s.release pid, procs := s.procs.set pid ⟨call', .start⟩ }
      else none
    | some ⟨call, .second⟩ =>
      if (s.locks call.second.1).Holds pid then some
        { directory := call.finish s.directory, locks := s.release pid
          procs := s.procs.set pid ⟨call, .done⟩ }
      else none
    | _ => none

/-- The call waits for the lock: its request is in the queue, and the queue cannot move. -/
def Waits (s : Locking) (pid : Nat) (l : Lock) : Prop :=
  (s.locks l).Waits pid ∧ (s.locks l).grant = none

def Holds (s : Locking) (pid : Nat) (l : Lock) : Prop := (s.locks l).Holds pid

/-- A cycle of calls each waiting for a lock that the next one holds. -/
def Deadlocked (s : Locking) : Prop := Deadlock.Deadlocked s.Waits s.Holds

end Locking

/-! ## The sections and the operations -/

theorem transferTensor_eq_match (d : TensorDirectory) (t : TensorId) (a b : NodeId)
    (data : List UInt8) : (d.transferTensor t a b data).2 =
      match transferPlacement d t a b data with
      | some p => (d.addPlacement t p).2
      | none => d := by
  unfold TensorDirectory.transferTensor transferPlacement
  cases d.tensors.lookup t with
  | none => rfl
  | some e =>
    cases hfind : e.placements.find? (·.nodeId == a) with
    | none => simp [hfind]
    | some q => simp [hfind]

theorem removePlacement_nodeTensors {d : TensorDirectory} {t : TensorId} (h : t ∈ d.tensors)
    (n : NodeId) : (d.removePlacement t n).2.nodeTensors = retainIndex n t d.nodeTensors := by
  obtain ⟨e, he⟩ := HashMap.lookup_of_mem h
  rw [TensorDirectory.removePlacement, he]

/-- **The sections of a call make up the call.** -/
theorem enter_eq (d : TensorDirectory) (c : Call) :
    match c.enter d with
    | (d', .leave) => d' = c.apply d
    | (d', .nest) => c.finish d' = c.apply d
    | (d', .continueWith c') => d' = d ∧ c'.apply d = c.apply d := by
  cases c with
  | op op =>
    cases op with
    | registerTensor r => rfl
    | getTensor t now => rfl
    | addPlacement t p =>
      by_cases h : t ∈ d.tensors
      · simp only [Call.enter, if_pos h, Call.finish, Call.apply, TensorDirectory.apply,
          addPlacement_of_mem h]
      · simp only [Call.enter, if_neg h, Call.apply, TensorDirectory.apply,
          addPlacement_of_notMem h]
    | removePlacement t n =>
      by_cases h : t ∈ d.tensors
      · simp only [Call.enter, if_pos h, Call.finish, Call.apply, TensorDirectory.apply,
          ← removePlacement_nodeTensors h n]
      · simp only [Call.enter, if_neg h, Call.apply, TensorDirectory.apply,
          TensorDirectory.removePlacement, AList.lookup_eq_none.2 h]
    | evictFromNode n => rfl
    | transferTensor t a b data =>
      have heq := transferTensor_eq_match d t a b data
      cases hp : transferPlacement d t a b data with
      | none =>
        rw [hp] at heq
        simp only [Call.enter, hp, Call.apply, TensorDirectory.apply, heq]
      | some p =>
        rw [hp] at heq
        simp only [Call.enter, hp, Call.apply, TensorDirectory.apply, heq, and_self]
  | getTensorsOnNode n => rfl
  | getStats => rfl

end TensorGrid.TensorDirectory
