import TensorGrid.ClusterTypes

/-!
# The tensor directory

The directory service of `services/tensor-directory`: the entries by tensor id, and the index from
a node to the ids pushed there. Every operation is a function of the directory, as it runs to
completion under its locks. Clock readings are arguments; log lines and metric counters are left
out.

`TensorDirectory.run` is a run: any sequence of operations with any arguments, successful or not.
-/

namespace TensorGrid

open Rust

structure TensorEntry where
  tensorId : TensorId
  shape : List UInt64
  dtype : String
  placements : List PhysicalPlacement
  version : UInt64
  mutable : Bool
  ownerSession : Option Uuid
  createdAt : DateTime
  lastAccessed : DateTime
deriving DecidableEq, Repr

/-- `placements.retain(|p| p.node_id != node_id)`. -/
def TensorEntry.offNode (nodeId : NodeId) (e : TensorEntry) : List PhysicalPlacement :=
  e.placements.filter (·.nodeId != nodeId)

structure TensorDirectory where
  tensors : HashMap TensorId TensorEntry
  nodeTensors : HashMap NodeId (List TensorId)

namespace TensorDirectory

def new : TensorDirectory := ⟨∅, ∅⟩

/-- The arguments of `register_tensor`, with its two clock readings. -/
structure Registration where
  tensorId : TensorId
  shape : List UInt64
  dtype : String
  placement : PhysicalPlacement
  mutable : Bool
  ownerSession : Option Uuid
  createdAt : DateTime
  lastAccessed : DateTime

/-- `node_tensors.entry(node_id).or_insert_with(Vec::new).push(tensor_id)`. -/
def pushIndex (nodeId : NodeId) (tensorId : TensorId) (index : HashMap NodeId (List TensorId)) :
    HashMap NodeId (List TensorId) :=
  index.upsert nodeId [] (· ++ [tensorId])

def registerTensor (d : TensorDirectory) (r : Registration) : Except String Unit × TensorDirectory :=
  let entry : TensorEntry :=
    { tensorId := r.tensorId, shape := r.shape, dtype := r.dtype, placements := [r.placement],
      version := 1, mutable := r.mutable, ownerSession := r.ownerSession,
      createdAt := r.createdAt, lastAccessed := r.lastAccessed }
  (.ok (), { tensors := d.tensors.insert r.tensorId entry
             nodeTensors := pushIndex r.placement.nodeId r.tensorId d.nodeTensors })

def getTensor (d : TensorDirectory) (tensorId : TensorId) (now : DateTime) :
    Option TensorEntry × TensorDirectory :=
  let tensors := d.tensors.modify tensorId fun e => { e with lastAccessed := now }
  (tensors.lookup tensorId, { d with tensors })

def addPlacement (d : TensorDirectory) (tensorId : TensorId) (placement : PhysicalPlacement) :
    Except String Unit × TensorDirectory :=
  if tensorId ∈ d.tensors then
    (.ok (), { tensors := d.tensors.modify tensorId fun e =>
                 { e with placements := e.placements ++ [placement], version := e.version + 1 }
               nodeTensors := pushIndex placement.nodeId tensorId d.nodeTensors })
  else (.error ("Tensor not found: " ++ tensorId), d)

/-- `tensor_list.retain(|t| t != tensor_id)`, dropping the key with the last id. -/
def retainIndex (nodeId : NodeId) (tensorId : TensorId) (index : HashMap NodeId (List TensorId)) :
    HashMap NodeId (List TensorId) :=
  match index.lookup nodeId with
  | none => index
  | some ids =>
    let ids := ids.filter (· != tensorId)
    if ids.isEmpty then index.erase nodeId else index.modify nodeId fun _ => ids

def removePlacement (d : TensorDirectory) (tensorId : TensorId) (nodeId : NodeId) :
    Except String Unit × TensorDirectory :=
  match d.tensors.lookup tensorId with
  | none => (.error ("Tensor not found: " ++ tensorId), d)
  | some entry =>
    let placements := entry.offNode nodeId
    let tensors :=
      if placements.isEmpty then d.tensors.erase tensorId
      else d.tensors.modify tensorId fun e => { e with placements, version := e.version + 1 }
    (.ok (), { tensors, nodeTensors := retainIndex nodeId tensorId d.nodeTensors })

/-- The index is followed id by id; an id without an entry is skipped. -/
def getTensorsOnNode (d : TensorDirectory) (nodeId : NodeId) : List TensorEntry :=
  match d.nodeTensors.lookup nodeId with
  | none => []
  | some ids => ids.filterMap d.tensors.lookup

/-- One round of the eviction loop: the entry loses its placements on the node and gets a new
version, and is removed (and reported) if none is left. -/
def evictOne (nodeId : NodeId) (acc : HashMap TensorId TensorEntry × List TensorId)
    (tensorId : TensorId) : HashMap TensorId TensorEntry × List TensorId :=
  match acc.1.lookup tensorId with
  | none => acc
  | some entry =>
    let placements := entry.offNode nodeId
    if placements.isEmpty then (acc.1.erase tensorId, acc.2 ++ [tensorId])
    else (acc.1.modify tensorId fun e => { e with placements, version := e.version + 1 }, acc.2)

def evictFromNode (d : TensorDirectory) (nodeId : NodeId) :
    Except String (List TensorId) × TensorDirectory :=
  let tensorIds := (d.nodeTensors.lookup nodeId).getD []
  let (tensors, evicted) := tensorIds.foldl (evictOne nodeId) (d.tensors, [])
  (.ok evicted, { tensors, nodeTensors := d.nodeTensors.erase nodeId })

def transferTensor (d : TensorDirectory) (tensorId : TensorId) (fromNode toNode : NodeId)
    (data : List UInt8) : Except String Unit × TensorDirectory :=
  match d.tensors.lookup tensorId with
  | none => (.error ("Tensor not found: " ++ tensorId), d)
  | some entry =>
    match entry.placements.find? (·.nodeId == fromNode) with
    | none => (.error "Tensor not on source node", d)
    | some source =>
      d.addPlacement tensorId
        { nodeId := toNode, device := source.device, offset := 0,
          length := UInt64.ofNat data.length, role := .replica }

/-- The entries of the session. -/
def getTensorsBySession (d : TensorDirectory) (sessionId : Uuid) : List TensorEntry :=
  (d.tensors.entries.map (·.2)).filter (·.ownerSession = some sessionId)

/-- The entries on several nodes and the mutable ones. The session id is not used. -/
def getTensorsForReplication (d : TensorDirectory) (_sessionId : Uuid) : List TensorEntry :=
  (d.tensors.entries.map (·.2)).filter fun e => e.placements.length > 1 || e.mutable

/-! ## Runs -/

/-- An operation that writes to the directory, with its arguments. -/
inductive Op
  | registerTensor (r : Registration)
  | getTensor (tensorId : TensorId) (now : DateTime)
  | addPlacement (tensorId : TensorId) (placement : PhysicalPlacement)
  | removePlacement (tensorId : TensorId) (nodeId : NodeId)
  | evictFromNode (nodeId : NodeId)
  | transferTensor (tensorId : TensorId) (fromNode toNode : NodeId) (data : List UInt8)

/-- The directory after an operation. -/
def apply (d : TensorDirectory) : Op → TensorDirectory
  | .registerTensor r => (d.registerTensor r).2
  | .getTensor t now => (d.getTensor t now).2
  | .addPlacement t p => (d.addPlacement t p).2
  | .removePlacement t n => (d.removePlacement t n).2
  | .evictFromNode n => (d.evictFromNode n).2
  | .transferTensor t a b data => (d.transferTensor t a b data).2

/-- An operation as a step of a run: it always runs to completion. -/
def step (d : TensorDirectory) (op : Op) : Option TensorDirectory := some (d.apply op)

/-- The directory after the operations `ops`. -/
def run (ops : List Op) : TensorDirectory := ops.foldl apply new

end TensorDirectory

end TensorGrid
