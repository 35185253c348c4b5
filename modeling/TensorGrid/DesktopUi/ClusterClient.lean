import TensorGrid.ClusterJson
import TensorGrid.Coordinator.Model

/-!
# The desktop client

The coordinator's `get_nodes` handler (`services/coordinator/src/api.rs`) and the client that asks
it (`desktop-ui/src/cluster_client.rs`). What a request comes to is an argument of the client: an
error of `send` or of `json`, or the JSON of the body.

The handler serves the nodes map itself, an object with an entry for each id. The client looks for
the list under `nodes`, which is no id, and decodes nothing: `getNodes_served`. The nodes would not
decode either (`deserialize_node`).
-/

namespace TensorGrid

open Rust

/-- `get_nodes`: the nodes map as it is. -/
def Api.getNodes {S : SignatureScheme} (ser : Serializer) (s : ClusterState S) : Json :=
  .ofMap Uuid.hyphenated (PhysicalNode.serialize ser) s.nodes

namespace DesktopUi

/-! ## What the client expects -/

structure NodeCapabilities where
  cpuCores : UInt32
  gpuCount : UInt64
  memoryBytes : UInt64

structure NodeResources where
  cpuUsagePercent : Float32
  memoryUsedBytes : UInt64

structure NodeInfo where
  id : String
  name : String
  hostname : String
  status : String
  capabilities : NodeCapabilities
  resources : NodeResources

def NodeCapabilities.deserialize (v : Json) : Option NodeCapabilities := do
  match ← v.fields ["cpu_cores", "gpu_count", "memory_bytes"] with
  | [cpuCores, gpuCount, memoryBytes] =>
    some { cpuCores := ← cpuCores.asU32, gpuCount := ← gpuCount.asU64
           memoryBytes := ← memoryBytes.asU64 }
  | _ => none

def NodeResources.deserialize (v : Json) : Option NodeResources := do
  match ← v.fields ["cpu_usage_percent", "memory_used_bytes"] with
  | [cpuUsagePercent, memoryUsedBytes] =>
    some { cpuUsagePercent := ← cpuUsagePercent.asF32, memoryUsedBytes := ← memoryUsedBytes.asU64 }
  | _ => none

def NodeInfo.deserialize (v : Json) : Option NodeInfo := do
  match ← v.fields ["id", "name", "hostname", "status", "capabilities", "resources"] with
  | [id, name, hostname, status, capabilities, resources] =>
    some { id := ← id.asStr, name := ← name.asStr, hostname := ← hostname.asStr
           status := ← status.asStr, capabilities := ← NodeCapabilities.deserialize capabilities
           resources := ← NodeResources.deserialize resources }
  | _ => none

/-! ## The client -/

/-- What `send` and `json` come to. -/
inductive Fetched
  | notSent (text : String)
  | notJson (text : String)
  | body (v : Json)

def Fetched.response : Fetched → Except String Json
  | notSent e => .error ("Request failed: " ++ e)
  | notJson e => .error ("Parse failed: " ++ e)
  | body v => .ok v

/-- `get_nodes`, where `fromValueError` is the text of serde's error for a value that is no list of
nodes. -/
def ClusterClient.getNodes (fromValueError : Json → String) (fetched : Fetched) :
    Except String (List NodeInfo) := do
  let response ← fetched.response
  match (response.get "nodes").asList NodeInfo.deserialize with
  | some nodes => .ok nodes
  | none => .error ("Parse failed: " ++ fromValueError (response.get "nodes"))

/-! ## The client and the coordinator -/

/-- The reply has one entry for each node, with its id, name and hostname. -/
def Lists (nodes : HashMap NodeId PhysicalNode) (reply : Except String (List NodeInfo)) : Prop :=
  ∃ infos, reply = .ok infos ∧
    (infos.map fun info => (info.id, info.name, info.hostname)).Perm
      (nodes.entries.map fun e => (e.2.id.hyphenated, e.2.name, e.2.hostname))

variable {ser : Serializer} {fromValueError : Json → String}

theorem hyphenated_ne_nodes (u : Uuid) : u.hyphenated ≠ "nodes" := by
  intro h
  have hn : 'n' ∈ u.hyphenated.toList := by
    rw [h]
    decide
  exact u.hyphenated_ne (by decide) (by decide) 'n' hn rfl

/-- The capabilities that the coordinator serves have no `cpu_cores`. -/
theorem deserialize_capabilities (capabilities : TensorGrid.NodeCapabilities) :
    NodeCapabilities.deserialize capabilities.serialize = none := rfl

/-- No node that the coordinator serves decodes. -/
theorem deserialize_node (node : PhysicalNode) :
    NodeInfo.deserialize (node.serialize ser) = none := by
  simp [NodeInfo.deserialize, PhysicalNode.serialize, Json.fields, List.lookup,
    deserialize_capabilities]

/-- **The client decodes nothing that the coordinator serves.** -/
theorem getNodes_served {S : SignatureScheme} (s : ClusterState S) :
    ClusterClient.getNodes fromValueError (.body (Api.getNodes ser s)) =
      .error ("Parse failed: " ++ fromValueError .null) := by
  have hnone : (Api.getNodes ser s).get "nodes" = .null :=
    Json.get_ofMap_of_ne hyphenated_ne_nodes
  simp only [ClusterClient.getNodes, Fetched.response, Except.bind, bind, hnone, Json.asList]

/-- Not even an empty cluster is listed. -/
theorem not_lists (ser : Serializer) (fromValueError : Json → String) {S : SignatureScheme}
    (s : ClusterState S) :
    ¬ Lists s.nodes (ClusterClient.getNodes fromValueError (.body (Api.getNodes ser s))) := by
  rintro ⟨infos, hinfos, -⟩
  rw [getNodes_served] at hinfos
  cases hinfos

/-- A coordinator with one node. -/
private def served : ClusterState SignatureScheme.symbolic :=
  ⟨⟨0⟩, smallCluster.nodes, .newCoordinator ⟨0⟩ (Vector.replicate 32 7)⟩

private def servedAtZero : Serializer where
  f32 x := .number (.float x.toFloat.toBits)
  dateTime _ := "1970-01-01T00:00:00Z"

theorem not_lists_node :
    ¬ Lists served.nodes (ClusterClient.getNodes
      (fun _ => "invalid type: null, expected a sequence")
      (.body (Api.getNodes servedAtZero served))) := by
  rintro ⟨infos, hinfos, -⟩
  rw [getNodes_served] at hinfos
  cases hinfos

end DesktopUi

end TensorGrid
