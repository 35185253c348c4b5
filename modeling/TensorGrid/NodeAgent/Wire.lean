import TensorGrid.ClusterDecoding
import TensorGrid.NodeAgent.Deployment

/-!
# The bodies of requests and answers

The JSON that the agent's client posts and the coordinator's handlers extract, and the JSON of the
answers. Both sides declare their own structs; the names of their fields agree, so an answer arrives
as it is (`deserialize_serialize`), and a request arrives up to its readings: it is refused before
the handler runs if a required one is not finite.
-/

namespace TensorGrid

open Rust

/-! ## Requests -/

def RegisterRequest.serialize (ser : Serializer) (request : RegisterRequest) : Json :=
  .object [("node_name", .string request.nodeName), ("hostname", .string request.hostname),
    ("cluster_id", .string request.clusterId), ("capabilities", request.capabilities.serialize),
    ("resources", request.resources.serialize ser)]

def HeartbeatRequest.serialize (ser : Serializer) (request : HeartbeatRequest) : Json :=
  .object [("sequence", .ofU64 request.sequence), ("resources", request.resources.serialize ser)]

namespace Api

def RegisterNodeRequest.deserialize (v : Json) : Option RegisterNodeRequest := do
  match ← v.members ["node_name", "hostname", "cluster_id", "capabilities", "resources"] with
  | [nodeName, hostname, clusterId, capabilities, resources] =>
    some { nodeName := ← nodeName.bind Json.asStr, hostname := ← hostname.bind Json.asStr
           clusterId := ← clusterId.bind Json.asStr
           capabilities := ← capabilities.bind NodeCapabilities.deserialize
           resources := ← resources.bind NodeResources.deserialize }
  | _ => none

def HeartbeatRequest.deserialize (v : Json) : Option HeartbeatRequest := do
  match ← v.members ["sequence", "resources"] with
  | [sequence, resources] =>
    some { sequence := ← sequence.bind Json.asU64
           resources := ← resources.bind NodeResources.deserialize }
  | _ => none

/-! ## Answers -/

def RegisterNodeResponse.serialize (response : RegisterNodeResponse) : Json :=
  .object [("success", .bool response.success), ("node_id", .string response.nodeId),
    ("error_message", .ofOption .string response.errorMessage)]

def HeartbeatResponse.serialize (response : HeartbeatResponse) : Json :=
  .object [("success", .bool response.success),
    ("error_message", .ofOption .string response.errorMessage)]

end Api

def RegisterResponse.deserialize (v : Json) : Option RegisterResponse := do
  match ← v.members ["success", "node_id", "error_message"] with
  | [success, nodeId, errorMessage] =>
    some { success := ← success.bind Json.asBool, nodeId := ← nodeId.bind Json.asStr
           errorMessage := ← Json.optional Json.asStr errorMessage }
  | _ => none

def HeartbeatResponse.deserialize (v : Json) : Option HeartbeatResponse := do
  match ← v.members ["success", "error_message"] with
  | [success, errorMessage] =>
    some { success := ← success.bind Json.asBool
           errorMessage := ← Json.optional Json.asStr errorMessage }
  | _ => none

/-! ## What arrives -/

theorem RegisterResponse.deserialize_serialize (response : Api.RegisterNodeResponse) :
    deserialize response.serialize = some response.received := by
  rw [deserialize, Api.RegisterNodeResponse.serialize, Json.members_object (by rfl) (by decide)]
  simp [Json.optional_string, Api.RegisterNodeResponse.received]

theorem HeartbeatResponse.deserialize_serialize (response : Api.HeartbeatResponse) :
    deserialize response.serialize = some response.received := by
  rw [deserialize, Api.HeartbeatResponse.serialize, Json.members_object (by rfl) (by decide)]
  simp [Json.optional_string, Api.HeartbeatResponse.received]

def RegisterRequest.read (parse : Float32 → Float32) (request : RegisterRequest) :
    RegisterRequest :=
  { request with resources := request.resources.read parse }

namespace Api

variable {ser : Serializer} {parse : Float32 → Float32}

theorem RegisterNodeRequest.deserialize_serialize (h : ser.Reads parse) (r : RegisterRequest) :
    deserialize (r.serialize ser) =
      if r.resources.finite then some (r.read parse).received else none := by
  rw [deserialize, RegisterRequest.serialize, Json.members_object (by rfl) (by decide)]
  by_cases hfinite : r.resources.finite
  · simp [NodeCapabilities.deserialize_serialize, NodeResources.deserialize_serialize h, hfinite,
      RegisterRequest.read, RegisterRequest.received]
  · simp [NodeResources.deserialize_serialize h, hfinite]

theorem HeartbeatRequest.deserialize_serialize (h : ser.Reads parse)
    (r : TensorGrid.HeartbeatRequest) : deserialize (r.serialize ser) =
      if r.resources.finite then some ⟨r.sequence, r.resources.read parse⟩ else none := by
  rw [deserialize, TensorGrid.HeartbeatRequest.serialize,
    Json.members_object (by rfl) (by decide)]
  by_cases hfinite : r.resources.finite
  · simp [NodeResources.deserialize_serialize h, hfinite]
  · simp [NodeResources.deserialize_serialize h, hfinite]

end Api

end TensorGrid
