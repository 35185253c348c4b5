import TensorGrid.ClusterTypes
import TensorGrid.Lib.FileSystem
import TensorGrid.Lib.Hex
import TensorGrid.Lib.Lts
import TensorGrid.Lib.Strings
import TensorGrid.ModelFormat.Model

/-!
# The model registry

The registry of `services/model-registry` over a file system: registered models by id, and a cache
directory with a copy of each model's file under the checksum of its contents. SHA-256, the clock
readings and the errors of the operating system are arguments.

`RegistryHost.step` is the registry with its callers. A registration reads, hashes, checks the cache
and copies in one step, so no two registrations copy at the same time; then it waits for the lock of
the models, and other calls run while it waits. A source file does not change during a call; between
calls other programs change what they like outside the cache.
-/

namespace TensorGrid

open Rust

structure ModelRegistry.ModelMetadata where
  modelId : ModelId
  name : String
  architecture : String
  parameterCount : UInt64
  contextLength : UInt64
  quantization : String
  fileSizeBytes : UInt64
  checksum : String
  filePath : Path
  cachedNodes : List NodeId
  registeredAt : DateTime
  lastAccessed : DateTime
deriving DecidableEq, Repr

/-- What a call of the registry returns as its `Box<dyn Error>`. -/
inductive RegistryError
  | parse (e : ParseError)
  | io
  | message (text : String)
deriving DecidableEq, Repr

structure ModelRegistry where
  models : HashMap ModelId ModelRegistry.ModelMetadata
  cacheDir : Path

structure RegistryStats where
  totalModels : Nat
  totalSizeBytes : UInt64
  totalCacheNodes : Nat
deriving DecidableEq, Repr

namespace ModelRegistry

/-- The directory is made if it can be. -/
def new (fs : FileSystem) (cacheDir : Path) : ModelRegistry × FileSystem :=
  (⟨∅, cacheDir⟩, (fs.createDirAll cacheDir).getD fs)

/-! ## The cache -/

/-- `cache_dir/checksum[0:2]/checksum`. -/
def cachePath (r : ModelRegistry) (checksum : String) : Outcome RegistryError Path := do
  let checksumPrefix ← sliceTo checksum 2
  pure ((r.cacheDir.join checksumPrefix).join checksum)

def getCachedPath (r : ModelRegistry) (modelId : ModelId) : Outcome RegistryError (Option Path) :=
  match lastPart '-' modelId with
  | none => .ok none
  | some checksum => do
    let path ← r.cachePath checksum
    pure (some path)

section
variable (a : Allocator) (sha256 : List UInt8 → Vector UInt8 32)

/-- `calculate_checksum` of a file with these contents. -/
def calculateChecksum (file : List UInt8) : String := Hex.encode (sha256 file).toList

/-! ## Registration -/

/-- What `register_model` finds out about a file. -/
def describe (r : ModelRegistry) (file : List UInt8) (name : String)
    (registeredAt lastAccessed : DateTime) : Outcome RegistryError ModelMetadata :=
  match GgufParser.parse a file with
  | .err e => .err (.parse e)
  | .panic => .panic
  | .ok ggufModel => do
    let architecture := (GgufParser.getArchitecture ggufModel).getD "unknown"
    let checksum := calculateChecksum sha256 file
    let digits ← sliceTo checksum 16
    let cachedPath ← r.cachePath checksum
    pure {
      modelId := architecture ++ "-" ++ digits
      name
      architecture
      parameterCount := (GgufParser.getParameterCount ggufModel).getD 0
      contextLength := (GgufParser.getContextLength ggufModel).getD 2048
      quantization := "q4_k_m"
      fileSizeBytes := UInt64.ofNat file.length
      checksum
      filePath := cachedPath
      cachedNodes := []
      registeredAt
      lastAccessed }

/-- `register_model` up to its wait for the lock. `fault` is what happens to its copy, if it makes
one. -/
def registerModel (r : ModelRegistry) (fs : FileSystem) (filePath : Path) (name : String)
    (fault : Option Fault) (registeredAt lastAccessed : DateTime) :
    Outcome RegistryError ModelMetadata × FileSystem :=
  match fs.read filePath with
  | none => (.err .io, fs)
  | some file =>
    match describe a sha256 r file name registeredAt lastAccessed with
    | .err e => (.err e, fs)
    | .panic => (.panic, fs)
    | .ok metadata =>
      if fs.pathExists metadata.filePath then (.ok metadata, fs)
      else
        let (copied, fs) := fs.copy filePath metadata.filePath fault
        (if copied then .ok metadata else .err .io, fs)

end

/-- The rest of `register_model`. -/
def insertModel (r : ModelRegistry) (metadata : ModelMetadata) : ModelRegistry :=
  { r with models := r.models.insert metadata.modelId metadata }

/-! ## Other calls -/

def getModel (r : ModelRegistry) (modelId : ModelId) (now : DateTime) :
    Option ModelMetadata × ModelRegistry :=
  let models := r.models.modify modelId fun metadata => { metadata with lastAccessed := now }
  (models.lookup modelId, { r with models })

def listModels (r : ModelRegistry) : List ModelMetadata := r.models.entries.map (·.2)

def notFound (modelId : ModelId) : RegistryError := .message ("Model not found: " ++ modelId)

def markCached (r : ModelRegistry) (modelId : ModelId) (nodeId : NodeId) :
    Outcome RegistryError Unit × ModelRegistry :=
  if modelId ∈ r.models then
    (.ok (), { r with models := r.models.modify modelId fun metadata =>
      if nodeId ∈ metadata.cachedNodes then metadata
      else { metadata with cachedNodes := metadata.cachedNodes ++ [nodeId] } })
  else (.err (notFound modelId), r)

def unmarkCached (r : ModelRegistry) (modelId : ModelId) (nodeId : NodeId) :
    Outcome RegistryError Unit × ModelRegistry :=
  if modelId ∈ r.models then
    (.ok (), { r with models := r.models.modify modelId fun metadata =>
      { metadata with cachedNodes := metadata.cachedNodes.filter (· ≠ nodeId) } })
  else (.err (notFound modelId), r)

/-- The file is removed too, unless that fails (`fault`). -/
def unregisterModel (r : ModelRegistry) (fs : FileSystem) (modelId : ModelId) (fault : Bool) :
    Outcome RegistryError Unit × ModelRegistry × FileSystem :=
  match r.models.lookup modelId with
  | none => (.err (notFound modelId), r, fs)
  | some metadata =>
    (.ok (), { r with models := r.models.erase modelId },
      if fault then fs else (fs.removeFile metadata.filePath).getD fs)

def isCachedOnNode (r : ModelRegistry) (modelId : ModelId) (nodeId : NodeId) : Bool :=
  (r.models.lookup modelId).any fun metadata => nodeId ∈ metadata.cachedNodes

def getModelsOnNode (r : ModelRegistry) (nodeId : NodeId) : List ModelMetadata :=
  r.listModels.filter fun metadata => nodeId ∈ metadata.cachedNodes

/-- The sizes wrap, as in a release build. -/
def getStats (r : ModelRegistry) : RegistryStats where
  totalModels := r.models.entries.length
  totalSizeBytes := (r.listModels.map (·.fileSizeBytes)).sum
  totalCacheNodes := (r.listModels.map (·.cachedNodes.length)).sum

end ModelRegistry

/-! ## Runs -/

inductive RegistryEvent
  /-- A registration comes as far as the lock. -/
  | registerModel (filePath : Path) (name : String) (fault : Option Fault)
      (registeredAt lastAccessed : DateTime)
  /-- The `i`th waiting registration gets the lock. -/
  | insertModel (i : Nat)
  | getModel (modelId : ModelId) (now : DateTime)
  | markCached (modelId : ModelId) (nodeId : NodeId)
  | unmarkCached (modelId : ModelId) (nodeId : NodeId)
  | unregisterModel (modelId : ModelId) (fault : Bool)
  /-- Other programs leave the file system like this. -/
  | others (fs : FileSystem)

/-- The registry, the file system, and the models of the registrations that wait for the lock. -/
structure RegistryHost where
  registry : ModelRegistry
  fs : FileSystem
  registering : List ModelRegistry.ModelMetadata

namespace RegistryHost

/-- What is in the directory is the same. -/
def sameUnder (dir : Path) (fs fs' : FileSystem) : Bool :=
  (fs.nodes.keys ++ fs'.nodes.keys).all fun p =>
    !dir.isPrefixOf p || fs.nodes.lookup p = fs'.nodes.lookup p

section
variable (a : Allocator) (sha256 : List UInt8 → Vector UInt8 32)

def new (fs : FileSystem) (cacheDir : Path) : RegistryHost :=
  let (registry, fs) := ModelRegistry.new fs cacheDir
  ⟨registry, fs, []⟩

def step (h : RegistryHost) : RegistryEvent → Option RegistryHost
  | .registerModel filePath name fault registeredAt lastAccessed =>
    let (result, fs) := h.registry.registerModel a sha256 h.fs filePath name fault registeredAt
      lastAccessed
    match result with
    | .ok metadata => some { h with fs, registering := h.registering ++ [metadata] }
    | _ => some { h with fs }
  | .insertModel i =>
    match h.registering[i]? with
    | none => none
    | some metadata =>
      some { h with
        registry := h.registry.insertModel metadata, registering := h.registering.eraseIdx i }
  | .getModel modelId now => some { h with registry := (h.registry.getModel modelId now).2 }
  | .markCached modelId nodeId =>
    some { h with registry := (h.registry.markCached modelId nodeId).2 }
  | .unmarkCached modelId nodeId =>
    some { h with registry := (h.registry.unmarkCached modelId nodeId).2 }
  | .unregisterModel modelId fault =>
    let (_, registry, fs) := h.registry.unregisterModel h.fs modelId fault
    some { h with registry, fs }
  | .others fs =>
    if sameUnder h.registry.cacheDir h.fs fs then some { h with fs } else none

end

end RegistryHost

/-! ## A small model -/

/-- A file without metadata and tensors. -/
def bareModel : List UInt8 :=
  [0x47, 0x47, 0x55, 0x46, 3, 0, 0, 0, 0, 0, 0, 0, 0, 0, 0, 0, 0, 0, 0, 0, 0, 0, 0, 0]

/-- Its SHA-256. -/
def bareDigest : Vector UInt8 32 :=
  #v[164, 229, 225, 86, 221, 236, 39, 226, 134, 247, 83, 40, 120, 77, 113, 6, 182, 10, 78, 177, 210,
    70, 233, 80, 160, 1, 163, 249, 68, 251, 218, 153]

/-- The file, and these directories. -/
def bareFs (dirs : List Path) : FileSystem :=
  dirs.foldl (fun fs p => (fs.createDirAll p).getD fs)
    ((FileSystem.empty.writeFile ["bare.gguf"] bareModel).getD .empty)

/-- Enough memory for small files. -/
def bareAllocator : Allocator := ⟨32, 88, fun n => n ≤ 4096, 64⟩

end TensorGrid
