import TensorGrid.ModelRegistry.Contents

/-!
# One path, one id

The id of a model holds the architecture that its file names and 16 digits of its checksum, its path
all 64 digits. If no two of the files that are registered have one SHA-256, the path determines the
file, the file its architecture, and these the id (`modelId_eq_of_filePath`). So no two registered
models share a path, and what `unregister_model` removes is no other model's file
(`pathsApart_of_injOn`).
-/

namespace TensorGrid

open Rust

/-- The model is the one that this file is registered as. -/
structure ModelRegistry.ModelMetadata.MadeOf (m : ModelRegistry.ModelMetadata) (a : Allocator)
    (sha256 : List UInt8 → Vector UInt8 32) (file : List UInt8) : Prop where
  checksum : m.checksum = ModelRegistry.calculateChecksum sha256 file
  architecture : m.architecture = ModelRegistry.architectureOf a file

namespace RegistryHost

open ModelRegistry

/-- A file that is registered is one of these. -/
def ReadsFrom (files : Set (List UInt8)) (h : RegistryHost) : RegistryEvent → Prop
  | .registerModel filePath _ _ _ _ => ∀ file, h.fs.read filePath = some file → file ∈ files
  | .insertModel _ | .getModel _ _ | .markCached _ _ | .unmarkCached _ _ | .unregisterModel _ _
  | .others _ => True

/-- Models with different ids have different paths. -/
def PathsApart (h : RegistryHost) : Prop :=
  ∀ id id' m m', h.registry.models.lookup id = some m → h.registry.models.lookup id' = some m' →
    id ≠ id' → m.filePath ≠ m'.filePath

section
variable (a : Allocator) (sha256 : List UInt8 → Vector UInt8 32)

/-- Unregistering a model leaves every other one, and what is at its path. -/
def SparesOthers (h : RegistryHost) (e : RegistryEvent) : Prop :=
  ∀ modelId fault t, e = .unregisterModel modelId fault → h.step a sha256 e = some t →
    ∀ id m, id ≠ modelId → h.registry.models.lookup id = some m →
      t.registry.models.lookup id = some m ∧
        t.fs.nodes.lookup m.filePath = h.fs.nodes.lookup m.filePath

/-- Every model is made of one of these files. -/
abbrev MadeFrom (files : Set (List UInt8)) (h : RegistryHost) : Prop :=
  Models (fun _ m => ∃ file ∈ files, m.MadeOf a sha256 file)
    (fun m => ∃ file ∈ files, m.MadeOf a sha256 file) h

end

variable {a : Allocator} {sha256 : List UInt8 → Vector UInt8 32} {cacheDir : Path}
  {h t : RegistryHost} {files : Set (List UInt8)}

/-- A file that is read from the cache, or from anywhere else, brings its own architecture. -/
theorem MadeFrom.next {e : RegistryEvent} (hm : MadeFrom a sha256 files h)
    (hfiles : ReadsFrom files h e) (he : h.step a sha256 e = some t) :
    MadeFrom a sha256 files t := by
  refine Models.next hm (fun filePath _ _ _ _ file m hregister hdesc => ?_) (fun m hm => hm)
    (fun id m f hf hm => ?_) he
  · subst hregister
    exact ⟨file, hfiles file hdesc.read, hdesc.checksum, hdesc.architecture⟩
  · obtain ⟨file, hfile, hsum, harchitecture⟩ := hm
    obtain ⟨-, hf₂, hf₃, -⟩ := hf m
    exact ⟨file, hfile, hf₃.trans hsum, hf₂.trans harchitecture⟩

/-- Models of one file have one id. -/
theorem modelId_eq_of_madeOf {m m' : ModelRegistry.ModelMetadata} {file : List UInt8}
    (hm : m.WellNamed cacheDir) (hm' : m'.WellNamed cacheDir) (hmade : m.MadeOf a sha256 file)
    (hmade' : m'.MadeOf a sha256 file) : m.modelId = m'.modelId := by
  rw [hm.modelId, hm'.modelId, hmade.architecture, hmade'.architecture, hmade.checksum,
    hmade'.checksum]

/-- **The path determines the id**: through the checksum, the file and the architecture. -/
theorem modelId_eq_of_filePath (hsha : Set.InjOn sha256 files) {m m' : ModelRegistry.ModelMetadata}
    (hm : m.WellNamed cacheDir) (hm' : m'.WellNamed cacheDir)
    (hfile : ∃ file ∈ files, m.MadeOf a sha256 file)
    (hfile' : ∃ file ∈ files, m'.MadeOf a sha256 file) (hpath : m.filePath = m'.filePath) :
    m.modelId = m'.modelId := by
  obtain ⟨file, hmem, hmade⟩ := hfile
  obtain ⟨file', hmem', hmade'⟩ := hfile'
  have hchecksum : m.checksum = m'.checksum := by
    rw [hm.filePath, hm'.filePath, List.append_cancel_left_eq, List.cons.injEq,
      List.cons.injEq] at hpath
    exact hpath.2.1
  have hdigest : sha256 file = sha256 file' := by
    rw [hmade.checksum, hmade'.checksum] at hchecksum
    exact Vector.toList_inj.1 (Hex.encode_injective hchecksum)
  obtain rfl : file = file' := hsha hmem hmem' hdigest
  exact modelId_eq_of_madeOf hm hm' hmade hmade'

theorem MadeFrom.pathsApart (hm : MadeFrom a sha256 files h) (hn : Named cacheDir h)
    (hsha : Set.InjOn sha256 files) : PathsApart h := by
  intro id id' m m' hlookup hlookup' hid hpath
  obtain ⟨hnamed, rfl⟩ := hn.listed id m hlookup
  obtain ⟨hnamed', rfl⟩ := hn.listed id' m' hlookup'
  exact hid (modelId_eq_of_filePath hsha hnamed hnamed' (hm.listed _ m hlookup)
    (hm.listed _ m' hlookup') hpath)

theorem PathsApart.sparesOthers (hp : PathsApart h) (e : RegistryEvent) :
    SparesOthers a sha256 h e := by
  rintro modelId fault t rfl he id m hid hlookup
  cases host_step he with
  | same hbook | update hbook => cases hbook
  | absent hno => exact ⟨hlookup, rfl⟩
  | @unregister _ m' _ hlookup' =>
    refine ⟨(AList.lookup_erase_ne hid).trans hlookup, ?_⟩
    cases fault with
    | true => rfl
    | false => exact FileSystem.lookup_getD_removeFile (hp id modelId m m' hlookup hlookup' hid)

/-! ## Runs -/

variable {fs : FileSystem} {es : List RegistryEvent}

/-- **No two models share a path, and unregistering one spares the others.** -/
theorem pathsApart_of_injOn (hsha : Set.InjOn sha256 files)
    (hes : Lts.Meets (step a sha256) (ReadsFrom files) (RegistryHost.new fs cacheDir) es) :
    Lts.Always (step a sha256) PathsApart (RegistryHost.new fs cacheDir) es ∧
      Lts.Meets (step a sha256) (SparesOthers a sha256) (RegistryHost.new fs cacheDir) es := by
  have hinv := Lts.always_of_meets (I := fun h => Named cacheDir h ∧ MadeFrom a sha256 files h)
    (fun _ _ _ hI hC he => ⟨hI.1.next he, hI.2.next hC he⟩)
    ⟨Named.new fs cacheDir, Models.new fs cacheDir⟩ hes
  have hapart : Lts.Always (step a sha256) PathsApart (RegistryHost.new fs cacheDir) es :=
    hinv.imp fun h hI => hI.2.pathsApart hI.1 hsha
  exact ⟨hapart, hapart.meets fun h e hp => hp.sparesOthers e⟩

/-- The bare model with a byte behind it. -/
def longModel : List UInt8 := bareModel ++ [0]

/-- The SHA-256 of the bare model and of the long one. -/
def longSha256 (file : List UInt8) : Vector UInt8 32 :=
  if file = bareModel then bareDigest
  else
    #v[67, 66, 176, 217, 100, 254, 203, 96, 50, 35, 199, 146, 252, 60, 101, 213, 109, 134, 12, 153,
      166, 62, 163, 181, 156, 173, 233, 177, 167, 107, 240, 165]

/-- Both files, and the directories that their copies go to. -/
def longFs : FileSystem :=
  ((bareFs [["cache", "a4"], ["cache", "43"]]).writeFile ["long.gguf"] longModel).getD .empty

/-- Both models are registered, and one of them is unregistered. -/
theorem pathsApart_of_two :
    Lts.Always (step bareAllocator longSha256) PathsApart (RegistryHost.new longFs ["cache"])
        [.registerModel ["bare.gguf"] "bare" none ⟨0⟩ ⟨0⟩, .insertModel 0,
          .registerModel ["long.gguf"] "long" none ⟨1⟩ ⟨1⟩, .insertModel 0,
          .unregisterModel "unknown-a4e5e156ddec27e2" false] ∧
      Lts.Meets (step bareAllocator longSha256) (SparesOthers bareAllocator longSha256)
        (RegistryHost.new longFs ["cache"])
        [.registerModel ["bare.gguf"] "bare" none ⟨0⟩ ⟨0⟩, .insertModel 0,
          .registerModel ["long.gguf"] "long" none ⟨1⟩ ⟨1⟩, .insertModel 0,
          .unregisterModel "unknown-a4e5e156ddec27e2" false] := by
  have hsha : Set.InjOn longSha256 {bareModel, longModel} :=
    Set.injOn_pair.2 fun h => absurd h (by decide)
  refine pathsApart_of_injOn hsha fun t ht => ⟨?_, fun u hu => ⟨trivial, fun v hv => ⟨?_,
    fun w hw => ⟨trivial, fun x hx => ⟨trivial, trivial⟩⟩⟩⟩⟩
  · intro file hread
    cases hread
    exact .inl rfl
  · intro file hread
    cases ht
    cases hu
    cases hread
    exact .inr rfl

end RegistryHost

end TensorGrid
