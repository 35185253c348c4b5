import TensorGrid.ModelRegistry.Layout

/-!
# Which models can be registered

`new` makes the cache directory, and nothing makes the directories in it: the directories in the
cache are those that were there before (`isDir_reachable`). A copy needs the one that the checksum
begins with, so a file that can be parsed can be registered exactly if that directory was there
before `new` (`registers_iff`), and in a cache directory that `new` has made there is none
(`not_registers_of_new_directory`).
-/

namespace TensorGrid.RegistryHost

open Rust ModelRegistry

variable {a : Allocator} {sha256 : List UInt8 → Vector UInt8 32} {fs : FileSystem} {cacheDir : Path}
  {h t : RegistryHost}

/-- `register_model` returns the model's metadata if the operating system makes no error, and the
model is then listed. -/
def Registers (a : Allocator) (sha256 : List UInt8 → Vector UInt8 32) (h : RegistryHost)
    (filePath : Path) (name : String) (registeredAt lastAccessed : DateTime) : Prop :=
  ∃ m, (h.registry.registerModel a sha256 h.fs filePath name none registeredAt lastAccessed).1 =
      .ok m ∧ ∀ r : ModelRegistry, m ∈ (r.insertModel m).listModels

theorem mem_listModels_insertModel (r : ModelRegistry) (m : ModelRegistry.ModelMetadata) :
    m ∈ (r.insertModel m).listModels := by
  unfold listModels insertModel
  rw [AList.entries_insert]
  simp

/-! ## The directories in the cache -/

/-- The directories in the cache are the same. -/
def SameDirs (cacheDir : Path) (fs fs' : FileSystem) : Prop :=
  ∀ p, cacheDir <+: p → p ≠ cacheDir → fs'.isDir p = fs.isDir p

theorem sameDirs_new (fs : FileSystem) (cacheDir : Path) :
    SameDirs cacheDir fs (new fs cacheDir).fs := by
  intro p hp hne
  have hnot : ¬ p <+: cacheDir := fun h => hne (h.eq_of_length_le hp.length_le)
  show ((fs.createDirAll cacheDir).getD fs).isDir p = _
  unfold FileSystem.createDirAll
  cases hcreate : fs.createDirs [] cacheDir with
  | none => rfl
  | some fs' =>
    show fs'.isDir p = fs.isDir p
    unfold FileSystem.isDir
    rw [FileSystem.lookup_createDirs hcreate (by simpa using hnot)]

theorem isDir_step {e : RegistryEvent} (he : h.step a sha256 e = some t) {p : Path}
    (hp : h.registry.cacheDir <+: p) : t.fs.isDir p = h.fs.isDir p := by
  cases host_step he with
  | found hm hexists => rfl
  | copied hm hexists hcopy => exact FileSystem.isDir_copy
  | failed hm hexists => exact FileSystem.isDir_copy
  | refused | same | absent => rfl
  | insert hget => rfl
  | update he hf => rfl
  | @unregister modelId m fault hm =>
    show FileSystem.isDir (if fault then h.fs else (h.fs.removeFile m.filePath).getD h.fs) p = _
    split
    · rfl
    · cases hremove : h.fs.removeFile m.filePath with
      | none => rfl
      | some fs' => exact FileSystem.isDir_removeFile hremove
  | others hsame =>
    unfold FileSystem.isDir
    rw [hsame p hp]

/-- **No call makes a directory in the cache**, nor removes one. -/
theorem isDir_reachable (hreach : Lts.Reachable (step a sha256) (new fs cacheDir) h) :
    SameDirs cacheDir fs h.fs := by
  have hinv : Named cacheDir h ∧ SameDirs cacheDir fs h.fs := by
    refine hreach.inv (I := fun h => Named cacheDir h ∧ SameDirs cacheDir fs h.fs)
      ⟨Named.new fs cacheDir, sameDirs_new fs cacheDir⟩ fun h e t hh he => ?_
    refine ⟨hh.1.next he, fun p hp hne => ?_⟩
    rw [isDir_step he (hh.1.directory ▸ hp), hh.2 p hp hne]
  exact hinv.2

/-! ## Registration -/

/-- The directory of a file's checksum. -/
def checksumDir (sha256 : List UInt8 → Vector UInt8 32) (cacheDir : Path) (file : List UInt8) :
    Path :=
  cacheDir ++ [String.ofList ((calculateChecksum sha256 file).toList.take 2)]

section
variable {filePath : Path} {file : List UInt8} {model : GgufModel}

/-- A registration needs the directory of the checksum: what lies at a path lies in its directory,
and a copy is made to where nothing lies. -/
theorem registers_iff_isDir (hread : h.fs.read filePath = some file)
    (hparse : GgufParser.parse a file = .ok model) (name : String)
    (registeredAt lastAccessed : DateTime) :
    Registers a sha256 h filePath name registeredAt lastAccessed ↔
      h.fs.isDir (checksumDir sha256 h.registry.cacheDir file) := by
  obtain ⟨m, hdesc, hnamed, hchecksum⟩ :=
    describe_of_parse sha256 h.registry hparse name registeredAt lastAccessed
  have hfile : m.filePath = checksumDir sha256 h.registry.cacheDir file ++ [m.checksum] := by
    rw [hnamed.filePath, hchecksum]
    simp [checksumDir]
  have hresult : (∃ m, (h.registry.registerModel a sha256 h.fs filePath name none registeredAt
      lastAccessed).1 = .ok m) ↔ h.fs.isDir (checksumDir sha256 h.registry.cacheDir file) := by
    by_cases hexists : h.fs.pathExists m.filePath
    · simp only [registerModel, hread, hdesc, hexists, if_true]
      exact iff_of_true ⟨m, rfl⟩ (FileSystem.isDir_of_pathExists (hfile ▸ hexists))
    · have hcopy : (h.fs.copy filePath m.filePath none).1 =
          h.fs.isDir (checksumDir sha256 h.registry.cacheDir file) := by
        rw [Bool.eq_iff_iff, FileSystem.copy_succeeds hread,
          FileSystem.isDir_of_not_pathExists hexists, hfile, FileSystem.hasParent_concat]
        simp
      simp only [registerModel, hread, hdesc, hexists, hcopy]
      cases h.fs.isDir (checksumDir sha256 h.registry.cacheDir file) <;> simp
  rw [← hresult]
  constructor
  · rintro ⟨m, hm, -⟩
    exact ⟨m, hm⟩
  · rintro ⟨m, hm⟩
    exact ⟨m, hm, fun r => mem_listModels_insertModel r m⟩

/-- The directory of a checksum is there if it was there before `new`. -/
theorem isDir_checksumDir (hreach : Lts.Reachable (step a sha256) (new fs cacheDir) h) :
    h.fs.isDir (checksumDir sha256 h.registry.cacheDir file) =
      fs.isDir (checksumDir sha256 cacheDir file) := by
  rw [(Named.reachable hreach).directory]
  refine isDir_reachable hreach _ (List.prefix_append _ _) ?_
  simp [checksumDir]

/-- In a cache directory that `new` makes, nothing can be registered. -/
theorem not_registers_of_new_directory
    (hreach : Lts.Reachable (step a sha256) (new fs cacheDir) h) (hnew : ¬ fs.pathExists cacheDir)
    (hread : h.fs.read filePath = some file) (hparse : GgufParser.parse a file = .ok model)
    (name : String) (registeredAt lastAccessed : DateTime) :
    ¬ Registers a sha256 h filePath name registeredAt lastAccessed := by
  rw [registers_iff_isDir hread hparse, isDir_checksumDir hreach]
  intro hdir
  refine hnew (FileSystem.pathExists_iff.2 ⟨.directory, ?_⟩)
  exact fs.parentDir _ _ (HashMap.mem_of_lookup (of_decide_eq_true hdir))

/-- **Which models can be registered**: those whose checksum's directory was in the cache before
`new`. -/
theorem registers_iff (hreach : Lts.Reachable (step a sha256) (new fs cacheDir) h)
    (hread : h.fs.read filePath = some file) (hparse : GgufParser.parse a file = .ok model)
    (name : String) (registeredAt lastAccessed : DateTime) :
    Registers a sha256 h filePath name registeredAt lastAccessed ↔
      fs.isDir (checksumDir sha256 cacheDir file) := by
  rw [registers_iff_isDir hread hparse, isDir_checksumDir hreach]

end

theorem registers_bare : Registers bareAllocator (fun _ => bareDigest)
    (new (bareFs [["cache", "a4"]]) ["cache"]) ["bare.gguf"] "bare" ⟨0⟩ ⟨0⟩ := by
  have hread : (new (bareFs [["cache", "a4"]]) ["cache"]).fs.read ["bare.gguf"] = some bareModel :=
    rfl
  obtain ⟨model, hparse⟩ : ∃ model, GgufParser.parse bareAllocator bareModel = .ok model :=
    ⟨_, rfl⟩
  exact (registers_iff (.refl _) hread hparse "bare" ⟨0⟩ ⟨0⟩).2 (by decide)

/-- The cache directory can be made and the file parsed. -/
theorem not_registers_bare :
    ((bareFs []).createDirAll ["cache"]).isSome ∧
    (new (bareFs []) ["cache"]).fs.read ["bare.gguf"] = some bareModel ∧
    (∃ model, GgufParser.parse bareAllocator bareModel = .ok model) ∧
    ¬ Registers bareAllocator (fun _ => bareDigest) (new (bareFs []) ["cache"]) ["bare.gguf"] "bare"
      ⟨0⟩ ⟨0⟩ := by
  refine ⟨by decide, rfl, ⟨_, rfl⟩, ?_⟩
  rintro ⟨m, hm, -⟩
  cases hm

end TensorGrid.RegistryHost
