import TensorGrid.ModelRegistry.Directories

/-!
# What lies under a checksum

A registration copies its file into the cache, or finds something at the path. It does not look at
what it finds, and a copy that failed has left a part of its file there. `Careful` says that what a
registration finds has the checksum that it lies under, and that a removed file is nobody else's.
The files of all models, listed or waiting, have their checksums in all states of a run exactly if
its steps are careful (`always_intact_iff`); so the files of the listed models have theirs in a
careful run (`contentAddressed_of_careful`).
-/

namespace TensorGrid.RegistryHost

open Rust ModelRegistry

section
variable (a : Allocator) (sha256 : List UInt8 → Vector UInt8 32)

/-- The path names a file with this checksum. -/
def Holds (fs : FileSystem) (p : Path) (checksum : String) : Prop :=
  ∃ file, fs.read p = some file ∧ calculateChecksum sha256 file = checksum

/-- Every registered model's path names a file with the model's checksum. -/
def ContentAddressed (h : RegistryHost) : Prop :=
  ∀ id m, h.registry.models.lookup id = some m → Holds sha256 h.fs m.filePath m.checksum

/-- So does the path of every model that waits. -/
structure Intact (h : RegistryHost) : Prop where
  listed : ContentAddressed sha256 h
  waiting : ∀ m ∈ h.registering, Holds sha256 h.fs m.filePath m.checksum

/-- Where a file goes. -/
def cachedFile (cacheDir : Path) (file : List UInt8) : Path :=
  checksumDir sha256 cacheDir file ++ [calculateChecksum sha256 file]

/-- What a registration finds at its path is a file with its checksum, and the file that goes with a
model is no other model's. -/
def Careful (h : RegistryHost) : RegistryEvent → Prop
  | .registerModel filePath _ _ _ _ => ∀ file model, h.fs.read filePath = some file →
      GgufParser.parse a file = .ok model →
      h.fs.pathExists (cachedFile sha256 h.registry.cacheDir file) →
      Holds sha256 h.fs (cachedFile sha256 h.registry.cacheDir file)
        (calculateChecksum sha256 file)
  | .unregisterModel modelId fault => ∀ m, fault = false →
      h.registry.models.lookup modelId = some m →
      (∀ id m', id ≠ modelId → h.registry.models.lookup id = some m' →
        m'.filePath ≠ m.filePath) ∧ ∀ m' ∈ h.registering, m'.filePath ≠ m.filePath
  | .insertModel _ | .getModel _ _ | .markCached _ _ | .unmarkCached _ _ | .others _ => True

end

variable {a : Allocator} {sha256 : List UInt8 → Vector UInt8 32} {cacheDir : Path}
  {h t : RegistryHost} {fs fs' : FileSystem} {p : Path} {checksum : String}

theorem read_congr (hp : fs'.nodes.lookup p = fs.nodes.lookup p) : fs'.read p = fs.read p := by
  unfold FileSystem.read
  rw [hp]

theorem Holds.congr (hp : fs'.nodes.lookup p = fs.nodes.lookup p)
    (hholds : Holds sha256 fs p checksum) : Holds sha256 fs' p checksum := by
  obtain ⟨file, hread, hsum⟩ := hholds
  exact ⟨file, (read_congr hp).trans hread, hsum⟩

theorem Holds.pathExists (hholds : Holds sha256 fs p checksum) : fs.pathExists p := by
  obtain ⟨file, hread, -⟩ := hholds
  exact FileSystem.pathExists_of_read hread

theorem Described.filePath_eq {filePath : Path} {file : List UInt8}
    {m : ModelRegistry.ModelMetadata} (hm : Described a sha256 h filePath file m) :
    m.filePath = cachedFile sha256 h.registry.cacheDir file := by
  rw [hm.wellNamed.filePath, hm.checksum]
  simp [cachedFile, checksumDir]

theorem Described.careful_iff {filePath : Path} {file : List UInt8}
    {m : ModelRegistry.ModelMetadata} (hm : Described a sha256 h filePath file m) {name : String}
    {fault : Option Fault} {registeredAt lastAccessed : DateTime} :
    Careful a sha256 h (.registerModel filePath name fault registeredAt lastAccessed) ↔
      (h.fs.pathExists m.filePath → Holds sha256 h.fs m.filePath m.checksum) := by
  rw [hm.filePath_eq, hm.checksum]
  constructor
  · intro hcareful hexists
    obtain ⟨model, hmodel⟩ := hm.parsed
    exact hcareful file model hm.read hmodel hexists
  · intro hholds file' model hread _ hexists
    cases hm.read.symm.trans hread
    exact hholds hexists

/-- A file that appears where there was nothing is no model's file. -/
theorem Intact.of_copy (hi : Intact sha256 h) (hexists : ¬ h.fs.pathExists p) {source : Path}
    {fault : Option Fault} : Intact sha256 { h with fs := (h.fs.copy source p fault).2 } := by
  have hkeep {q : Path} {checksum : String} (hholds : Holds sha256 h.fs q checksum) :
      Holds sha256 (h.fs.copy source p fault).2 q checksum := by
    refine hholds.congr (FileSystem.lookup_copy ?_)
    rintro rfl
    exact hexists hholds.pathExists
  exact ⟨fun id m hm => hkeep (hi.listed id m hm), fun m hm => hkeep (hi.waiting m hm)⟩

theorem Intact.wait_iff (hi : Intact sha256 h) {m : ModelRegistry.ModelMetadata} :
    Intact sha256 { h with registering := h.registering ++ [m] } ↔
      Holds sha256 h.fs m.filePath m.checksum := by
  constructor
  · exact fun hi' => hi'.waiting m (by simp)
  · intro hholds
    refine ⟨hi.listed, fun m' hm' => ?_⟩
    rcases List.mem_append.1 hm' with hm' | hm'
    · exact hi.waiting m' hm'
    · rw [List.mem_singleton.1 hm']
      exact hholds

theorem careful_of_isBookkeeping {e : RegistryEvent} (he : e.isBookkeeping) :
    Careful a sha256 h e := by
  cases e with
  | registerModel | unregisterModel => cases he
  | insertModel | getModel | markCached | unmarkCached | others => trivial

/-- Removing a model's file leaves the others theirs exactly if it is not theirs too. -/
theorem Intact.unregister_iff (hi : Intact sha256 h) {modelId : ModelId}
    {m : ModelRegistry.ModelMetadata} (hm : h.registry.models.lookup modelId = some m)
    {fault : Bool} :
    Intact sha256
        { h with
          registry := { h.registry with models := h.registry.models.erase modelId }
          fs := if fault then h.fs else (h.fs.removeFile m.filePath).getD h.fs } ↔
      Careful a sha256 h (.unregisterModel modelId fault) := by
  have hlisted {id : ModelId} {m' : ModelRegistry.ModelMetadata} (hid : id ≠ modelId) :
      (h.registry.models.erase modelId).lookup id = some m' ↔
        h.registry.models.lookup id = some m' := by
    rw [AList.lookup_erase_ne hid]
  have hother {id : ModelId} {m' : ModelRegistry.ModelMetadata}
      (hm' : (h.registry.models.erase modelId).lookup id = some m') : id ≠ modelId := by
    rintro rfl
    rw [AList.lookup_erase] at hm'
    cases hm'
  cases fault with
  | true =>
    refine iff_of_true ⟨fun id m' hm' => ?_, hi.waiting⟩ fun _ hfault => by cases hfault
    exact hi.listed id m' ((hlisted (hother hm')).1 hm')
  | false =>
    obtain ⟨file, hread, -⟩ := hi.listed modelId m hm
    obtain ⟨fs', hremove⟩ := FileSystem.exists_removeFile hread
    have hkeep {q : Path} {checksum : String} (hholds : Holds sha256 h.fs q checksum) :
        Holds sha256 fs' q checksum ↔ q ≠ m.filePath := by
      constructor
      · rintro hholds' rfl
        obtain ⟨node, hnode⟩ := FileSystem.pathExists_iff.1 hholds'.pathExists
        rw [FileSystem.lookup_removeFile hremove, if_pos rfl] at hnode
        cases hnode
      · intro hq
        exact hholds.congr ((FileSystem.lookup_removeFile hremove).trans (if_neg hq))
    simp only [hremove, Option.getD_some]
    constructor
    · rintro hi' m₀ - hm₀
      cases hm.symm.trans hm₀
      refine ⟨fun id m' hid hm' => ?_, fun m' hm' => ?_⟩
      · exact (hkeep (hi.listed id m' hm')).1 (hi'.listed id m' ((hlisted hid).2 hm'))
      · exact (hkeep (hi.waiting m' hm')).1 (hi'.waiting m' hm')
    · intro hcareful
      obtain ⟨hlist, hwait⟩ := hcareful m rfl hm
      refine ⟨fun id m' hm' => ?_, fun m' hm' => ?_⟩
      · have hid := hother hm'
        have hm' := (hlisted hid).1 hm'
        exact (hkeep (hi.listed id m' hm')).2 (hlist id m' hid hm')
      · exact (hkeep (hi.waiting m' hm')).2 (hwait m' hm')

/-- **A step leaves the files intact exactly if it is careful.** -/
theorem intact_step {e : RegistryEvent} (hn : Named cacheDir h) (hi : Intact sha256 h)
    (he : h.step a sha256 e = some t) : Intact sha256 t ↔ Careful a sha256 h e := by
  cases host_step he with
  | found hm hexists =>
    rw [hm.careful_iff, hi.wait_iff]
    exact ⟨fun hholds _ => hholds, fun hholds => hholds hexists⟩
  | @copied filePath file m name fault _ _ hm hexists hcopy =>
    refine iff_of_true ((hi.of_copy hexists).wait_iff.2 ⟨file, ?_, hm.checksum.symm⟩)
      (hm.careful_iff.2 fun h => absurd h hexists)
    refine FileSystem.read_of_copy ?_ hcopy hm.read
    rintro rfl
    exact hexists (FileSystem.pathExists_of_read hm.read)
  | failed hm hexists =>
    exact iff_of_true (hi.of_copy hexists) (hm.careful_iff.2 fun h => absurd h hexists)
  | refused hno =>
    exact iff_of_true hi fun file model hread hmodel => absurd hmodel (hno file hread model)
  | same hbook => exact iff_of_true hi (careful_of_isBookkeeping hbook)
  | absent hno =>
    refine iff_of_true hi fun m _ hm => ?_
    rw [hno] at hm
    cases hm
  | @insert i m hget =>
    refine iff_of_true ⟨fun id m' hm' => ?_, fun m' hm' => ?_⟩ trivial
    · by_cases hid : id = m.modelId
      · subst hid
        cases (lookup_insertModel h.registry m).symm.trans hm'
        exact hi.waiting m (List.mem_of_getElem? hget)
      · exact hi.listed id m' ((AList.lookup_insert_ne hid).symm.trans hm')
    · exact hi.waiting m' ((List.eraseIdx_sublist _ _).subset hm')
  | @update _ modelId f hbook hf =>
    refine iff_of_true ⟨fun id m' hm' => ?_, hi.waiting⟩ (careful_of_isBookkeeping hbook)
    by_cases hid : id = modelId
    · rw [hid, HashMap.lookup_modify] at hm'
      obtain ⟨m, hm, rfl⟩ := Option.map_eq_some_iff.1 hm'
      rw [(hf m).2.2.1, (hf m).2.2.2]
      exact hi.listed modelId m hm
    · rw [HashMap.lookup_modify_ne hid] at hm'
      exact hi.listed id m' hm'
  | unregister hm => exact hi.unregister_iff hm
  | @others fs' hsame =>
    have hkeep {m : ModelRegistry.ModelMetadata} (hm : m.WellNamed cacheDir)
        (hholds : Holds sha256 h.fs m.filePath m.checksum) :
        Holds sha256 fs' m.filePath m.checksum := by
      refine hholds.congr (hsame m.filePath ?_).symm
      rw [hm.filePath, hn.directory]
      exact List.prefix_append _ _
    refine iff_of_true ⟨fun id m hm => ?_, fun m hm => ?_⟩ trivial
    · exact hkeep (hn.listed id m hm).1 (hi.listed id m hm)
    · exact hkeep (hn.waiting m hm) (hi.waiting m hm)

/-! ## Runs -/

theorem Intact.new (fs : FileSystem) (cacheDir : Path) : Intact sha256 (new fs cacheDir) where
  listed := by
    intro id m hm
    cases hm
  waiting := by
    intro m hm
    cases hm

theorem always_intact_iff (fs : FileSystem) (cacheDir : Path) (es : List RegistryEvent) :
    Lts.Always (step a sha256) (Intact sha256) (RegistryHost.new fs cacheDir) es ↔
      Lts.Meets (step a sha256) (Careful a sha256) (RegistryHost.new fs cacheDir) es :=
  Lts.always_iff_meets (I := Named cacheDir) (fun _ _ _ hn he => hn.next he)
    (fun _ _ _ hn hi he => intact_step hn hi he) (Named.new fs cacheDir) (Intact.new fs cacheDir)

/-- **In a careful run every registered model's file has the model's checksum.** -/
theorem contentAddressed_of_careful (fs : FileSystem) (cacheDir : Path) (es : List RegistryEvent)
    (hC : Lts.Meets (step a sha256) (Careful a sha256) (RegistryHost.new fs cacheDir) es) :
    Lts.Always (step a sha256) (ContentAddressed sha256) (RegistryHost.new fs cacheDir) es := by
  have hintact := (always_intact_iff fs cacheDir es).2 hC
  exact hintact.imp fun h hi => hi.listed

/-- The SHA-256 of the bare model and of its first eight bytes. -/
def bareSha256 (file : List UInt8) : Vector UInt8 32 :=
  if file = bareModel then bareDigest
  else
    #v[82, 126, 233, 168, 234, 192, 127, 198, 154, 242, 119, 194, 100, 234, 91, 245, 192, 240, 55,
      196, 66, 181, 195, 51, 108, 24, 170, 16, 210, 9, 107, 214]

/-- A model that is registered where there was nothing. -/
theorem contentAddressed_of_first : Lts.Always (step bareAllocator bareSha256)
    (ContentAddressed bareSha256) (RegistryHost.new (bareFs [["cache", "a4"]]) ["cache"])
    [.registerModel ["bare.gguf"] "bare" none ⟨0⟩ ⟨0⟩, .insertModel 0] := by
  refine contentAddressed_of_careful (a := bareAllocator) _ _ _ fun t ht => ⟨?_, fun u hu => ?_⟩
  · intro file model hread hmodel hexists
    cases hread
    exact absurd hexists (by decide)
  · exact ⟨trivial, trivial⟩

/-- A copy that stops after eight bytes, and the same registration again. -/
theorem not_contentAddressed_of_retry : ∃ t, Lts.exec (step bareAllocator bareSha256)
    (RegistryHost.new (bareFs [["cache", "a4"]]) ["cache"])
    [.registerModel ["bare.gguf"] "bare" (some (.writing 8)) ⟨0⟩ ⟨0⟩,
      .registerModel ["bare.gguf"] "bare" none ⟨0⟩ ⟨0⟩, .insertModel 0] = some t ∧
    ¬ ContentAddressed bareSha256 t := by
  refine ⟨_, rfl, fun h => ?_⟩
  obtain ⟨file, hread, hsum⟩ := h "unknown-a4e5e156ddec27e2" _ rfl
  cases hread
  exact absurd hsum (by decide)

end TensorGrid.RegistryHost
