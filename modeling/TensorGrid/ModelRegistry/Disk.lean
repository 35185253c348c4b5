import TensorGrid.ModelRegistry.Paths

/-!
# What lies in the cache

Nothing but `unregister_model` removes a file from the cache, and the registry begins without models
whatever lies there. `Clean` says that a copy does not break off, that a removal does not fail, and
that no registration of a model waits for the lock while the model is unregistered. If the cache
begins with directories only, none of them in another, and no two of the files that are registered
agree in the first 16 digits of their checksums, then the files in it are in all states of a clean
run those of the listed and the waiting models, one for each, and `get_stats` counts them and adds
up what they take up on the disk (`accounts_of_clean`).

What lies at a path in the cache is thus known, and `Accounted.found` can say what a registration
that finds something there has found.
-/

namespace TensorGrid.RegistryHost

open Rust ModelRegistry

/-- The model is listed or waits. -/
def Has (h : RegistryHost) (m : ModelRegistry.ModelMetadata) : Prop :=
  m ∈ h.registry.listModels ∨ m ∈ h.registering

/-- The cache holds directories only, and none in another. -/
def OnlyDirectories (fs : FileSystem) (cacheDir : Path) : Prop :=
  ∀ p, cacheDir <+: p → fs.pathExists p → fs.isDir p ∧ p.length ≤ cacheDir.length + 1

instance (fs : FileSystem) (cacheDir : Path) : Decidable (OnlyDirectories fs cacheDir) :=
  decidable_of_iff (∀ p ∈ fs.nodes.keys, cacheDir <+: p →
      fs.isDir p ∧ p.length ≤ cacheDir.length + 1)
    ⟨fun h p hp hexists => h p (AList.mem_keys.1 (of_decide_eq_true hexists)) hp,
      fun h p hmem hp => h p hp (decide_eq_true (AList.mem_keys.2 hmem))⟩

section
variable (a : Allocator) (sha256 : List UInt8 → Vector UInt8 32) (files : Set (List UInt8))

/-- The digits of the checksum that are in the id. -/
def idDigits (file : List UInt8) : String :=
  String.ofList ((calculateChecksum sha256 file).toList.take 16)

/-- The files in the cache are those of the models, each under its checksum, and the statistics are
theirs when no registration waits. -/
structure Accounts (h : RegistryHost) : Prop where
  owned : ∀ p contents, h.registry.cacheDir <+: p → h.fs.read p = some contents →
    ∃ m, Has h m ∧ m.filePath = p
  stored : ∀ m, Has h m → ∃ file, h.fs.read m.filePath = some file ∧
    calculateChecksum sha256 file = m.checksum ∧ m.fileSizeBytes = UInt64.ofNat file.length
  stats : h.registering = [] →
    h.registry.getStats.totalModels = (h.fs.filesUnder h.registry.cacheDir).length ∧
    h.registry.getStats.totalSizeBytes = UInt64.ofNat (h.fs.usage h.registry.cacheDir)

/-- A copy does not break off, a removal does not fail, and a model is not unregistered while a
registration of it waits. -/
def Clean (h : RegistryHost) : RegistryEvent → Prop
  | .registerModel filePath _ fault _ _ =>
      (∀ file, h.fs.read filePath = some file → file ∈ files) ∧ ∀ n, fault ≠ some (.writing n)
  | .unregisterModel modelId fault => fault = false ∧ ∀ m ∈ h.registering, m.modelId ≠ modelId
  | .insertModel _ | .getModel _ _ | .markCached _ _ | .unmarkCached _ _ | .others _ => True

/-- One of the files lies at the model's path, and the model is made of it. -/
structure Stored (fs : FileSystem) (m : ModelRegistry.ModelMetadata) (file : List UInt8) :
    Prop where
  mem : file ∈ files
  read : fs.read m.filePath = some file
  madeOf : m.MadeOf a sha256 file
  size : m.fileSizeBytes = UInt64.ofNat file.length

/-- What lies in the cache, as far as a clean step needs it. -/
structure Accounted (cacheDir : Path) (h : RegistryHost) : Prop where
  named : Named cacheDir h
  stored : ∀ m, Has h m → ∃ file, Stored a sha256 files h.fs m file
  owned : ∀ p, cacheDir <+: p → h.fs.pathExists p →
    (h.fs.isDir p ∧ p.length ≤ cacheDir.length + 1) ∨ ∃ m, Has h m ∧ m.filePath = p

end

variable {a : Allocator} {sha256 : List UInt8 → Vector UInt8 32} {cacheDir : Path}
  {h t : RegistryHost} {files : Set (List UInt8)}

/-! ## The models of a host -/

theorem mem_listModels {r : ModelRegistry} {m : ModelRegistry.ModelMetadata} :
    m ∈ r.listModels ↔ ∃ id, r.models.lookup id = some m := by
  unfold listModels
  rw [List.mem_map]
  constructor
  · intro ⟨e, he, hm⟩
    exact ⟨e.1, hm ▸ HashMap.mem_entries_iff.1 he⟩
  · intro ⟨id, hm⟩
    exact ⟨⟨id, m⟩, HashMap.mem_entries_iff.2 hm, rfl⟩

theorem has_iff {m : ModelRegistry.ModelMetadata} :
    Has h m ↔ (∃ id, h.registry.models.lookup id = some m) ∨ m ∈ h.registering := by
  unfold Has
  rw [mem_listModels]

theorem Named.wellNamed (hn : Named cacheDir h) {m : ModelRegistry.ModelMetadata} (hm : Has h m) :
    m.WellNamed cacheDir := by
  rcases has_iff.1 hm with ⟨id, hm⟩ | hm
  · exact (hn.listed id m hm).1
  · exact hn.waiting m hm

theorem length_filePath {m : ModelRegistry.ModelMetadata} (hm : m.WellNamed cacheDir) :
    m.filePath.length = cacheDir.length + 2 := by
  rw [hm.filePath, List.length_append]
  rfl

theorem checksum_eq_of_filePath {m m' : ModelRegistry.ModelMetadata} (hm : m.WellNamed cacheDir)
    (hm' : m'.WellNamed cacheDir) (hpath : m.filePath = m'.filePath) :
    m.checksum = m'.checksum := by
  rw [hm.filePath, hm'.filePath, List.append_cancel_left_eq, List.cons.injEq, List.cons.injEq]
    at hpath
  exact hpath.2.1

/-- The id of a model ends in the digits of its file. -/
theorem lastPart_modelId {m : ModelRegistry.ModelMetadata} {file : List UInt8}
    (hm : m.WellNamed cacheDir) (hmade : m.MadeOf a sha256 file) :
    lastPart '-' m.modelId = some (idDigits sha256 file) := by
  have hdigits : IsDigits (calculateChecksum sha256 file) := isDigits_encode _
  rw [hm.modelId, hmade.checksum]
  exact lastPart_append ((hdigits.take 16).ne (by decide))

/-- `new` makes at most the cache directory in it. -/
theorem OnlyDirectories.new {fs : FileSystem} (hfs : OnlyDirectories fs cacheDir) :
    OnlyDirectories (new fs cacheDir).fs cacheDir := by
  show OnlyDirectories ((fs.createDirAll cacheDir).getD fs) cacheDir
  cases hcreate : fs.createDirAll cacheDir with
  | none => exact hfs
  | some fs' =>
    intro p hp hexists
    rw [Option.getD_some] at hexists ⊢
    by_cases hpath : p <+: cacheDir
    · obtain rfl := hpath.eq_of_length_le hp.length_le
      exact ⟨FileSystem.isDir_createDirAll hcreate, Nat.le_succ _⟩
    · have hlookup := FileSystem.lookup_createDirs hcreate (q := p) (by simpa using hpath)
      rw [FileSystem.pathExists_iff, hlookup, ← FileSystem.pathExists_iff] at hexists
      unfold FileSystem.isDir
      rw [hlookup]
      exact hfs p hp hexists

namespace Accounted

/-- Two models with one path have one file. -/
theorem file_eq (hs : Set.InjOn (idDigits sha256) files) {m m' : ModelRegistry.ModelMetadata}
    {file file' : List UInt8} (hm : m.WellNamed cacheDir) (hm' : m'.WellNamed cacheDir)
    (hmade : m.MadeOf a sha256 file) (hmade' : m'.MadeOf a sha256 file') (hfile : file ∈ files)
    (hfile' : file' ∈ files) (hpath : m.filePath = m'.filePath) : file = file' := by
  refine hs hfile hfile' ?_
  have hchecksum := checksum_eq_of_filePath hm hm' hpath
  unfold idDigits
  rw [← hmade.checksum, ← hmade'.checksum, hchecksum]

/-- Two models have one path exactly if they have one id. -/
theorem filePath_eq_iff (hs : Set.InjOn (idDigits sha256) files)
    (ha : Accounted a sha256 files cacheDir h) {m m' : ModelRegistry.ModelMetadata} (hm : Has h m)
    (hm' : Has h m') : m.filePath = m'.filePath ↔ m.modelId = m'.modelId := by
  obtain ⟨file, hfile⟩ := ha.stored m hm
  obtain ⟨file', hfile'⟩ := ha.stored m' hm'
  have hnamed := ha.named.wellNamed hm
  have hnamed' := ha.named.wellNamed hm'
  constructor
  · intro hpath
    obtain rfl := file_eq hs hnamed hnamed' hfile.madeOf hfile'.madeOf hfile.mem hfile'.mem hpath
    exact modelId_eq_of_madeOf hnamed hnamed' hfile.madeOf hfile'.madeOf
  · intro hid
    have hdigits := lastPart_modelId hnamed hfile.madeOf
    rw [hid, lastPart_modelId hnamed' hfile'.madeOf, Option.some.injEq] at hdigits
    obtain rfl := hs hfile'.mem hfile.mem hdigits
    rw [hnamed.filePath, hnamed'.filePath, hfile.madeOf.checksum, hfile'.madeOf.checksum]

end Accounted

/-! ## What a step does to the sizes -/

theorem sum_ofNat {α : Type*} (f : α → Nat) (as : List α) :
    (as.map fun a => UInt64.ofNat (f a)).sum = UInt64.ofNat (as.map f).sum := by
  induction as with
  | nil => rfl
  | cons a as ih => rw [List.map_cons, List.sum_cons, ih, List.map_cons, List.sum_cons,
      UInt64.ofNat_add]

/-- A call that only keeps books changes no size. -/
theorem bookkeeping_step {e : RegistryEvent} (hbook : e.isBookkeeping)
    (he : h.step a sha256 e = some t) : t = h ∨ ∃ modelId f, KeepsNames f ∧
      (∀ m, (f m).fileSizeBytes = m.fileSizeBytes) ∧ t = { h with registry :=
        { h.registry with models := h.registry.models.modify modelId f } } := by
  cases e with
  | registerModel | insertModel | unregisterModel | others => cases hbook
  | getModel modelId now =>
    cases he
    refine .inr ⟨modelId, _, fun m => ?_, fun m => ?_, rfl⟩
    · exact ⟨rfl, rfl, rfl, rfl⟩
    · rfl
  | markCached modelId nodeId =>
    simp only [step, markCached] at he
    split at he
    · cases he
      refine .inr ⟨modelId, _, fun m => ?_, fun m => ?_, rfl⟩
      · split <;> exact ⟨rfl, rfl, rfl, rfl⟩
      · split <;> rfl
    · cases he
      exact .inl rfl
  | unmarkCached modelId nodeId =>
    simp only [step, unmarkCached] at he
    split at he
    · cases he
      refine .inr ⟨modelId, _, fun m => ?_, fun m => ?_, rfl⟩
      · exact ⟨rfl, rfl, rfl, rfl⟩
      · rfl
    · cases he
      exact .inl rfl

/-- A registration records the length of the file that it reads. -/
theorem size_of_describe {r : ModelRegistry} {file : List UInt8} {name : String}
    {registeredAt lastAccessed : DateTime} {m : ModelRegistry.ModelMetadata}
    (hm : describe a sha256 r file name registeredAt lastAccessed = .ok m) :
    m.fileSizeBytes = UInt64.ofNat file.length := by
  unfold describe at hm
  cases hparse : GgufParser.parse a file with
  | ok model =>
    rw [hparse] at hm
    obtain ⟨digits, -, hm⟩ := Outcome.bind_ok.1 hm
    obtain ⟨cachedPath, -, hm⟩ := Outcome.bind_ok.1 hm
    cases hm
    rfl
  | err e => simp [hparse] at hm
  | panic => simp [hparse] at hm

theorem size_of_registerModel {filePath : Path} {name : String} {fault : Option Fault}
    {registeredAt lastAccessed : DateTime} {file : List UInt8} {m : ModelRegistry.ModelMetadata}
    {fs : FileSystem} (hread : h.fs.read filePath = some file)
    (hm : h.registry.registerModel a sha256 h.fs filePath name fault registeredAt lastAccessed =
      (.ok m, fs)) : m.fileSizeBytes = UInt64.ofNat file.length := by
  unfold registerModel at hm
  rw [hread] at hm
  cases hdesc : describe a sha256 h.registry file name registeredAt lastAccessed with
  | ok m' =>
    simp only [hdesc] at hm
    have hsize := size_of_describe hdesc
    split at hm
    · cases hm
      exact hsize
    · split at hm
      · cases hm
        exact hsize
      · cases hm
  | err e =>
    simp only [hdesc] at hm
    cases hm
  | panic =>
    simp only [hdesc] at hm
    cases hm

/-- What a registration does that comes as far as the lock. -/
structure Registered (a : Allocator) (sha256 : List UInt8 → Vector UInt8 32) (h : RegistryHost)
    (filePath : Path) (t : RegistryHost) (file : List UInt8) (m : ModelRegistry.ModelMetadata) :
    Prop where
  described : Described a sha256 h filePath file m
  size : m.fileSizeBytes = UInt64.ofNat file.length
  registry : t.registry = h.registry
  registering : t.registering = h.registering ++ [m]
  fs : (h.fs.pathExists m.filePath ∧ t.fs = h.fs) ∨
    ¬ h.fs.pathExists m.filePath ∧ t.fs.read m.filePath = some file ∧
      ∀ q, q ≠ m.filePath → t.fs.nodes.lookup q = h.fs.nodes.lookup q

/-- **A registration that does not break off does all of it or nothing.** -/
theorem register_step {filePath : Path} {name : String} {fault : Option Fault}
    {registeredAt lastAccessed : DateTime} (hfault : ∀ n, fault ≠ some (.writing n))
    (he : h.step a sha256 (.registerModel filePath name fault registeredAt lastAccessed) =
      some t) : t = h ∨ ∃ file m, Registered a sha256 h filePath t file m := by
  simp only [step] at he
  obtain ⟨file, m, hm, hregister⟩ | ⟨hno, result, hresult, hregister⟩ :=
    @registerModel_cases a sha256 h filePath name fault registeredAt lastAccessed
  · by_cases hexists : h.fs.pathExists m.filePath
    · rw [if_pos hexists] at hregister
      simp only [hregister] at he
      cases he
      exact .inr ⟨file, m, hm, size_of_registerModel hm.read hregister, rfl, rfl,
        .inl ⟨hexists, rfl⟩⟩
    · rw [if_neg hexists] at hregister
      cases hcopy : (h.fs.copy filePath m.filePath fault).1 with
      | true =>
        rw [hcopy, if_pos rfl] at hregister
        simp only [hregister] at he
        cases he
        refine .inr ⟨file, m, hm, size_of_registerModel hm.read hregister, rfl, rfl,
          .inr ⟨hexists, ?_, fun q hq => FileSystem.lookup_copy hq⟩⟩
        refine FileSystem.read_of_copy ?_ hcopy hm.read
        rintro rfl
        exact hexists (FileSystem.pathExists_of_read hm.read)
      | false =>
        rw [hcopy, FileSystem.copy_failed hfault hcopy] at hregister
        simp only [hregister] at he
        cases he
        exact .inl rfl
  · simp only [hregister] at he
    cases result with
    | ok m => exact absurd rfl (hresult m)
    | err e =>
      cases he
      exact .inl rfl
    | panic =>
      cases he
      exact .inl rfl

/-! ## What a step does to the cache -/

namespace Accounted

theorem register (hs : Set.InjOn (idDigits sha256) files) (ha : Accounted a sha256 files cacheDir h)
    {filePath : Path} {file : List UInt8} {m : ModelRegistry.ModelMetadata} (hfile : file ∈ files)
    (hr : Registered a sha256 h filePath t file m) (hn : Named cacheDir t) :
    Accounted a sha256 files cacheDir t := by
  have hm : Has t m := .inr (by rw [hr.registering]; simp)
  have hnamed := hn.wellNamed hm
  have hmade : m.MadeOf a sha256 file := ⟨hr.described.checksum, hr.described.architecture⟩
  have hhas {m' : ModelRegistry.ModelMetadata} : Has t m' ↔ Has h m' ∨ m' = m := by
    unfold Has
    rw [hr.registry, hr.registering, List.mem_append, List.mem_singleton, or_assoc]
  have hfs : t.fs.read m.filePath = some file ∧
      ∀ q, q ≠ m.filePath → t.fs.nodes.lookup q = h.fs.nodes.lookup q := by
    obtain ⟨hexists, hfs⟩ | ⟨-, hfs⟩ := hr.fs
    · rw [hfs]
      refine ⟨?_, fun q _ => rfl⟩
      have hunder : cacheDir <+: m.filePath := hnamed.filePath ▸ List.prefix_append _ _
      obtain ⟨-, hlen⟩ | ⟨m', hm', hpath⟩ := ha.owned m.filePath hunder hexists
      · rw [length_filePath hnamed] at hlen
        omega
      · obtain ⟨file', hstored⟩ := ha.stored m' hm'
        obtain rfl := file_eq hs (ha.named.wellNamed hm') hnamed hstored.madeOf hmade hstored.mem
          hfile hpath
        rw [← hpath, hstored.read]
    · exact hfs
  obtain ⟨hread, hkeep⟩ := hfs
  refine ⟨hn, fun m' hm' => ?_, fun p hp hexists => ?_⟩
  · obtain hm' | rfl := hhas.1 hm'
    · obtain ⟨file', hstored⟩ := ha.stored m' hm'
      refine ⟨file', hstored.mem, ?_, hstored.madeOf, hstored.size⟩
      by_cases hpath : m'.filePath = m.filePath
      · obtain rfl := file_eq hs (ha.named.wellNamed hm') hnamed hstored.madeOf hmade hstored.mem
          hfile hpath
        rw [hpath, hread]
      · rw [read_congr (hkeep _ hpath), hstored.read]
    · exact ⟨file, hfile, hread, hmade, hr.size⟩
  · by_cases hpath : p = m.filePath
    · exact .inr ⟨m, hm, hpath.symm⟩
    · have hlookup := hkeep p hpath
      rw [FileSystem.pathExists_iff, hlookup, ← FileSystem.pathExists_iff] at hexists
      unfold FileSystem.isDir
      rw [hlookup]
      refine (ha.owned p hp hexists).imp_right fun hm' => ?_
      obtain ⟨m', hm', hpath'⟩ := hm'
      exact ⟨m', hhas.2 (.inl hm'), hpath'⟩

theorem insert (hs : Set.InjOn (idDigits sha256) files) (ha : Accounted a sha256 files cacheDir h)
    {i : Nat} {m : ModelRegistry.ModelMetadata} (hget : h.registering[i]? = some m)
    (ht : t = { h with
      registry := h.registry.insertModel m, registering := h.registering.eraseIdx i })
    (hn : Named cacheDir t) : Accounted a sha256 files cacheDir t := by
  subst ht
  have hm : Has h m := .inr (List.mem_of_getElem? hget)
  refine ⟨hn, fun m' hm' => ha.stored m' ?_, fun p hp hexists => ?_⟩
  · obtain ⟨id, hlookup⟩ | hwait := has_iff.1 hm'
    · by_cases hid : id = m.modelId
      · subst hid
        cases (lookup_insertModel h.registry m).symm.trans hlookup
        exact hm
      · exact has_iff.2 (.inl ⟨id, (AList.lookup_insert_ne hid).symm.trans hlookup⟩)
    · exact .inr ((List.eraseIdx_sublist _ _).subset hwait)
  · refine (ha.owned p hp hexists).imp_right fun hm' => ?_
    obtain ⟨m', hm', rfl⟩ := hm'
    -- a model that is replaced has the path of the new one
    have hnew : Has { h with
        registry := h.registry.insertModel m, registering := h.registering.eraseIdx i } m :=
      has_iff.2 (.inl ⟨_, lookup_insertModel h.registry m⟩)
    obtain ⟨id, hlookup⟩ | hwait := has_iff.1 hm'
    · by_cases hid : id = m.modelId
      · refine ⟨m, hnew, (ha.filePath_eq_iff hs hm hm').2 ?_⟩
        rw [(ha.named.listed id m' hlookup).2, hid]
      · exact ⟨m', has_iff.2 (.inl ⟨id, (AList.lookup_insert_ne hid).trans hlookup⟩), rfl⟩
    · obtain ⟨j, hj⟩ := List.mem_iff_getElem?.1 hwait
      by_cases hji : j = i
      · subst hji
        cases hget.symm.trans hj
        exact ⟨m, hnew, rfl⟩
      · exact ⟨m', .inr (List.mem_eraseIdx_iff_getElem?.2 ⟨j, hji, hj⟩), rfl⟩

theorem update (ha : Accounted a sha256 files cacheDir h) {modelId : ModelId}
    {f : ModelRegistry.ModelMetadata → ModelRegistry.ModelMetadata} (hf : KeepsNames f)
    (hsize : ∀ m, (f m).fileSizeBytes = m.fileSizeBytes)
    (ht : t = { h with registry :=
      { h.registry with models := h.registry.models.modify modelId f } })
    (hn : Named cacheDir t) : Accounted a sha256 files cacheDir t := by
  subst ht
  refine ⟨hn, fun m' hm' => ?_, fun p hp hexists => ?_⟩
  · obtain ⟨id, hlookup⟩ | hwait := has_iff.1 hm'
    · obtain ⟨m, hold, rfl⟩ := HashMap.lookup_modify_eq_some hlookup
      obtain ⟨file, hstored⟩ := ha.stored m (has_iff.2 (.inl ⟨id, hold⟩))
      split
      · obtain ⟨-, hf₂, hf₃, hf₄⟩ := hf m
        refine ⟨file, hstored.mem, ?_, ⟨?_, ?_⟩, (hsize m).trans hstored.size⟩
        · rw [hf₄, hstored.read]
        · rw [hf₃, hstored.madeOf.checksum]
        · rw [hf₂, hstored.madeOf.architecture]
      · exact ⟨file, hstored⟩
    · exact ha.stored m' (.inr hwait)
  · refine (ha.owned p hp hexists).imp_right fun hm' => ?_
    obtain ⟨m, hm, rfl⟩ := hm'
    obtain ⟨id, hlookup⟩ | hwait := has_iff.1 hm
    · by_cases hid : id = modelId
      · subst hid
        refine ⟨f m, has_iff.2 (.inl ⟨id, ?_⟩), (hf m).2.2.2⟩
        rw [HashMap.lookup_modify, hlookup, Option.map_some]
      · exact ⟨m, has_iff.2 (.inl ⟨id, (HashMap.lookup_modify_ne hid _ _).trans hlookup⟩), rfl⟩
    · exact ⟨m, .inr hwait, rfl⟩

theorem unregister (hs : Set.InjOn (idDigits sha256) files)
    (ha : Accounted a sha256 files cacheDir h) {modelId : ModelId}
    {m : ModelRegistry.ModelMetadata} (hm : h.registry.models.lookup modelId = some m)
    (hwaiting : ∀ m' ∈ h.registering, m'.modelId ≠ modelId)
    (ht : t = { h with
      registry := { h.registry with models := h.registry.models.erase modelId }
      fs := (h.fs.removeFile m.filePath).getD h.fs })
    (hn : Named cacheDir t) : Accounted a sha256 files cacheDir t := by
  subst ht
  have hlisted : Has h m := has_iff.2 (.inl ⟨modelId, hm⟩)
  have hid := (ha.named.listed modelId m hm).2
  obtain ⟨file, hstored⟩ := ha.stored m hlisted
  obtain ⟨fs, hremove⟩ := FileSystem.exists_removeFile hstored.read
  -- the models that are left are those with another path
  have hhas {m' : ModelRegistry.ModelMetadata} : Has { h with
        registry := { h.registry with models := h.registry.models.erase modelId }
        fs := (h.fs.removeFile m.filePath).getD h.fs } m' ↔
      Has h m' ∧ m'.filePath ≠ m.filePath := by
    rw [has_iff]
    constructor
    · intro hm'
      obtain ⟨id, hlookup⟩ | hwait := hm'
      · have hne : id ≠ modelId := by
          rintro rfl
          rw [AList.lookup_erase] at hlookup
          cases hlookup
        rw [AList.lookup_erase_ne hne] at hlookup
        have hm' : Has h m' := has_iff.2 (.inl ⟨id, hlookup⟩)
        refine ⟨hm', fun hpath => hne ?_⟩
        rw [← (ha.named.listed id m' hlookup).2, (ha.filePath_eq_iff hs hm' hlisted).1 hpath, hid]
      · have hm' : Has h m' := .inr hwait
        refine ⟨hm', fun hpath => hwaiting m' hwait ?_⟩
        rw [(ha.filePath_eq_iff hs hm' hlisted).1 hpath, hid]
    · intro ⟨hm', hpath⟩
      refine (has_iff.1 hm').imp_left fun hm' => ?_
      obtain ⟨id, hlookup⟩ := hm'
      refine ⟨id, (AList.lookup_erase_ne ?_).trans hlookup⟩
      rintro rfl
      cases hlookup.symm.trans hm
      exact hpath rfl
  refine ⟨hn, fun m' hm' => ?_, fun p hp hexists => ?_⟩
  · obtain ⟨hm', hpath⟩ := hhas.1 hm'
    obtain ⟨file', hstored'⟩ := ha.stored m' hm'
    refine ⟨file', hstored'.mem, ?_, hstored'.madeOf, hstored'.size⟩
    exact (read_congr (FileSystem.lookup_getD_removeFile hpath)).trans hstored'.read
  · have hlookup := FileSystem.lookup_removeFile hremove (q := p)
    simp only [hremove, Option.getD_some] at hexists ⊢
    rw [FileSystem.pathExists_iff, hlookup] at hexists
    unfold FileSystem.isDir
    rw [hlookup]
    split at hexists
    · obtain ⟨node, hnode⟩ := hexists
      cases hnode
    · rename_i hne
      rw [if_neg hne]
      refine (ha.owned p hp (FileSystem.pathExists_iff.2 hexists)).imp_right fun hm' => ?_
      obtain ⟨m', hm', rfl⟩ := hm'
      rw [hremove] at hhas
      exact ⟨m', hhas.2 ⟨hm', hne⟩, rfl⟩

theorem others (ha : Accounted a sha256 files cacheDir h) {fs : FileSystem}
    (hsame : ∀ p, h.registry.cacheDir <+: p → h.fs.nodes.lookup p = fs.nodes.lookup p) :
    Accounted a sha256 files cacheDir { h with fs } := by
  rw [ha.named.directory] at hsame
  refine ⟨⟨ha.named.directory, ha.named.listed, ha.named.waiting⟩, fun m hm => ?_,
    fun p hp hexists => ?_⟩
  · obtain ⟨file, hstored⟩ := ha.stored m hm
    have hpath : cacheDir <+: m.filePath := by
      rw [(ha.named.wellNamed hm).filePath]
      exact List.prefix_append _ _
    refine ⟨file, hstored.mem, ?_, hstored.madeOf, hstored.size⟩
    exact (read_congr (hsame _ hpath).symm).trans hstored.read
  · rw [FileSystem.pathExists_iff, ← hsame p hp, ← FileSystem.pathExists_iff] at hexists
    show (FileSystem.isDir fs p ∧ _) ∨ _
    unfold FileSystem.isDir
    rw [← hsame p hp]
    exact ha.owned p hp hexists

/-- **A clean step keeps account of the cache.** -/
theorem next (hs : Set.InjOn (idDigits sha256) files) (ha : Accounted a sha256 files cacheDir h)
    {e : RegistryEvent} (hC : Clean files h e) (he : h.step a sha256 e = some t) :
    Accounted a sha256 files cacheDir t := by
  have hn := ha.named.next he
  have hkeep (hbook : e.isBookkeeping) : Accounted a sha256 files cacheDir t := by
    obtain rfl | ⟨modelId, f, hf, hsize, ht⟩ := bookkeeping_step hbook he
    · exact ha
    · exact ha.update hf hsize ht hn
  cases e with
  | registerModel filePath name fault registeredAt lastAccessed =>
    obtain ⟨hfiles, hfault⟩ := hC
    obtain rfl | ⟨file, m, hr⟩ := register_step hfault he
    · exact ha
    · exact ha.register hs (hfiles file hr.described.read) hr hn
  | insertModel i =>
    cases host_step he with
    | insert hget => exact ha.insert hs hget rfl hn
    | same hbook | update hbook => cases hbook
  | unregisterModel modelId fault =>
    obtain ⟨rfl, hwaiting⟩ := hC
    cases host_step he with
    | absent => exact ha
    | unregister hm => exact ha.unregister hs hm hwaiting rfl hn
    | same hbook | update hbook => cases hbook
  | others fs =>
    cases host_step he with
    | others hsame => exact ha.others hsame
    | same hbook | update hbook => cases hbook
  | getModel | markCached | unmarkCached => exact hkeep rfl

theorem new {fs : FileSystem} (hfs : OnlyDirectories fs cacheDir) :
    Accounted a sha256 files cacheDir (new fs cacheDir) where
  named := Named.new fs cacheDir
  stored := by
    intro m hm
    rcases hm with hm | hm
    · cases hm
    · cases hm
  owned := fun p hp hexists => .inl (hfs.new p hp hexists)

theorem owner (ha : Accounted a sha256 files cacheDir h) {p : Path} {contents : List UInt8}
    (hp : cacheDir <+: p) (hread : h.fs.read p = some contents) :
    ∃ m, Has h m ∧ m.filePath = p := by
  obtain ⟨hdir, -⟩ | hm := ha.owned p hp (FileSystem.pathExists_of_read hread)
  · unfold FileSystem.isDir at hdir
    unfold FileSystem.read at hread
    rw [of_decide_eq_true hdir] at hread
    cases hread
  · exact hm

/-- When no registration waits, the files in the cache are those of the listed models. -/
theorem filesUnder_perm (hs : Set.InjOn (idDigits sha256) files)
    (ha : Accounted a sha256 files cacheDir h) (hregistering : h.registering = []) :
    (h.fs.filesUnder cacheDir).Perm (h.registry.listModels.map (·.filePath)) := by
  have hhas {m : ModelRegistry.ModelMetadata} : Has h m ↔ m ∈ h.registry.listModels := by
    simp [Has, hregistering]
  refine FileSystem.filesUnder_perm ?_ fun p => ?_
  · unfold listModels
    rw [List.map_map]
    refine h.registry.models.nodupKeys.nodup.map_on fun e he e' he' hpath => ?_
    have hlookup := HashMap.mem_entries_iff.1 he
    have hlookup' := HashMap.mem_entries_iff.1 he'
    have hid := (ha.filePath_eq_iff hs (has_iff.2 (.inl ⟨e.1, hlookup⟩))
      (has_iff.2 (.inl ⟨e'.1, hlookup'⟩))).1 hpath
    rw [(ha.named.listed e.1 e.2 hlookup).2, (ha.named.listed e'.1 e'.2 hlookup').2] at hid
    exact Sigma.ext hid (heq_of_eq (Option.some.inj (hlookup.symm.trans (hid ▸ hlookup'))))
  · rw [List.mem_map]
    constructor
    · intro ⟨m, hm, hpath⟩
      obtain ⟨file, hstored⟩ := ha.stored m (hhas.2 hm)
      rw [← hpath]
      refine ⟨?_, file, hstored.read⟩
      rw [(ha.named.wellNamed (hhas.2 hm)).filePath]
      exact List.prefix_append _ _
    · intro ⟨hp, contents, hread⟩
      obtain ⟨m, hm, hpath⟩ := ha.owner hp hread
      exact ⟨m, hhas.1 hm, hpath⟩

theorem accounts (hs : Set.InjOn (idDigits sha256) files)
    (ha : Accounted a sha256 files cacheDir h) : Accounts sha256 h where
  owned := fun p contents hp hread => ha.owner (ha.named.directory ▸ hp) hread
  stored := by
    intro m hm
    obtain ⟨file, hstored⟩ := ha.stored m hm
    exact ⟨file, hstored.read, hstored.madeOf.checksum.symm, hstored.size⟩
  stats := by
    intro hregistering
    have hperm := ha.filesUnder_perm hs hregistering
    have hsize : ∀ m ∈ h.registry.listModels, m.fileSizeBytes =
        UInt64.ofNat ((h.fs.read m.filePath).getD []).length := by
      intro m hm
      obtain ⟨file, hstored⟩ := ha.stored m (.inl hm)
      rw [hstored.size, hstored.read, Option.getD_some]
    rw [ha.named.directory]
    constructor
    · rw [hperm.length_eq, List.length_map]
      exact (List.length_map _).symm
    · unfold FileSystem.usage getStats
      rw [(hperm.map _).sum_eq, List.map_map, List.map_congr_left hsize]
      exact sum_ofNat _ _

end Accounted

/-! ## Runs -/

/-- **The cache holds what the registry says**, in all states of a clean run. -/
theorem accounts_of_clean (hs : Set.InjOn (idDigits sha256) files) {fs : FileSystem}
    (hfs : OnlyDirectories fs cacheDir) {es : List RegistryEvent}
    (hes : Lts.Meets (step a sha256) (Clean files) (new fs cacheDir) es) :
    Lts.Always (step a sha256) (Accounts sha256) (new fs cacheDir) es := by
  have haccounted := Lts.always_of_meets (I := Accounted a sha256 files cacheDir)
    (fun _ _ _ ha hC he => ha.next hs hC he) (Accounted.new hfs) hes
  exact haccounted.imp fun h ha => ha.accounts hs

/-- Two models are registered, and one of them is unregistered. -/
theorem accounts_of_two : Lts.Always (step bareAllocator longSha256) (Accounts longSha256)
    (new longFs ["cache"])
    [.registerModel ["bare.gguf"] "bare" none ⟨0⟩ ⟨0⟩, .insertModel 0,
      .registerModel ["long.gguf"] "long" (some .opening) ⟨1⟩ ⟨1⟩,
      .registerModel ["long.gguf"] "long" none ⟨1⟩ ⟨1⟩, .insertModel 0,
      .unregisterModel "unknown-a4e5e156ddec27e2" false] := by
  have hs : Set.InjOn (idDigits longSha256) {bareModel, longModel} :=
    Set.injOn_pair.2 fun h => absurd h (by decide)
  have hfault (n : Nat) : none ≠ some (Fault.writing n) := by
    intro h
    cases h
  refine accounts_of_clean (a := bareAllocator) hs (by decide) fun t ht => ⟨⟨?_, hfault⟩,
    fun u hu => ⟨trivial, fun v hv => ⟨⟨?_, ?_⟩, fun w hw => ⟨⟨?_, hfault⟩, fun x hx => ⟨trivial,
      fun y hy => ⟨⟨rfl, ?_⟩, trivial⟩⟩⟩⟩⟩⟩
  · intro file hread
    cases hread
    exact .inl rfl
  · intro file hread
    cases ht
    cases hu
    cases hread
    exact .inr rfl
  · intro n h
    cases h
  · intro file hread
    cases ht
    cases hu
    cases hv
    cases hread
    exact .inr rfl
  · intro m hm
    cases ht
    cases hu
    cases hv
    cases hw
    cases hx
    cases hm

end TensorGrid.RegistryHost
