import TensorGrid.ModelRegistry.Model

/-!
# Names in the cache

A model's file lies in the cache under all 64 digits of its checksum, in the directory of the first
two; its id ends in the first 16. `describe_of_parse` says so of one registration, `host_step` is
all that a step can do to the registry and the file system, and `Named.reachable` carries the names
through every run.

`getCachedPath` takes what comes after the last hyphen of an id for the checksum. It panics if that
cannot be cut after two bytes, and for a registered model the 16 digits give another path than the
64: `cachedPath_iff`.
-/

namespace TensorGrid

open Rust

/-! ## The names of one model -/

/-- The names of a model with this directory for a cache. -/
structure ModelRegistry.ModelMetadata.WellNamed (m : ModelRegistry.ModelMetadata)
    (cacheDir : Path) : Prop where
  digest : ∃ d : Vector UInt8 32, m.checksum = Hex.encode d.toList
  modelId : m.modelId = m.architecture ++ "-" ++ String.ofList (m.checksum.toList.take 16)
  filePath : m.filePath = cacheDir ++ [String.ofList (m.checksum.toList.take 2), m.checksum]

namespace ModelRegistry

/-- A text of hexadecimal digits. -/
def IsDigits (s : String) : Prop := ∀ c ∈ s.toList, ∃ n < 16, c = Nat.digitChar n

theorem IsDigits.ne {s : String} (h : IsDigits s) {c : Char} (hc : ∀ n < 16, Nat.digitChar n ≠ c) :
    c ∉ s.toList := by
  intro hmem
  obtain ⟨n, hn, rfl⟩ := h _ hmem
  exact hc n hn rfl

theorem IsDigits.take {s : String} (h : IsDigits s) (n : Nat) :
    IsDigits (String.ofList (s.toList.take n)) := by
  intro c hc
  rw [String.toList_ofList] at hc
  exact h c (List.mem_of_mem_take hc)

theorem sliceTo_of_digits {s : String} (h : IsDigits s) {n : Nat} (hn : n ≤ s.toList.length) :
    (sliceTo s n : Outcome RegistryError String) = .ok (String.ofList (s.toList.take n)) := by
  have hascii : ∀ n < 16, (Nat.digitChar n).utf8Size = 1 := by decide
  refine sliceTo_of_ascii (fun c hc => ?_) hn
  obtain ⟨k, hk, rfl⟩ := h c hc
  exact hascii k hk

/-- A text of digits is one component of a path. -/
theorem join_of_digits (p : Path) {s : String} (h : IsDigits s) (hlen : 0 < s.toList.length) :
    p.join s = p ++ [s] := by
  refine Path.join_of_component p (h.ne (by decide)) (List.ne_nil_of_length_pos hlen) fun hs => ?_
  exact h.ne (c := '.') (by decide) (by simp [hs])

theorem cachePath_of_digits (r : ModelRegistry) {s : String} (h : IsDigits s)
    (hlen : 2 ≤ s.toList.length) :
    r.cachePath s = .ok (r.cacheDir ++ [String.ofList (s.toList.take 2), s]) := by
  have htake : 0 < (String.ofList (s.toList.take 2)).toList.length := by
    rw [String.toList_ofList, List.length_take]
    omega
  unfold cachePath
  rw [sliceTo_of_digits h hlen, Outcome.ok_bind, join_of_digits _ (h.take 2) htake,
    join_of_digits _ h (by omega)]
  simp

theorem isDigits_encode (bs : List UInt8) : IsDigits (Hex.encode bs) := by
  unfold IsDigits
  rw [Hex.toList_encode]
  exact fun c => Hex.mem_flatMap_digits

theorem length_checksum (d : Vector UInt8 32) : (Hex.encode d.toList).toList.length = 64 := by
  rw [Hex.toList_encode, Hex.length_flatMap_digits]
  simp

section
variable {a : Allocator} {file : List UInt8}

/-- **A file that can be parsed can be described.** -/
theorem describe_of_parse (sha256 : List UInt8 → Vector UInt8 32) (r : ModelRegistry)
    {model : GgufModel} (h : GgufParser.parse a file = .ok model) (name : String)
    (registeredAt lastAccessed : DateTime) :
    ∃ m, describe a sha256 r file name registeredAt lastAccessed = .ok m ∧
      m.WellNamed r.cacheDir ∧ m.checksum = calculateChecksum sha256 file := by
  have hdigits : IsDigits (calculateChecksum sha256 file) := isDigits_encode _
  have hlen : (calculateChecksum sha256 file).toList.length = 64 := length_checksum _
  unfold describe
  rw [h]
  simp only [sliceTo_of_digits hdigits (show 16 ≤ _ by omega),
    cachePath_of_digits r hdigits (show 2 ≤ _ by omega), Outcome.ok_bind, Outcome.pure_eq]
  exact ⟨_, rfl, ⟨⟨sha256 file, rfl⟩, rfl, rfl⟩, rfl⟩

/-- The architecture that a file's model is registered with. -/
def architectureOf (a : Allocator) (file : List UInt8) : String :=
  match GgufParser.parse a file with
  | .ok model => (GgufParser.getArchitecture model).getD "unknown"
  | _ => "unknown"

/-- The architecture is that of the file, and no node has the model yet. -/
theorem describe_entry {sha256 : List UInt8 → Vector UInt8 32} {r : ModelRegistry} {name : String}
    {registeredAt lastAccessed : DateTime} {m : ModelMetadata}
    (h : describe a sha256 r file name registeredAt lastAccessed = .ok m) :
    m.architecture = architectureOf a file ∧ m.cachedNodes = [] := by
  unfold describe at h
  unfold architectureOf
  cases hparse : GgufParser.parse a file with
  | ok model =>
    rw [hparse] at h
    obtain ⟨digits, -, h⟩ := Outcome.bind_ok.1 h
    obtain ⟨cachedPath, -, h⟩ := Outcome.bind_ok.1 h
    cases h
    exact ⟨rfl, rfl⟩
  | err e => simp [hparse] at h
  | panic => simp [hparse] at h

end

theorem lookup_insertModel (r : ModelRegistry) (m : ModelMetadata) :
    (r.insertModel m).models.lookup m.modelId = some m :=
  AList.lookup_insert r.models

end ModelRegistry

/-- The call changes at most the nodes and the last access of a model. -/
def RegistryEvent.isBookkeeping : RegistryEvent → Bool
  | .getModel _ _ | .markCached _ _ | .unmarkCached _ _ => true
  | .registerModel _ _ _ _ _ | .insertModel _ | .unregisterModel _ _ | .others _ => false

namespace RegistryHost

open ModelRegistry

variable {a : Allocator} {sha256 : List UInt8 → Vector UInt8 32}

/-! ## All that a step can do -/

theorem sameUnder_iff {dir : Path} {fs fs' : FileSystem} :
    sameUnder dir fs fs' ↔ ∀ p, dir <+: p → fs.nodes.lookup p = fs'.nodes.lookup p := by
  unfold sameUnder
  rw [List.all_eq_true]
  constructor
  · intro h p hp
    by_cases hmem : p ∈ fs.nodes.keys ++ fs'.nodes.keys
    · simpa [List.isPrefixOf_iff_prefix.2 hp] using h p hmem
    · rw [List.mem_append, not_or] at hmem
      rw [AList.lookup_eq_none.2 hmem.1, AList.lookup_eq_none.2 hmem.2]
  · intro h p _
    by_cases hp : dir <+: p
    · simp [h p hp]
    · simp [Bool.eq_false_iff.2 (mt List.isPrefixOf_iff_prefix.1 hp)]

/-- The change leaves the names of a model. -/
def KeepsNames (f : ModelRegistry.ModelMetadata → ModelRegistry.ModelMetadata) : Prop :=
  ∀ m, (f m).modelId = m.modelId ∧ (f m).architecture = m.architecture ∧
    (f m).checksum = m.checksum ∧ (f m).filePath = m.filePath

/-- What a registration has found out about the file it was given. -/
structure Described (a : Allocator) (sha256 : List UInt8 → Vector UInt8 32) (h : RegistryHost)
    (filePath : Path) (file : List UInt8) (m : ModelRegistry.ModelMetadata) : Prop where
  read : h.fs.read filePath = some file
  parsed : ∃ model, GgufParser.parse a file = .ok model
  wellNamed : m.WellNamed h.registry.cacheDir
  checksum : m.checksum = calculateChecksum sha256 file
  architecture : m.architecture = architectureOf a file
  cachedNodes : m.cachedNodes = []

/-- **All that a step can do to the registry and the file system.** -/
inductive HostStep (a : Allocator) (sha256 : List UInt8 → Vector UInt8 32) (h : RegistryHost) :
    RegistryEvent → RegistryHost → Prop
  /-- The cache has something at the model's path. -/
  | found {filePath : Path} {file : List UInt8} {m : ModelRegistry.ModelMetadata} {name : String}
      {fault : Option Fault} {registeredAt lastAccessed : DateTime}
      (hm : Described a sha256 h filePath file m) (hexists : h.fs.pathExists m.filePath) :
    HostStep a sha256 h (.registerModel filePath name fault registeredAt lastAccessed)
      { h with registering := h.registering ++ [m] }
  | copied {filePath : Path} {file : List UInt8} {m : ModelRegistry.ModelMetadata} {name : String}
      {fault : Option Fault} {registeredAt lastAccessed : DateTime}
      (hm : Described a sha256 h filePath file m) (hexists : ¬ h.fs.pathExists m.filePath)
      (hcopy : (h.fs.copy filePath m.filePath fault).1 = true) :
    HostStep a sha256 h (.registerModel filePath name fault registeredAt lastAccessed)
      { h with
        fs := (h.fs.copy filePath m.filePath fault).2, registering := h.registering ++ [m] }
  /-- The copy fails. -/
  | failed {filePath : Path} {file : List UInt8} {m : ModelRegistry.ModelMetadata} {name : String}
      {fault : Option Fault} {registeredAt lastAccessed : DateTime}
      (hm : Described a sha256 h filePath file m) (hexists : ¬ h.fs.pathExists m.filePath) :
    HostStep a sha256 h (.registerModel filePath name fault registeredAt lastAccessed)
      { h with fs := (h.fs.copy filePath m.filePath fault).2 }
  /-- There is no such file, or it cannot be parsed. -/
  | refused {filePath : Path} {name : String} {fault : Option Fault}
      {registeredAt lastAccessed : DateTime}
      (hno : ∀ file, h.fs.read filePath = some file →
        ∀ model, GgufParser.parse a file ≠ .ok model) :
    HostStep a sha256 h (.registerModel filePath name fault registeredAt lastAccessed) h
  | insert {i : Nat} {m : ModelRegistry.ModelMetadata} (hget : h.registering[i]? = some m) :
    HostStep a sha256 h (.insertModel i)
      { h with registry := h.registry.insertModel m, registering := h.registering.eraseIdx i }
  | same {e : RegistryEvent} (he : e.isBookkeeping) : HostStep a sha256 h e h
  | update {e : RegistryEvent} {modelId : ModelId}
      {f : ModelRegistry.ModelMetadata → ModelRegistry.ModelMetadata} (he : e.isBookkeeping)
      (hf : KeepsNames f) :
    HostStep a sha256 h e
      { h with registry := { h.registry with models := h.registry.models.modify modelId f } }
  | absent {modelId : ModelId} {fault : Bool} (hno : h.registry.models.lookup modelId = none) :
    HostStep a sha256 h (.unregisterModel modelId fault) h
  | unregister {modelId : ModelId} {m : ModelRegistry.ModelMetadata} {fault : Bool}
      (hm : h.registry.models.lookup modelId = some m) :
    HostStep a sha256 h (.unregisterModel modelId fault)
      { h with
        registry := { h.registry with models := h.registry.models.erase modelId }
        fs := if fault then h.fs else (h.fs.removeFile m.filePath).getD h.fs }
  | others {fs : FileSystem}
      (hsame : ∀ p, h.registry.cacheDir <+: p → h.fs.nodes.lookup p = fs.nodes.lookup p) :
    HostStep a sha256 h (.others fs) { h with fs }

/-- What a registration comes to before it waits for the lock. -/
theorem registerModel_cases (h : RegistryHost) (filePath : Path) (name : String)
    (fault : Option Fault) (registeredAt lastAccessed : DateTime) :
    (∃ file m, Described a sha256 h filePath file m ∧
      h.registry.registerModel a sha256 h.fs filePath name fault registeredAt lastAccessed =
        if h.fs.pathExists m.filePath then (.ok m, h.fs)
        else (if (h.fs.copy filePath m.filePath fault).1 then .ok m else .err .io,
          (h.fs.copy filePath m.filePath fault).2)) ∨
      (∀ file, h.fs.read filePath = some file → ∀ model, GgufParser.parse a file ≠ .ok model) ∧
        ∃ result, (∀ m, result ≠ .ok m) ∧
          h.registry.registerModel a sha256 h.fs filePath name fault registeredAt lastAccessed =
            (result, h.fs) := by
  unfold registerModel
  cases hread : h.fs.read filePath with
  | none => exact .inr ⟨by simp, .err .io, by simp, rfl⟩
  | some file =>
    cases hparse : GgufParser.parse a file with
    | ok model =>
      obtain ⟨m, hdesc, hnamed, hchecksum⟩ :=
        describe_of_parse sha256 h.registry hparse name registeredAt lastAccessed
      obtain ⟨harchitecture, hnodes⟩ := describe_entry hdesc
      refine .inl ⟨file, m, ⟨hread, ⟨model, hparse⟩, hnamed, hchecksum, harchitecture, hnodes⟩, ?_⟩
      simp only [hdesc]
    | err e => exact .inr ⟨by simp [hparse], .err (.parse e), by simp, by simp [describe, hparse]⟩
    | panic => exact .inr ⟨by simp [hparse], .panic, by simp, by simp [describe, hparse]⟩

theorem host_step {h t : RegistryHost} {e : RegistryEvent} (he : h.step a sha256 e = some t) :
    HostStep a sha256 h e t := by
  cases e with
  | registerModel filePath name fault registeredAt lastAccessed =>
    simp only [step] at he
    obtain ⟨file, m, hm, hregister⟩ | ⟨hno, result, hresult, hregister⟩ :=
      @registerModel_cases a sha256 h filePath name fault registeredAt lastAccessed
    · rw [hregister] at he
      by_cases hexists : h.fs.pathExists m.filePath
      · simp only [if_pos hexists] at he
        cases he
        exact .found hm hexists
      · simp only [if_neg hexists] at he
        cases hcopy : (h.fs.copy filePath m.filePath fault).1 with
        | true =>
          simp only [hcopy, if_true] at he
          cases he
          exact .copied hm hexists hcopy
        | false =>
          simp only [hcopy] at he
          cases he
          exact .failed hm hexists
    · rw [hregister] at he
      cases result with
      | ok m => exact absurd rfl (hresult m)
      | err e =>
        cases he
        exact .refused hno
      | panic =>
        cases he
        exact .refused hno
  | insertModel i =>
    simp only [step] at he
    split at he
    · cases he
    · rename_i m hget
      cases he
      exact .insert hget
  | getModel modelId now =>
    cases he
    exact .update rfl fun m => ⟨rfl, rfl, rfl, rfl⟩
  | markCached modelId nodeId =>
    simp only [step, markCached] at he
    split at he
    · cases he
      refine .update rfl fun m => ?_
      split <;> exact ⟨rfl, rfl, rfl, rfl⟩
    · cases he
      exact .same rfl
  | unmarkCached modelId nodeId =>
    simp only [step, unmarkCached] at he
    split at he
    · cases he
      exact .update rfl fun m => ⟨rfl, rfl, rfl, rfl⟩
    · cases he
      exact .same rfl
  | unregisterModel modelId fault =>
    simp only [step, unregisterModel] at he
    cases hm : h.registry.models.lookup modelId with
    | none =>
      simp only [hm] at he
      cases he
      exact .absent hm
    | some m =>
      simp only [hm] at he
      cases he
      exact .unregister hm
  | others fs =>
    simp only [step] at he
    split at he
    · rename_i hsame
      cases he
      exact .others (sameUnder_iff.1 hsame)
    · cases he

/-! ## Runs -/

/-- `P` is true of the listed models with their ids, `Q` of those that wait. -/
structure Models (P : ModelId → ModelRegistry.ModelMetadata → Prop)
    (Q : ModelRegistry.ModelMetadata → Prop) (h : RegistryHost) : Prop where
  listed : ∀ id m, h.registry.models.lookup id = some m → P id m
  waiting : ∀ m ∈ h.registering, Q m

section
variable {P : ModelId → ModelRegistry.ModelMetadata → Prop}
  {Q : ModelRegistry.ModelMetadata → Prop}

theorem Models.new (fs : FileSystem) (cacheDir : Path) : Models P Q (new fs cacheDir) where
  listed := by
    intro id m hm
    cases hm
  waiting := by
    intro m hm
    cases hm

theorem Models.wait {h : RegistryHost} (hm : Models P Q h) {m : ModelRegistry.ModelMetadata}
    (hq : Q m) : ∀ m' ∈ h.registering ++ [m], Q m' := by
  intro m' hm'
  rcases List.mem_append.1 hm' with hm' | hm'
  · exact hm.waiting m' hm'
  · rw [List.mem_singleton.1 hm']
    exact hq

/-- A fact about models is kept if it is true of a new one and stays with its names. -/
theorem Models.next {h t : RegistryHost} {e : RegistryEvent} (hm : Models P Q h)
    (hnew : ∀ filePath name fault registeredAt lastAccessed file m,
      e = .registerModel filePath name fault registeredAt lastAccessed →
      Described a sha256 h filePath file m → Q m)
    (hinsert : ∀ m, Q m → P m.modelId m)
    (hupdate : ∀ id m f, KeepsNames f → P id m → P id (f m))
    (he : h.step a sha256 e = some t) : Models P Q t := by
  cases host_step he with
  | found hdesc hexists => exact ⟨hm.listed, hm.wait (hnew _ _ _ _ _ _ _ rfl hdesc)⟩
  | copied hdesc hexists hcopy => exact ⟨hm.listed, hm.wait (hnew _ _ _ _ _ _ _ rfl hdesc)⟩
  | failed hdesc hexists => exact ⟨hm.listed, hm.waiting⟩
  | refused | same | absent => exact hm
  | @insert i m hget =>
    refine ⟨fun id m' hm' => ?_, fun m' hm' => ?_⟩
    · by_cases hid : id = m.modelId
      · subst hid
        cases (lookup_insertModel h.registry m).symm.trans hm'
        exact hinsert m (hm.waiting m (List.mem_of_getElem? hget))
      · exact hm.listed id m' ((AList.lookup_insert_ne hid).symm.trans hm')
    · exact hm.waiting m' ((List.eraseIdx_sublist _ _).subset hm')
  | @update _ modelId f _ hf =>
    refine ⟨fun id m' hm' => ?_, hm.waiting⟩
    obtain ⟨m, hlookup, rfl⟩ := HashMap.lookup_modify_eq_some hm'
    split
    · exact hupdate id m f hf (hm.listed id m hlookup)
    · exact hm.listed id m hlookup
  | @unregister modelId m fault hlookup =>
    refine ⟨fun id m' hm' => ?_, hm.waiting⟩
    by_cases hid : id = modelId
    · rw [hid, AList.lookup_erase] at hm'
      cases hm'
    · rw [AList.lookup_erase_ne hid] at hm'
      exact hm.listed id m' hm'
  | others hsame => exact ⟨hm.listed, hm.waiting⟩

end

/-- The cache directory is still this one, and every model has the names it should, the waiting ones
included. -/
structure Named (cacheDir : Path) (h : RegistryHost) : Prop where
  directory : h.registry.cacheDir = cacheDir
  listed : ∀ id m, h.registry.models.lookup id = some m → m.WellNamed cacheDir ∧ m.modelId = id
  waiting : ∀ m ∈ h.registering, m.WellNamed cacheDir

theorem cacheDir_step {h t : RegistryHost} {e : RegistryEvent}
    (he : h.step a sha256 e = some t) : t.registry.cacheDir = h.registry.cacheDir := by
  cases host_step he <;> rfl

theorem Named.next {cacheDir : Path} {h t : RegistryHost} {e : RegistryEvent}
    (hn : Named cacheDir h) (he : h.step a sha256 e = some t) : Named cacheDir t := by
  have hmodels : Models (fun id m => m.WellNamed cacheDir ∧ m.modelId = id)
      (·.WellNamed cacheDir) t := by
    refine Models.next ⟨hn.listed, hn.waiting⟩ (fun _ _ _ _ _ _ m _ hdesc => ?_)
      (fun m hm => ⟨hm, rfl⟩) (fun id m f hf hm => ?_) he
    · rw [← hn.directory]
      exact hdesc.wellNamed
    · obtain ⟨hnamed, hmodel⟩ := hm
      obtain ⟨hf₁, hf₂, hf₃, hf₄⟩ := hf m
      refine ⟨⟨?_, ?_, ?_⟩, hf₁.trans hmodel⟩
      · rw [hf₃]
        exact hnamed.digest
      · rw [hf₁, hf₂, hf₃]
        exact hnamed.modelId
      · rw [hf₃, hf₄]
        exact hnamed.filePath
  exact ⟨(cacheDir_step he).trans hn.directory, hmodels.listed, hmodels.waiting⟩

theorem Named.new (fs : FileSystem) (cacheDir : Path) : Named cacheDir (new fs cacheDir) where
  directory := rfl
  listed := by
    intro id m hm
    cases hm
  waiting := by
    intro m hm
    cases hm

theorem Named.reachable {fs : FileSystem} {cacheDir : Path} {h : RegistryHost}
    (hreach : Lts.Reachable (step a sha256) (RegistryHost.new fs cacheDir) h) :
    Named cacheDir h :=
  hreach.inv (Named.new fs cacheDir) fun _ _ _ hn he => hn.next he

/-! ## The advertised path -/

/-- `get_cached_path` returns for the id, and what it returns for a model is the model's path. -/
def AdvertisesPath (r : ModelRegistry) (modelId : ModelId) : Prop :=
  ∃ path, r.getCachedPath modelId = .ok path ∧
    ∀ m, r.models.lookup modelId = some m → path = some m.filePath

/-- A registered model's id leads to a path that ends in 16 digits. -/
theorem getCachedPath_of_wellNamed (r : ModelRegistry) {m : ModelRegistry.ModelMetadata}
    {cacheDir : Path} (h : m.WellNamed cacheDir) : r.getCachedPath m.modelId =
      .ok (some (r.cacheDir ++ [String.ofList (m.checksum.toList.take 2),
        String.ofList (m.checksum.toList.take 16)])) := by
  obtain ⟨d, hd⟩ := h.digest
  have hdigits : IsDigits m.checksum := hd ▸ isDigits_encode _
  have hlen : m.checksum.toList.length = 64 := hd ▸ length_checksum d
  have hlast : lastPart '-' m.modelId = some (String.ofList (m.checksum.toList.take 16)) := by
    rw [h.modelId]
    exact lastPart_append ((hdigits.take 16).ne (by decide))
  unfold getCachedPath
  rw [hlast]
  simp only
  rw [cachePath_of_digits r (hdigits.take 16) (by simp; omega), Outcome.ok_bind]
  simp [List.take_take]

/-- **When the advertised path is the real one**: for no registered model, and for the other ids
that can be cut two bytes after their last hyphen. -/
theorem cachedPath_iff {fs : FileSystem} {cacheDir : Path} {h : RegistryHost}
    (hreach : Lts.Reachable (step a sha256) (RegistryHost.new fs cacheDir) h) (modelId : ModelId) :
    AdvertisesPath h.registry modelId ↔ modelId ∉ h.registry.models ∧
      (lastPart '-' modelId).any (isCharBoundary · 2) := by
  constructor
  · rintro ⟨path, hpath, hall⟩
    constructor
    · intro hmem
      obtain ⟨m, hm⟩ := HashMap.lookup_of_mem hmem
      obtain ⟨hnamed, rfl⟩ := (Named.reachable hreach).listed modelId m hm
      obtain ⟨d, hd⟩ := hnamed.digest
      have hlen : m.checksum.toList.length = 64 := hd ▸ length_checksum d
      rw [getCachedPath_of_wellNamed h.registry hnamed, hall m hm, hnamed.filePath,
        (Named.reachable hreach).directory] at hpath
      simp only [Outcome.ok.injEq, Option.some.injEq, List.append_cancel_left_eq,
        List.cons.injEq, true_and, and_true] at hpath
      have := congrArg (fun s => s.toList.length) hpath
      simp [hlen] at this
    · obtain ⟨checksum, hlast⟩ := exists_lastPart '-' modelId
      unfold getCachedPath cachePath at hpath
      rw [hlast] at hpath ⊢
      obtain ⟨cached, hcached, -⟩ := Outcome.bind_ok.1 hpath
      obtain ⟨digits, hdigits, -⟩ := Outcome.bind_ok.1 hcached
      exact sliceTo_ok_iff.1 ⟨digits, hdigits⟩
  · rintro ⟨hmem, hslice⟩
    obtain ⟨checksum, hlast⟩ := exists_lastPart '-' modelId
    rw [hlast] at hslice
    obtain ⟨digits, hdigits⟩ := (sliceTo_ok_iff (ε := RegistryError)).2 hslice
    refine ⟨some ((h.registry.cacheDir.join digits).join checksum), ?_, fun m hm => ?_⟩
    · unfold getCachedPath cachePath
      rw [hlast]
      simp only [hdigits, Outcome.ok_bind, Outcome.pure_eq]
    · exact absurd (HashMap.mem_of_lookup hm) hmem

theorem cachedPath_of_new : AdvertisesPath (new (bareFs []) ["cache"]).registry "llama-ab12" :=
  (@cachedPath_iff bareAllocator (fun _ => bareDigest) _ _ _ (.refl _) "llama-ab12").2 (by decide)

/-- A registered model, and an id that nothing follows. -/
theorem cachedPath_of_registered : ∃ h : RegistryHost,
    Lts.Reachable (step bareAllocator fun _ => bareDigest)
      (new (bareFs [["cache", "a4"]]) ["cache"]) h ∧
    "unknown-a4e5e156ddec27e2" ∈ h.registry.models ∧
    ¬ AdvertisesPath h.registry "unknown-a4e5e156ddec27e2" ∧
    h.registry.getCachedPath "" = .panic := by
  refine ⟨_, ⟨[.registerModel ["bare.gguf"] "bare" none ⟨0⟩ ⟨0⟩, .insertModel 0], rfl⟩, by decide,
    ?_, rfl⟩
  rintro ⟨path, hpath, hall⟩
  cases hpath
  exact absurd (hall _ rfl) (by decide)

end RegistryHost

end TensorGrid
