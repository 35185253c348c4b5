import TensorGrid.ModelRegistry.Paths

/-!
# Registering a model again

A second registration of a file comes to the same id, finds the copy of the first in the cache, and
puts a new entry over the old one. The new entry has no nodes. What `mark_cached` has recorded is
lost, whatever the nodes are, so that the registration leaves a model as it was exactly if no node
had it (`keepsEntry_iff`, over runs `reregistration_iff`). There is no second entry in any case
(`mem_insertModel`).
-/

namespace TensorGrid.RegistryHost

open Rust ModelRegistry

section
variable (a : Allocator) (sha256 : List UInt8 → Vector UInt8 32)

/-- The step belongs to a registration of this file. -/
def IsRegistrationOf (file : List UInt8) (h : RegistryHost) : RegistryEvent → Prop
  | .registerModel filePath _ _ _ _ => h.fs.read filePath = some file
  | .insertModel i => ∃ m, h.registering[i]? = some m ∧ m.MadeOf a sha256 file
  | .getModel _ _ | .markCached _ _ | .unmarkCached _ _ | .unregisterModel _ _ | .others _ => False

/-- If the file is registered already, its registration leaves its model on the nodes that it is on,
and adds no entry. -/
def KeepsEntry (h : RegistryHost) (e : RegistryEvent) : Prop :=
  ∀ file id m t, IsRegistrationOf a sha256 file h e → h.registry.models.lookup id = some m →
    m.MadeOf a sha256 file → h.step a sha256 e = some t →
    (t.registry.models.lookup id).map (·.cachedNodes) = some m.cachedNodes ∧
      (∀ node, t.registry.isCachedOnNode id node = h.registry.isCachedOnNode id node) ∧
      ∀ id', id' ∈ t.registry.models ↔ id' ∈ h.registry.models

/-- A registration that gets the lock finds no model of its file that a node has. -/
def NothingCached (h : RegistryHost) : RegistryEvent → Prop
  | .insertModel i => ∀ file id m, IsRegistrationOf a sha256 file h (.insertModel i) →
      h.registry.models.lookup id = some m → m.MadeOf a sha256 file → m.cachedNodes = []
  | .registerModel _ _ _ _ _ | .getModel _ _ | .markCached _ _ | .unmarkCached _ _
  | .unregisterModel _ _ | .others _ => True

end

variable {a : Allocator} {sha256 : List UInt8 → Vector UInt8 32} {cacheDir : Path}
  {h t : RegistryHost} {m : ModelRegistry.ModelMetadata}

theorem mem_insertModel {r : ModelRegistry} (hid : m.modelId ∈ r.models) (id' : ModelId) :
    id' ∈ (r.insertModel m).models ↔ id' ∈ r.models := by
  refine (AList.mem_insert r.models).trans ⟨fun hmem => ?_, .inr⟩
  rcases hmem with rfl | hmem
  · exact hid
  · exact hmem

/-- Up to its wait for the lock, a registration does not touch the models. -/
theorem registry_registerModel {filePath : Path} {name : String} {fault : Option Fault}
    {registeredAt lastAccessed : DateTime}
    (he : h.step a sha256 (.registerModel filePath name fault registeredAt lastAccessed) =
      some t) : t.registry = h.registry := by
  cases host_step he with
  | found | copied | failed | refused => rfl
  | same hbook | update hbook => cases hbook

/-- **A registration leaves a registered file's model as it was exactly if no node has it.** -/
theorem keepsEntry_iff (hn : Named cacheDir h)
    (hwaiting : ∀ m ∈ h.registering, m.cachedNodes = []) (e : RegistryEvent) :
    KeepsEntry a sha256 h e ↔ NothingCached a sha256 h e := by
  cases e with
  | getModel | markCached | unmarkCached | unregisterModel | others =>
    exact iff_of_true (fun _ _ _ _ hregister => hregister.elim) trivial
  | registerModel filePath name fault registeredAt lastAccessed =>
    refine iff_of_true (fun file id m t _ hm _ ht => ?_) trivial
    rw [registry_registerModel ht, hm]
    exact ⟨rfl, fun _ => rfl, fun _ => Iff.rfl⟩
  | insertModel i =>
    -- both metadata are of the file, so the new one takes the place of the old one
    have hstep {m : ModelRegistry.ModelMetadata} (hget : h.registering[i]? = some m) :
        h.step a sha256 (.insertModel i) = some { h with
          registry := h.registry.insertModel m, registering := h.registering.eraseIdx i } := by
      simp only [step, hget]
    have hover {file : List UInt8} {id : ModelId} {m m' : ModelRegistry.ModelMetadata}
        (hget : h.registering[i]? = some m) (hmade : m.MadeOf a sha256 file)
        (hm' : h.registry.models.lookup id = some m') (hmade' : m'.MadeOf a sha256 file) :
        m.modelId = id := by
      obtain ⟨hnamed, rfl⟩ := hn.listed id m' hm'
      have hmem := List.mem_of_getElem? hget
      exact modelId_eq_of_madeOf (hn.waiting m hmem) hnamed hmade hmade'
    refine ⟨fun hkeep file id m' hregister hm' hmade' => ?_,
      fun hnothing file id m' t hregister hm' hmade' ht => ?_⟩
    · obtain ⟨m, hget, hmade⟩ := hregister
      obtain rfl := hover hget hmade hm' hmade'
      obtain ⟨hnodes, -⟩ := hkeep file _ m' _ ⟨m, hget, hmade⟩ hm' hmade' (hstep hget)
      rw [lookup_insertModel, Option.map_some, Option.some.injEq] at hnodes
      rw [← hnodes]
      exact hwaiting m (List.mem_of_getElem? hget)
    · have hold := hnothing file id m' hregister hm' hmade'
      obtain ⟨m, hget, hmade⟩ := hregister
      obtain rfl := hover hget hmade hm' hmade'
      cases (hstep hget).symm.trans ht
      have hnew := hwaiting m (List.mem_of_getElem? hget)
      have hlookup := lookup_insertModel h.registry m
      refine ⟨by simp [hlookup, hnew, hold], fun node => ?_,
        mem_insertModel (HashMap.mem_of_lookup hm')⟩
      simp [isCachedOnNode, hlookup, hm', hnew, hold]

/-! ## Runs -/

/-- **Registering a registered file again leaves its model as it was exactly if no node has it.** -/
theorem reregistration_iff (fs : FileSystem) (cacheDir : Path) (es : List RegistryEvent) :
    Lts.Meets (step a sha256) (KeepsEntry a sha256) (RegistryHost.new fs cacheDir) es ↔
      Lts.Meets (step a sha256) (NothingCached a sha256) (RegistryHost.new fs cacheDir) es := by
  refine Lts.meets_congr_of_inv
    (I := fun h => Named cacheDir h ∧ Models (fun _ _ => True) (·.cachedNodes = []) h)
    (fun h e t hI he => ⟨hI.1.next he, ?_⟩) (fun h e hI => keepsEntry_iff hI.1 hI.2.waiting e)
    ⟨Named.new fs cacheDir, Models.new fs cacheDir⟩
  exact hI.2.next (fun _ _ _ _ _ _ _ _ hdesc => hdesc.cachedNodes) (fun _ _ => trivial)
    (fun _ _ _ _ _ => trivial) he

/-- A node has the model that is registered again under another name. -/
theorem not_keepsEntry_of_marked : ¬ Lts.Meets (step bareAllocator bareSha256)
    (KeepsEntry bareAllocator bareSha256) (RegistryHost.new (bareFs [["cache", "a4"]]) ["cache"])
    [.registerModel ["bare.gguf"] "bare" none ⟨0⟩ ⟨0⟩, .insertModel 0,
      .markCached "unknown-a4e5e156ddec27e2" ⟨1⟩,
      .registerModel ["bare.gguf"] "again" none ⟨1⟩ ⟨1⟩, .insertModel 0] := by
  intro h
  obtain ⟨-, h⟩ := h _ rfl
  obtain ⟨-, h⟩ := h _ rfl
  obtain ⟨-, h⟩ := h _ rfl
  obtain ⟨-, h⟩ := h _ rfl
  obtain ⟨hkeep, -⟩ := h _ rfl
  obtain ⟨hnodes, -⟩ := hkeep bareModel "unknown-a4e5e156ddec27e2" _ _
    ⟨_, rfl, by decide, by decide⟩ rfl ⟨by decide, by decide⟩ rfl
  exact absurd hnodes (by decide)

end TensorGrid.RegistryHost
