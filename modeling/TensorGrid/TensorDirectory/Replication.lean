import TensorGrid.TensorDirectory.Index

/-!
# Replication queries and other sessions

`get_tensors_by_session` answers from the entries of its session alone
(`isolated_getTensorsBySession`). `get_tensors_for_replication` takes a session id too, and does not
look at it: it answers from the entries of its session alone only as long as no entry of another
owner is to be replicated (`isolated_getTensorsForReplication_iff`).
-/

namespace TensorGrid.TensorDirectory

open Rust

/-- The directories have the same tensors of the session. -/
def SameOwned (s : Uuid) (d₁ d₂ : TensorDirectory) : Prop :=
  ∀ t e, e.ownerSession = some s → (d₁.tensors.lookup t = some e ↔ d₂.tensors.lookup t = some e)

/-- The query returns the same entries from both directories, all of them of the session. -/
def Isolated (query : TensorDirectory → Uuid → List TensorEntry) (s : Uuid)
    (d₁ d₂ : TensorDirectory) : Prop :=
  (∀ e, e ∈ query d₁ s ↔ e ∈ query d₂ s) ∧ ∀ e ∈ query d₁ s, e.ownerSession = some s

/-- The entry is on several nodes or mutable. -/
def ToReplicate (e : TensorEntry) : Prop := 1 < e.placements.length ∨ e.mutable = true

/-- The entries to replicate are all of the session. -/
def OwnsReplicated (s : Uuid) (d : TensorDirectory) : Prop :=
  ∀ t e, d.tensors.lookup t = some e → ToReplicate e → e.ownerSession = some s

section
variable {d d₁ d₂ : TensorDirectory} {s : Uuid} {e : TensorEntry}

theorem mem_entries_map_snd : e ∈ d.tensors.entries.map (·.2) ↔
    ∃ t, d.tensors.lookup t = some e := by
  rw [List.mem_map]
  constructor
  · rintro ⟨⟨t, e⟩, he, rfl⟩
    exact ⟨t, HashMap.mem_entries_iff.1 he⟩
  · rintro ⟨t, he⟩
    exact ⟨⟨t, e⟩, HashMap.mem_entries_iff.2 he, rfl⟩

theorem mem_getTensorsBySession : e ∈ d.getTensorsBySession s ↔
    (∃ t, d.tensors.lookup t = some e) ∧ e.ownerSession = some s := by
  rw [getTensorsBySession, List.mem_filter, mem_entries_map_snd, decide_eq_true_iff]

theorem mem_getTensorsForReplication : e ∈ d.getTensorsForReplication s ↔
    (∃ t, d.tensors.lookup t = some e) ∧ ToReplicate e := by
  rw [getTensorsForReplication, List.mem_filter, mem_entries_map_snd, ToReplicate,
    Bool.or_eq_true, decide_eq_true_iff]

/-- The entries of the session are in both directories or in none. -/
theorem SameOwned.exists_lookup_iff (h : SameOwned s d₁ d₂) (howner : e.ownerSession = some s) :
    (∃ t, d₁.tensors.lookup t = some e) ↔ ∃ t, d₂.tensors.lookup t = some e :=
  exists_congr fun t => h t e howner

/-- The query by session depends on the entries of the session alone. -/
theorem isolated_getTensorsBySession (h : SameOwned s d₁ d₂) :
    Isolated getTensorsBySession s d₁ d₂ := by
  refine ⟨fun e => ?_, fun e he => (mem_getTensorsBySession.1 he).2⟩
  rw [mem_getTensorsBySession, mem_getTensorsBySession]
  exact and_congr_left fun howner => h.exists_lookup_iff howner

/-- What the replication query returns is of the session exactly if its entries to replicate are. -/
theorem ownsReplicated_iff : OwnsReplicated s d ↔
    ∀ e ∈ d.getTensorsForReplication s, e.ownerSession = some s := by
  constructor
  · intro h e he
    obtain ⟨⟨t, ht⟩, hreplicate⟩ := mem_getTensorsForReplication.1 he
    exact h t e ht hreplicate
  · exact fun h t e ht hreplicate => h e (mem_getTensorsForReplication.2 ⟨⟨t, ht⟩, hreplicate⟩)

end

/-- **When replication queries do not leak**: in neither directory is an entry of another owner on
several nodes or mutable. -/
theorem isolated_getTensorsForReplication_iff (s : Uuid) (d₁ d₂ : TensorDirectory)
    (h : SameOwned s d₁ d₂) : Isolated getTensorsForReplication s d₁ d₂ ↔
      OwnsReplicated s d₁ ∧ OwnsReplicated s d₂ := by
  constructor
  · rintro ⟨hsame, howner⟩
    exact ⟨ownsReplicated_iff.2 howner,
      ownsReplicated_iff.2 fun e he => howner e ((hsame e).2 he)⟩
  · rintro ⟨h₁, h₂⟩
    refine ⟨fun e => ?_, ownsReplicated_iff.1 h₁⟩
    rw [mem_getTensorsForReplication, mem_getTensorsForReplication]
    constructor
    · rintro ⟨⟨t, ht⟩, hreplicate⟩
      exact ⟨(h.exists_lookup_iff (h₁ t e ht hreplicate)).1 ⟨t, ht⟩, hreplicate⟩
    · rintro ⟨⟨t, ht⟩, hreplicate⟩
      exact ⟨(h.exists_lookup_iff (h₂ t e ht hreplicate)).2 ⟨t, ht⟩, hreplicate⟩

/-- A mutable tensor of a session. -/
def mutableTensor (session : Uuid) : Op :=
  .registerTensor { smallRegistration with mutable := true, ownerSession := some session }

theorem lookup_run_mutableTensor {session : Uuid} {t : TensorId} {e : TensorEntry}
    (h : (run [mutableTensor session]).tensors.lookup t = some e) :
    e.ownerSession = some session := by
  rcases of_lookup_registerTensor h with ⟨-, rfl⟩ | ⟨-, hnew⟩
  · rfl
  · simp [new] at hnew

theorem sameOwned_mutableTensor : SameOwned ⟨1⟩ new (run [mutableTensor ⟨2⟩]) := by
  intro t e howner
  refine iff_of_false (by simp [new]) fun h => ?_
  rw [lookup_run_mutableTensor h] at howner
  exact absurd howner (by decide)

theorem isolated_getTensorsForReplication_iff_small :
    Isolated getTensorsForReplication ⟨1⟩ new (run [mutableTensor ⟨2⟩]) ↔
      OwnsReplicated ⟨1⟩ new ∧ OwnsReplicated ⟨1⟩ (run [mutableTensor ⟨2⟩]) :=
  isolated_getTensorsForReplication_iff ⟨1⟩ _ _ sameOwned_mutableTensor

/-- The mutable tensor of the session 2 is returned to the session 1, which has no tensors. -/
theorem not_isolated_getTensorsForReplication :
    SameOwned ⟨1⟩ new (run [mutableTensor ⟨2⟩]) ∧
      ¬ Isolated getTensorsForReplication ⟨1⟩ new (run [mutableTensor ⟨2⟩]) := by
  refine ⟨sameOwned_mutableTensor, ?_⟩
  rintro ⟨hsame, -⟩
  have hmem := (hsame _).2 (mem_getTensorsForReplication.2
    ⟨⟨"t", lookup_registerTensor new _⟩, .inr rfl⟩)
  obtain ⟨⟨t, ht⟩, -⟩ := mem_getTensorsForReplication.1 hmem
  simp [new] at ht

end TensorGrid.TensorDirectory
