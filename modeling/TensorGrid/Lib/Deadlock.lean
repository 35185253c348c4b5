import Mathlib

/-!
# Deadlocks

Processes wait for locks that other processes hold. A deadlock is a cycle of the wait-for relation.
There is none if the locks are ranked and every process waits only for locks above those it holds
(`not_deadlocked_of_rank`).
-/

namespace Deadlock

variable {P L : Type*} (waits holds : P → L → Prop)

/-- `p` waits for a lock that `q` holds. -/
def WaitsFor (p q : P) : Prop := ∃ l, waits p l ∧ holds q l

/-- Some process waits, over one or more others, for itself. -/
def Deadlocked : Prop := ∃ p, Relation.TransGen (WaitsFor waits holds) p p

variable {waits holds}

theorem deadlocked_of_pair {p q : P} {k l : L} (hp : waits p l) (hq : holds q l) (hq' : waits q k)
    (hp' : holds p k) : Deadlocked waits holds :=
  ⟨p, .tail (.single ⟨l, hp, hq⟩) ⟨k, hq', hp'⟩⟩

/-- Along the wait-for relation the ranks grow. -/
theorem rank_le_of_waitsFor {rank : L → ℕ}
    (hrank : ∀ p k l, holds p k → waits p l → rank k < rank l) {p q : P}
    (h : Relation.TransGen (WaitsFor waits holds) p q) :
    ∃ l k, waits p l ∧ holds q k ∧ rank l ≤ rank k := by
  induction h with
  | single h =>
    obtain ⟨l, hw, hh⟩ := h
    exact ⟨l, l, hw, hh, le_rfl⟩
  | tail _ h ih =>
    obtain ⟨l, k, hw, hh, hle⟩ := ih
    obtain ⟨l', hw', hh'⟩ := h
    exact ⟨l, l', hw, hh', hle.trans (hrank _ k l' hh hw').le⟩

/-- **Ordered locks do not deadlock.** -/
theorem not_deadlocked_of_rank (rank : L → ℕ)
    (hrank : ∀ p k l, holds p k → waits p l → rank k < rank l) : ¬ Deadlocked waits holds := by
  rintro ⟨p, h⟩
  obtain ⟨l, k, hw, hh, hle⟩ := rank_le_of_waitsFor hrank h
  exact absurd (hrank p k l hh hw) (by omega)

end Deadlock
