import Mathlib.Data.Nat.Choose.Basic
import Mathlib.Data.Sym.Sym2

/-!
# The pairs of a list

What two nested loops go through, the inner one over what comes after the element of the outer one:
each unordered pair of different elements, once (`nodup_pairs`, `mem_pairs`).
-/

namespace Rust

variable {α β : Type}

def pairs : List α → List (α × α)
  | [] => []
  | a :: as => as.map (a, ·) ++ pairs as

/-- A pair without its direction. -/
def unordered (p : α × α) : Sym2 α := s(p.1, p.2)

theorem length_pairs (as : List α) : (pairs as).length = as.length.choose 2 := by
  induction as with
  | nil => rfl
  | cons a as ih =>
    rw [pairs, List.length_append, List.length_map, ih, List.length_cons, Nat.choose_succ_succ',
      Nat.choose_one_right]

theorem mem_of_mem_pairs {as : List α} {p : α × α} (h : p ∈ pairs as) : p.1 ∈ as ∧ p.2 ∈ as := by
  induction as with
  | nil => cases h
  | cons a as ih =>
    rcases List.mem_append.1 h with hhead | htail
    · obtain ⟨b, hb, rfl⟩ := List.mem_map.1 hhead
      exact ⟨.head _, .tail _ hb⟩
    · obtain ⟨h₁, h₂⟩ := ih htail
      exact ⟨.tail _ h₁, .tail _ h₂⟩

/-- **The pairs are those of different elements.** -/
theorem mem_pairs {as : List α} (h : as.Nodup) (a b : α) :
    s(a, b) ∈ (pairs as).map unordered ↔ a ≠ b ∧ a ∈ as ∧ b ∈ as := by
  induction as with
  | nil => simp [pairs]
  | cons c as ih =>
    obtain ⟨hnot, hnodup⟩ := List.nodup_cons.1 h
    have hhead : s(a, b) ∈ (as.map (c, ·)).map unordered ↔
        (c = a ∧ b ∈ as) ∨ (c = b ∧ a ∈ as) := by
      simp only [List.map_map, List.mem_map, Function.comp_apply, unordered, Sym2.eq_iff]
      constructor
      · intro ⟨d, hd, hpair⟩
        rcases hpair with ⟨ha, rfl⟩ | ⟨hb, rfl⟩
        · exact .inl ⟨ha, hd⟩
        · exact .inr ⟨hb, hd⟩
      · intro hpair
        rcases hpair with ⟨ha, hb⟩ | ⟨hb, ha⟩
        · exact ⟨b, hb, .inl ⟨ha, rfl⟩⟩
        · exact ⟨a, ha, .inr ⟨hb, rfl⟩⟩
    rw [pairs, List.map_append, List.mem_append, hhead, ih hnodup, List.mem_cons, List.mem_cons]
    grind

/-- **No pair comes twice**, in whichever direction. -/
theorem nodup_pairs {as : List α} (h : as.Nodup) : ((pairs as).map unordered).Nodup := by
  induction as with
  | nil => exact List.nodup_nil
  | cons a as ih =>
    obtain ⟨hnot, hnodup⟩ := List.nodup_cons.1 h
    rw [pairs, List.map_append, List.map_map]
    refine List.nodup_append.2 ⟨hnodup.map ?_, ih hnodup, ?_⟩
    · intro b c hbc
      exact Sym2.congr_right.1 hbc
    · intro z hz z' hz' heq
      obtain ⟨b, -, rfl⟩ := List.mem_map.1 hz
      subst heq
      exact hnot ((mem_pairs hnodup a b).1 hz').2.1

end Rust
