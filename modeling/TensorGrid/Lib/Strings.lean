import TensorGrid.Lib.Outcome

/-!
# Slices of strings

`sliceTo s n` is `&s[..n]`: the index counts bytes, and an index that is past the end or inside a
character panics. `lastPart c s` is `s.split(c).last()`, which there always is.
-/

namespace Rust

/-- The characters of the first `n` bytes. -/
def takeBytes : List Char → Nat → Option (List Char)
  | _, 0 => some []
  | [], _ + 1 => none
  | c :: cs, n + 1 =>
    if c.utf8Size ≤ n + 1 then (takeBytes cs (n + 1 - c.utf8Size)).map (c :: ·) else none

/-- `str::is_char_boundary`. -/
def isCharBoundary (s : String) (n : Nat) : Bool := (takeBytes s.toList n).isSome

/-- `&s[..n]`. -/
def sliceTo {ε : Type} (s : String) (n : Nat) : Outcome ε String :=
  match takeBytes s.toList n with
  | some cs => .ok (String.ofList cs)
  | none => .panic

/-- `s.split(c).last()`. -/
def lastPart (c : Char) (s : String) : Option String :=
  (s.toList.splitOn c).getLast?.map String.ofList

theorem takeBytes_of_ascii {cs : List Char} (hcs : ∀ c ∈ cs, c.utf8Size = 1) {n : Nat}
    (hn : n ≤ cs.length) : takeBytes cs n = some (cs.take n) := by
  induction n generalizing cs with
  | zero => simp [takeBytes]
  | succ n ih =>
    cases cs with
    | nil => simp at hn
    | cons c cs =>
      have hrest := ih (fun d hd => hcs d (.tail _ hd)) (by simpa using hn)
      simp [takeBytes, hcs c (.head _), hrest]

theorem sliceTo_of_ascii {ε : Type} {s : String} (hs : ∀ c ∈ s.toList, c.utf8Size = 1) {n : Nat}
    (hn : n ≤ s.toList.length) :
    (sliceTo s n : Outcome ε String) = .ok (String.ofList (s.toList.take n)) := by
  unfold sliceTo
  rw [takeBytes_of_ascii hs hn]

theorem sliceTo_ok_iff {ε : Type} {s : String} {n : Nat} :
    (∃ t, (sliceTo s n : Outcome ε String) = .ok t) ↔ isCharBoundary s n := by
  unfold sliceTo isCharBoundary
  cases takeBytes s.toList n <;> simp

theorem exists_lastPart (c : Char) (s : String) : ∃ t, lastPart c s = some t := by
  unfold lastPart
  rw [List.getLast?_eq_getLast_of_ne_nil (List.splitOn_ne_nil c s.toList)]
  exact ⟨_, rfl⟩

theorem lastPart_append {c : Char} {s t : String} (ht : c ∉ t.toList) :
    lastPart c (s ++ String.singleton c ++ t) = some t := by
  unfold lastPart
  have hsplit : (s ++ String.singleton c ++ t).toList = s.toList ++ c :: t.toList := by simp
  rw [hsplit, List.splitOn_append_cons_self, List.splitOn_eq_singleton ht]
  simp

end Rust
