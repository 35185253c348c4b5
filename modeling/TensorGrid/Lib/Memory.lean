import TensorGrid.Lib.Outcome

/-!
# Memory

`allocates` says which sizes in bytes the allocator grants. A buffer that it does not grant ends the
program, as does one of more than `isize::MAX` bytes, for which it is not even asked.
-/

namespace Rust

/-- A buffer of so many bytes can be had. An empty one needs no memory. -/
def fits (allocates : Nat → Bool) (bytes : Nat) : Bool :=
  bytes = 0 || (bytes < 2 ^ 63 && allocates bytes)

/-- `vec![0u8; bytes]`. -/
def allocate {ε : Type} (allocates : Nat → Bool) (bytes : Nat) : Outcome ε Unit :=
  if fits allocates bytes then .ok () else .panic

variable {ε : Type} {allocates : Nat → Bool} {bytes : Nat}

theorem lt_of_fits (h : fits allocates bytes) : bytes < 2 ^ 63 := by
  simp only [fits, Bool.or_eq_true, Bool.and_eq_true, decide_eq_true_eq] at h
  omega

theorem allocate_of_fits (h : fits allocates bytes) :
    allocate allocates bytes = (.ok () : Outcome ε Unit) := if_pos h

theorem allocate_panics :
    allocate allocates bytes = (.panic : Outcome ε Unit) ↔ ¬ fits allocates bytes := by
  unfold allocate
  split_ifs with h
  · exact iff_of_false (fun h => by cases h) (not_not.2 h)
  · exact iff_of_true rfl h

end Rust
