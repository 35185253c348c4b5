import Mathlib

/-!
# Outcomes of a call

`Rust.Outcome ε α` is what a call of a function returning `Result<α, ε>` can end in: `Ok`, `Err`,
or a panic (an out-of-range slice index, an arithmetic overflow check, a capacity overflow, an
`unwrap`). The monad is the `?` operator; a panic passes through it like an error.
-/

namespace Rust

/-- The outcome of a call. -/
inductive Outcome (ε α : Type)
  | ok (a : α)
  | err (e : ε)
  | panic
deriving DecidableEq, Repr

namespace Outcome

variable {ε α β : Type}

instance : Monad (Outcome ε) where
  pure := ok
  bind x f := match x with
    | ok a => f a
    | err e => err e
    | panic => panic

@[simp] theorem pure_eq (a : α) : (pure a : Outcome ε α) = ok a := rfl
@[simp] theorem ok_bind (a : α) (f : α → Outcome ε β) : ok a >>= f = f a := rfl
@[simp] theorem err_bind (e : ε) (f : α → Outcome ε β) : err e >>= f = err e := rfl
@[simp] theorem panic_bind (f : α → Outcome ε β) : (panic : Outcome ε α) >>= f = panic := rfl

theorem bind_ok {x : Outcome ε α} {f : α → Outcome ε β} {b : β} :
    x >>= f = ok b ↔ ∃ a, x = ok a ∧ f a = ok b := by
  cases x <;> simp

/-- A call returns unless it panics. -/
theorem returns_iff {x : Outcome ε α} : ((∃ a, x = ok a) ∨ ∃ e, x = err e) ↔ x ≠ panic := by
  cases x <;> simp

/-- The same outcome with another error. -/
def mapErr {δ : Type} (f : ε → δ) : Outcome ε α → Outcome δ α
  | ok a => ok a
  | err e => err (f e)
  | panic => panic

/-- The error of a call, for outcomes whose values cannot be compared. -/
def err? : Outcome ε α → Option ε
  | err e => some e
  | _ => none

theorem err?_eq_some {x : Outcome ε α} {e : ε} : x.err? = some e ↔ x = err e := by
  cases x <;> simp [err?]

end Outcome

end Rust
