import TensorGrid.Lib.Json
import Mathlib.Data.List.Nodup

/-!
# Derived decoders over a body

How a decoder that serde derives takes a JSON text apart. A struct is an object, whose unknown names
are ignored and whose known names may not come twice, or an array with exactly its fields; an
`Option` may be left out of the object. A variant without data is its name, or an object with `null`
under its name.

* `members_object`: what a derived encoder writes is taken apart into what it was made of.
* `asList_ofList`: lists are decoded item by item.
-/

namespace Rust.Json

variable {α β : Type}

/-- The values of a struct's fields: `none` for a name that the object leaves out. -/
def members (names : List String) : Json → Option (List (Option Json))
  | .object fs =>
    if ((fs.map Prod.fst).filter (· ∈ names)).Nodup then
      some (names.map fun name => fs.lookup name)
    else none
  | .array vs => if vs.length = names.length then some (vs.map some) else none
  | _ => none

/-- An `Option` field. -/
def optional (decode : Json → Option α) : Option Json → Option (Option α)
  | none => some none
  | some .null => some none
  | some v => (decode v).map some

def asBool : Json → Option Bool
  | .bool b => some b
  | _ => none

/-- The name of a variant without data. -/
def asVariant : Json → Option String
  | .string s => some s
  | .object [(s, .null)] => some s
  | _ => none

/-! ## Encoded values -/

/-- Each name of an object without repetitions has its own value. -/
theorem lookup_fields {fs : List (String × Json)} (h : (fs.map Prod.fst).Nodup) :
    (fs.map Prod.fst).map (fun name => fs.lookup name) = fs.map fun f => some f.2 := by
  induction fs with
  | nil => rfl
  | cons f fs ih =>
    obtain ⟨name, v⟩ := f
    obtain ⟨hname, hnodup⟩ := List.nodup_cons.1 h
    have hrest : ∀ other ∈ fs.map Prod.fst, ((name, v) :: fs).lookup other = fs.lookup other := by
      intro other hother
      rw [List.lookup_cons, beq_false_of_ne]
      rintro rfl
      exact hname hother
    rw [List.map_cons, List.map_cons, List.map_cons, List.lookup_cons_self,
      List.map_congr_left hrest, ih hnodup]

/-- A derived encoder's object is taken apart into the values it was made of. -/
theorem members_object {names : List String} {fs : List (String × Json)}
    (hnames : fs.map Prod.fst = names) (hnodup : names.Nodup) :
    (object fs).members names = some (fs.map fun f => some f.2) := by
  subst hnames
  have hknown : (fs.map Prod.fst).filter (· ∈ fs.map Prod.fst) = fs.map Prod.fst :=
    List.filter_eq_self.2 fun name hname => decide_eq_true hname
  rw [members, hknown, if_pos hnodup, lookup_fields hnodup]

@[simp] theorem asStr_string (s : String) : asStr (.string s) = some s := rfl

@[simp] theorem asBool_bool (b : Bool) : asBool (.bool b) = some b := rfl

@[simp] theorem asU64_ofU64 (n : UInt64) : (ofU64 n).asU64 = some n := rfl

@[simp] theorem asU32_ofU32 (n : UInt32) : (ofU32 n).asU32 = some n := by
  simp [asU32, ofU32, n.toNat_lt]

/-- An optional value whose encoding is `null` under a condition arrives as nothing there. -/
theorem optional_ofOption {encode : α → Json} {decode : Json → Option β} {p : α → Bool} {f : α → β}
    (htaken : ∀ a, p a → decode (encode a) = some (f a)) (hnull : ∀ a, ¬ p a → encode a = .null)
    (hnone : decode .null = none) (a : Option α) :
    optional decode (some (ofOption encode a)) = some ((a.filter p).map f) := by
  cases a with
  | none => rfl
  | some a =>
    by_cases h : p a
    · have hvalue : encode a ≠ .null := fun heq => by
        have := htaken a h
        rw [heq, hnone] at this
        cases this
      simp [ofOption, optional, htaken a h, h]
    · simp [ofOption, optional, hnull a h, h]

theorem optional_string (s : Option String) :
    optional asStr (some (ofOption .string s)) = some s := by
  cases s <;> rfl

/-- A list is decoded item by item. -/
theorem asList_ofList (encode : α → Json) (decode : Json → Option β) (as : List α) :
    (ofList encode as).asList decode = as.mapM fun a => decode (encode a) := by
  rw [ofList, asList, List.mapM_map]
  rfl

/-- A list of items that all arrive arrives. -/
theorem asList_of_forall {encode : α → Json} {decode : Json → Option α}
    (h : ∀ a, decode (encode a) = some a) (as : List α) :
    (ofList encode as).asList decode = some as := by
  simp only [asList_ofList, h]
  exact List.mapM_pure.trans (congrArg some (List.map_id as))

/-- A list whose items arrive under a condition arrives if all of them meet it. -/
theorem mapM_ite (p : α → Bool) (f : α → β) (as : List α) :
    as.mapM (fun a => if p a then some (f a) else none) =
      if as.all p then some (as.map f) else none := by
  induction as with
  | nil => rfl
  | cons a as ih =>
    rw [List.mapM_cons, ih, List.all_cons]
    cases p a <;> cases as.all p <;> rfl

end Rust.Json
