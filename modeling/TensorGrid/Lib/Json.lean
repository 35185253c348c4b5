import TensorGrid.Lib.HashMap

/-!
# JSON values

`Rust.Json` is `serde_json::Value`: indexing by a key, the accessors, and the shapes that serde's
derived encodings use. `Json.fields` is how a derived decoder takes a struct apart: by the names of
its fields, with unknown names ignored, or by their order from an array.
-/

namespace Rust

inductive JsonNumber
  | posInt (n : UInt64)
  | negInt (n : Int64)
  | float (bits : UInt64)
deriving DecidableEq, Repr

inductive Json
  | null
  | bool (b : Bool)
  | number (n : JsonNumber)
  | string (s : String)
  | array (vs : List Json)
  | object (fields : List (String × Json))

namespace Json

/-- `value[key]`: `null` where there is nothing. -/
def get : Json → String → Json
  | .object fields, key => (fields.lookup key).getD .null
  | _, _ => .null

def asStr : Json → Option String
  | .string s => some s
  | _ => none

def asU64 : Json → Option UInt64
  | .number (.posInt n) => some n
  | _ => none

/-! ## Derived encodings -/

def ofU64 (n : UInt64) : Json := .number (.posInt n)

def ofU32 (n : UInt32) : Json := ofU64 n.toUInt64

def ofU8 (n : UInt8) : Json := ofU64 n.toUInt64

def ofList {α : Type} (encode : α → Json) (as : List α) : Json := .array (as.map encode)

def ofOption {α : Type} (encode : α → Json) : Option α → Json
  | none => .null
  | some a => encode a

/-- A map whose keys are written as strings. -/
def ofMap {K V : Type} (key : K → String) (encode : V → Json) (m : HashMap K V) : Json :=
  .object (m.entries.map fun e => (key e.1, encode e.2))

/-! ## Derived decodings -/

def asU32 (v : Json) : Option UInt32 :=
  v.asU64.bind fun n => if n.toNat < 2 ^ 32 then some n.toUInt32 else none

def asF32 : Json → Option Float32
  | .number (.posInt n) => some n.toFloat32
  | .number (.negInt n) => some n.toFloat32
  | .number (.float bits) => some (Float.ofBits bits).toFloat32
  | _ => none

def asList {α : Type} (decode : Json → Option α) : Json → Option (List α)
  | .array vs => vs.mapM decode
  | _ => none

/-- The values of a struct's fields. -/
def fields (names : List String) : Json → Option (List Json)
  | .object fs => names.mapM fun name => fs.lookup name
  | .array vs => if vs.length = names.length then some vs else none
  | _ => none

/-- A key that no entry has is not in the object. -/
theorem get_ofMap_of_ne {K V : Type} {key : K → String} {encode : V → Json} {m : HashMap K V}
    {name : String} (h : ∀ k, key k ≠ name) : (ofMap key encode m).get name = .null := by
  have hnone : (m.entries.map fun e => (key e.1, encode e.2)).lookup name = none := by
    induction m.entries with
    | nil => rfl
    | cons e es ih => rw [List.map_cons, List.lookup_cons, ih, beq_false_of_ne (h e.1).symm]
  rw [ofMap, get, hnone]
  rfl

end Json

end Rust
