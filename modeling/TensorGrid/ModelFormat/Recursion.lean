import TensorGrid.ModelFormat.Model
import TensorGrid.Lib.RecursiveReader

/-!
# The recursion of the parser

`read_value` and `read_array` call each other, as deep as the stack allows. `valueReader` is what
`read_value` does for each type, in four cases; `valueLevel` is one call of the two, and
`readValueWithin` its iteration (`readValueWithin_eq`), so that what a call keeps of the reader it
calls, `read_value` has.
-/

namespace TensorGrid

open Rust Reader

namespace GgufParser

/-! ## The cases of a value -/

/-- The size of a number or a boolean. -/
def fixedSize (valueType : UInt32) : Option Nat :=
  match valueType.toNat with
  | 0 | 1 | 7 => some 1
  | 2 | 3 => some 2
  | 4 | 5 | 6 => some 4
  | 10 | 11 | 12 => some 8
  | _ => none

/-- What `read_value` is for a type: the read of a number, of a string or of an array, or an
error. -/
inductive ValueReader (a : Allocator) (readArray : Parser (List GgufValue)) (valueType : UInt32) :
    Parser GgufValue → Prop
  | number {n : Nat} (f : Nat → GgufValue) (hsize : fixedSize valueType = some n) (hpos : 0 < n)
      (hf : ∀ v vs, f v ≠ .array vs) :
    ValueReader a readArray valueType (le .unexpectedEof n >>= fun v => pure (f v))
  | string (htype : valueType = 8) :
    ValueReader a readArray valueType (readString a >>= fun v => pure (.string v))
  | array (htype : valueType = 9) :
    ValueReader a readArray valueType (readArray >>= fun v => pure (.array v))
  | unknown (text : String) (hsize : fixedSize valueType = none) (hstring : valueType ≠ 8)
      (harray : valueType ≠ 9) : ValueReader a readArray valueType (fail (.message text))

theorem valueReader (a : Allocator) (readArray : Parser (List GgufValue)) (valueType : UInt32) :
    ValueReader a readArray valueType (readValueWith a readArray valueType) := by
  have hnumber {n : Nat} (hsize : fixedSize valueType = some n) (hpos : 0 < n)
      {α : Type} (g : Nat → α) (f : α → GgufValue) (hf : ∀ v vs, f v ≠ .array vs) :
      ValueReader a readArray valueType
        ((le .unexpectedEof n >>= fun v => pure (g v)) >>= fun v => pure (f v)) := by
    rw [map_map]
    exact .number _ hsize hpos fun v vs => hf (g v) vs
  unfold readValueWith
  split
  · next h => exact hnumber (by simp [fixedSize, h]) one_pos _ _ nofun
  · next h => exact hnumber (by simp [fixedSize, h]) one_pos _ (fun v : UInt8 => _) nofun
  · next h => exact hnumber (by simp [fixedSize, h]) two_pos _ _ nofun
  · next h => exact hnumber (by simp [fixedSize, h]) two_pos _ (fun v : UInt16 => _) nofun
  · next h => exact hnumber (by simp [fixedSize, h]) four_pos _ _ nofun
  · next h => exact hnumber (by simp [fixedSize, h]) four_pos _ (fun v : UInt32 => _) nofun
  · next h => exact hnumber (by simp [fixedSize, h]) four_pos _ _ nofun
  · next h => exact hnumber (by simp [fixedSize, h]) one_pos _ (fun v : UInt8 => _) nofun
  · next h => exact .string (UInt32.toNat_inj.1 h)
  · next h => exact .array (UInt32.toNat_inj.1 h)
  · next h => exact hnumber (by simp [fixedSize, h]) (by decide) _ _ nofun
  · next h => exact hnumber (by simp [fixedSize, h]) (by decide) _ (fun v : UInt64 => _) nofun
  · next h => exact hnumber (by simp [fixedSize, h]) (by decide) _ _ nofun
  · next h0 h1 h2 h3 h4 h5 h6 h7 h8 h9 h10 h11 h12 =>
    refine .unknown _ ?_ (fun h => h8 (by rw [h]; rfl)) (fun h => h9 (by rw [h]; rfl))
    unfold fixedSize
    split <;> first | rfl | contradiction

/-! ## What is left -/

theorem shrinks_readU32 : Shrinks readU32 := (shrinks_le _ _).bind fun _ => shrinks_pure _
theorem shrinks_readU64 : Shrinks readU64 := (shrinks_le _ _).bind fun _ => shrinks_pure _

theorem shrinks_reserve (a : Allocator) (size count : Nat) : Shrinks (reserve a size count) := by
  unfold reserve
  split
  · exact shrinks_pure ()
  · exact shrinks_panic

theorem shrinks_fromUtf8 (bs : List UInt8) : Shrinks (fromUtf8 bs) := by
  unfold fromUtf8
  split
  · exact shrinks_pure _
  · exact shrinks_fail _

theorem shrinks_readString (a : Allocator) : Shrinks (readString a) :=
  shrinks_readU64.bind fun _ => (shrinks_reserve a _ _).bind fun _ =>
    (shrinks_exact _ _).bind fun _ => shrinks_fromUtf8 _

theorem shrinks_readValueWith (a : Allocator) {readArray : Parser (List GgufValue)}
    (h : Shrinks readArray) (valueType : UInt32) :
    Shrinks (readValueWith a readArray valueType) := by
  have hreader := valueReader a readArray valueType
  generalize readValueWith a readArray valueType = r at hreader ⊢
  cases hreader with
  | number => exact (shrinks_le _ _).bind fun _ => shrinks_pure _
  | string => exact (shrinks_readString a).bind fun _ => shrinks_pure _
  | array => exact h.bind fun _ => shrinks_pure _
  | unknown => exact shrinks_fail _

/-! ## The recursion -/

/-- Only the array case calls the array reader. -/
theorem agree_readValueWith {a : Allocator} {r r' : Parser (List GgufValue)} {bs : List UInt8}
    (h : r bs = r' bs) (valueType : UInt32) :
    readValueWith a r valueType bs = readValueWith a r' valueType bs := by
  unfold readValueWith
  generalize valueType.toNat = n
  match n with
  | 9 => exact agree_bind_left h
  | 0 | 1 | 2 | 3 | 4 | 5 | 6 | 7 | 8 | 10 | 11 | 12 | _ + 13 => rfl

/-- One level of `read_value` and `read_array`, with `readElement` for the next one. -/
def valueLevel (a : Allocator) (readElement : UInt32 → Parser GgufValue) (valueType : UInt32) :
    Parser GgufValue :=
  readValueWith a (readArrayWith a readElement) valueType

/-- **As many levels as the stack has room for.** -/
theorem readValueWithin_eq (a : Allocator) (room : Nat) :
    readValueWithin a room = iterate (valueLevel a) room := by
  induction room with
  | zero => rfl
  | succ room ih =>
    funext valueType
    rw [readValueWithin, ih, iterate, valueLevel]

/-! ## Depth -/

end GgufParser

namespace GgufValue

mutual

/-- How many calls of `read_value` are inside one another when the value is read. -/
def depth : GgufValue → Nat
  | array v => allDepth v + 1
  | _ => 1

def allDepth : List GgufValue → Nat
  | [] => 0
  | v :: vs => max v.depth (allDepth vs)

end

theorem depth_pos (v : GgufValue) : 0 < v.depth := by
  cases v <;> simp [depth]

theorem allDepth_le_iff {vs : List GgufValue} {n : Nat} :
    allDepth vs ≤ n ↔ ∀ v ∈ vs, v.depth ≤ n := by
  induction vs with
  | nil => simp [allDepth]
  | cons v vs ih => rw [allDepth, Nat.max_le, ih, List.forall_mem_cons]

end GgufValue

namespace GgufParser

/-! ## Panics -/

theorem neverPanics_readU32 : NeverPanics readU32 :=
  (neverPanics_le _ _).bind fun _ => neverPanics_pure _

theorem neverPanics_readU64 : NeverPanics readU64 :=
  (neverPanics_le _ _).bind fun _ => neverPanics_pure _

theorem neverPanics_fromUtf8 (bytes : List UInt8) : NeverPanics (fromUtf8 bytes) := by
  unfold fromUtf8
  split
  · exact neverPanics_pure _
  · exact neverPanics_fail _

theorem dtypeFromId_not_panic (typeId : UInt32) : dtypeFromId typeId ≠ .panic := by
  unfold dtypeFromId
  split <;> exact nofun

theorem neverPanics_lift {α : Type} {x : Outcome ParseError α} (h : x ≠ .panic) :
    NeverPanics (lift x) := by
  cases x with
  | ok v => exact neverPanics_pure v
  | err e => exact neverPanics_fail e
  | panic => exact absurd rfl h

end GgufParser

end TensorGrid
