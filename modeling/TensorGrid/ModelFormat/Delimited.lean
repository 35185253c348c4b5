import TensorGrid.ModelFormat.Recursion
import TensorGrid.ModelFormat.Serialization

/-!
# Files are self-delimiting

How many bytes a part of the parser takes depends on these bytes alone: the number reads and
`read_exact` are `Delimited`, and bind and the counted loops keep it (`delimited_model`). So what
follows the last tensor never matters, and no truncated file is accepted (`parse_selfDelimiting`).
-/

namespace TensorGrid.GgufParser

open Rust Reader

variable {a : Allocator}

theorem delimited_readU32 : Delimited readU32 := (delimited_le _ _).bind fun _ => delimited_pure _
theorem delimited_readU64 : Delimited readU64 := (delimited_le _ _).bind fun _ => delimited_pure _

theorem delimited_reserve (a : Allocator) (size count : Nat) : Delimited (reserve a size count) := by
  unfold reserve
  split
  · exact delimited_pure ()
  · exact delimited_panic

theorem delimited_fromUtf8 (bs : List UInt8) : Delimited (fromUtf8 bs) := by
  unfold fromUtf8
  split
  · exact delimited_pure _
  · exact delimited_fail _

theorem delimited_readString (a : Allocator) : Delimited (readString a) :=
  delimited_readU64.bind fun _ => (delimited_reserve a _ _).bind fun _ =>
    (delimited_exact _ _).bind fun _ => delimited_fromUtf8 _

/-! ## Values -/

theorem delimited_readValueWith (a : Allocator) {readArray : Parser (List GgufValue)}
    (h : Delimited readArray) (valueType : UInt32) :
    Delimited (readValueWith a readArray valueType) := by
  have hreader := valueReader a readArray valueType
  generalize readValueWith a readArray valueType = r at hreader ⊢
  cases hreader with
  | number => exact (delimited_le _ _).bind fun _ => delimited_pure _
  | string => exact (delimited_readString a).bind fun _ => delimited_pure _
  | array => exact h.bind fun _ => delimited_pure _
  | unknown => exact delimited_fail _

theorem delimited_readArrayWith (a : Allocator) {readElement : UInt32 → Parser GgufValue}
    (h : ∀ e, Delimited (readElement e)) : Delimited (readArrayWith a readElement) :=
  delimited_readU32.bind fun e => delimited_readU64.bind fun _ =>
    (delimited_reserve a _ _).bind fun _ => (h e).many _

theorem delimited_readValue (a : Allocator) (valueType : UInt32) :
    Delimited (readValue a valueType) := by
  rw [readValue, readValueWithin_eq]
  exact iterate_inv delimited_panic
    (fun _ h t => delimited_readValueWith a (delimited_readArrayWith a h) t) a.stack valueType

/-! ## Files -/

theorem delimited_readKvPair (a : Allocator) : Delimited (readKvPair a) :=
  (delimited_readString a).bind fun _ => delimited_readU32.bind fun _ =>
    (delimited_readValue a _).bind fun _ => delimited_pure _

theorem delimited_lift {α : Type} (x : Outcome ParseError α) : Delimited (lift x) := by
  cases x with
  | ok v => exact delimited_pure v
  | err e => exact delimited_fail e
  | panic => exact delimited_panic

theorem delimited_readTensorInfo (a : Allocator) : Delimited (readTensorInfo a) :=
  (delimited_readString a).bind fun _ => delimited_readU32.bind fun _ =>
    (delimited_reserve a _ _).bind fun _ => (delimited_readU64.many _).bind fun _ =>
      delimited_readU32.bind fun _ => delimited_readU64.bind fun _ =>
        (delimited_lift _).bind fun _ => delimited_pure _

theorem delimited_readMetadata (a : Allocator) (n : Nat) (metadata : HashMap String GgufValue) :
    Delimited (readMetadata a n metadata) := by
  induction n generalizing metadata with
  | zero => exact delimited_pure metadata
  | succ n ih => exact (delimited_readKvPair a).bind fun pair => ih _

theorem delimited_model (a : Allocator) : Delimited (readModel a) := by
  refine delimited_readU32.bind fun magic => ?_
  split
  · exact delimited_fail _
  · exact delimited_readU32.bind fun _ => delimited_readU64.bind fun _ =>
      delimited_readU64.bind fun _ => (delimited_readMetadata a _ _).bind fun _ =>
        (delimited_reserve a _ _).bind fun _ => ((delimited_readTensorInfo a).many _).bind fun _ =>
          delimited_pure _

theorem parse_eq_ok {file : List UInt8} {model : GgufModel} :
    parse a file = .ok model ↔ ∃ rest, readModel a file = .ok (model, rest) := by
  rw [parse, Outcome.bind_ok]
  constructor
  · rintro ⟨⟨m, rest⟩, h, ⟨⟩⟩
    exact ⟨rest, h⟩
  · rintro ⟨rest, h⟩
    exact ⟨(model, rest), h, rfl⟩

theorem parse_eq_err {file : List UInt8} {e : ParseError} (h : readModel a file = .err e) :
    parse a file = .err e := by
  rw [parse, h]
  rfl

/-- **Acceptance is self-delimiting**: a file that is accepted after `k` bytes is decided by these
bytes, and none of them can be missing. -/
theorem parse_selfDelimiting {file : List UInt8} {model : GgufModel}
    (h : parse a file = .ok model) :
    ∃ k ≤ file.length, readModel a file = .ok (model, file.drop k) ∧
      (∀ file', file'.take k = file.take k → parse a file' = .ok model) ∧
      ∀ j < k, ∃ e, parse a (file.take j) = .err e := by
  obtain ⟨rest, hrest⟩ := parse_eq_ok.1 h
  obtain ⟨pre, rfl, hreads, hshort⟩ := delimited_model a _ _ _ hrest
  refine ⟨pre.length, ?_, ?_, fun file' hfile' => ?_, fun j hj => ?_⟩
  · rw [List.length_append]
    omega
  · rw [List.drop_left]
    exact hrest
  · rw [List.take_left] at hfile'
    refine parse_eq_ok.2 ⟨file'.drop pre.length, ?_⟩
    conv_lhs => rw [← List.take_append_drop pre.length file', hfile']
    exact hreads _
  · rw [List.take_append_of_le_length hj.le]
    have hne : pre.take j ≠ pre := by
      intro heq
      have := congrArg List.length heq
      rw [List.length_take] at this
      omega
    obtain ⟨e, he⟩ := hshort _ (List.take_prefix j pre) hne
    exact ⟨e, parse_eq_err he⟩

/-- Up to 4096 bytes can be allocated. -/
def smallAllocator : Allocator := ⟨32, 88, fun n => n ≤ 4096, 64⟩

/-- A file with one pair, and a byte after it. -/
def smallFile : List UInt8 := serialize 3 [("a", .uint8 7)] [] ++ [0]

theorem parse_selfDelimiting_small : ∃ model, parse smallAllocator smallFile = .ok model ∧
    ∃ k ≤ smallFile.length, readModel smallAllocator smallFile = .ok (model, smallFile.drop k) ∧
      (∀ file', file'.take k = smallFile.take k → parse smallAllocator file' = .ok model) ∧
      ∀ j < k, ∃ e, parse smallAllocator (smallFile.take j) = .err e := by
  obtain ⟨model, h⟩ : ∃ model, parse smallAllocator smallFile = .ok model := ⟨_, rfl⟩
  exact ⟨model, h, parse_selfDelimiting h⟩

end TensorGrid.GgufParser
