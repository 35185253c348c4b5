import TensorGrid.ModelFormat.Model

/-!
# The reference serialization

The bytes of a GGUF file, as the reads of the parser spell them out. A `GgufSource` is a value as it
is written: an array carries the type of its elements, which the parsed value no longer has.
`GgufSource.Writable` is well-formedness: the elements of an array have its type, and every buffer
can be allocated. How deep a value is nested is no part of it.
-/

namespace TensorGrid

open Rust Reader

/-- A value as it is written. -/
inductive GgufSource
  | uint8 (v : UInt8)
  | int8 (v : Int8)
  | uint16 (v : UInt16)
  | int16 (v : Int16)
  | uint32 (v : UInt32)
  | int32 (v : Int32)
  | float32 (bits : UInt32)
  | bool (v : Bool)
  | string (v : String)
  | array (elementType : UInt32) (elements : List GgufSource)
  | uint64 (v : UInt64)
  | int64 (v : Int64)
  | float64 (bits : UInt64)

def utf8 (s : String) : List UInt8 := s.toByteArray.data.toList

def stringBytes (s : String) : List UInt8 := toLE 8 (utf8 s).length ++ utf8 s

namespace GgufSource

/-- The type tag. -/
def valueType : GgufSource → UInt32
  | uint8 _ => 0
  | int8 _ => 1
  | uint16 _ => 2
  | int16 _ => 3
  | uint32 _ => 4
  | int32 _ => 5
  | float32 _ => 6
  | bool _ => 7
  | string _ => 8
  | array _ _ => 9
  | uint64 _ => 10
  | int64 _ => 11
  | float64 _ => 12

mutual

/-- The value without the element types. -/
def value : GgufSource → GgufValue
  | uint8 v => .uint8 v
  | int8 v => .int8 v
  | uint16 v => .uint16 v
  | int16 v => .int16 v
  | uint32 v => .uint32 v
  | int32 v => .int32 v
  | float32 bits => .float32 bits
  | bool v => .bool v
  | string v => .string v
  | array _ elements => .array (values elements)
  | uint64 v => .uint64 v
  | int64 v => .int64 v
  | float64 bits => .float64 bits

def values : List GgufSource → List GgufValue
  | [] => []
  | x :: xs => x.value :: values xs

end

mutual

/-- The bytes of a value, without its type tag. -/
def bytes : GgufSource → List UInt8
  | uint8 v => toLE 1 v.toNat
  | int8 v => toLE 1 v.toUInt8.toNat
  | uint16 v => toLE 2 v.toNat
  | int16 v => toLE 2 v.toUInt16.toNat
  | uint32 v => toLE 4 v.toNat
  | int32 v => toLE 4 v.toUInt32.toNat
  | float32 bits => toLE 4 bits.toNat
  | bool v => toLE 1 (if v then 1 else 0)
  | string v => stringBytes v
  | array elementType elements =>
    toLE 4 elementType.toNat ++ (toLE 8 elements.length ++ allBytes elements)
  | uint64 v => toLE 8 v.toNat
  | int64 v => toLE 8 v.toUInt64.toNat
  | float64 bits => toLE 8 bits.toNat

def allBytes : List GgufSource → List UInt8
  | [] => []
  | x :: xs => x.bytes ++ allBytes xs

end

theorem values_eq_map (xs : List GgufSource) : values xs = xs.map value := by
  induction xs with
  | nil => rfl
  | cons x xs ih => rw [values, ih, List.map_cons]

theorem allBytes_eq_flatMap (xs : List GgufSource) : allBytes xs = xs.flatMap bytes := by
  induction xs with
  | nil => rfl
  | cons x xs ih => rw [allBytes, ih, List.flatMap_cons]

end GgufSource

/-! ## Files -/

/-- A tensor as it is written. -/
structure TensorSource where
  name : String
  shape : List UInt64
  typeId : UInt32
  offset : UInt64

def pairBytes (pair : String × GgufSource) : List UInt8 :=
  stringBytes pair.1 ++ (toLE 4 pair.2.valueType.toNat ++ pair.2.bytes)

def TensorSource.bytes (t : TensorSource) : List UInt8 :=
  stringBytes t.name ++ (toLE 4 t.shape.length ++ (t.shape.flatMap (fun d => toLE 8 d.toNat) ++
    (toLE 4 t.typeId.toNat ++ toLE 8 t.offset.toNat)))

/-- Magic, version, the two counts, the pairs and the tensors. -/
def serialize (version : UInt32) (pairs : List (String × GgufSource))
    (tensors : List TensorSource) : List UInt8 :=
  toLE 4 GgufParser.ggufMagic.toNat ++ (toLE 4 version.toNat ++ (toLE 8 tensors.length ++
    (toLE 8 pairs.length ++ (pairs.flatMap pairBytes ++ tensors.flatMap TensorSource.bytes))))

/-- The file before the first pair. -/
def GgufParser.header (version : UInt32) (tensorCount metadataKvCount : Nat) : List UInt8 :=
  toLE 4 ggufMagic.toNat ++ (toLE 4 version.toNat ++ (toLE 8 tensorCount ++
    toLE 8 metadataKvCount))

theorem serialize_eq (version : UInt32) (pairs : List (String × GgufSource))
    (tensors : List TensorSource) : serialize version pairs tensors =
      GgufParser.header version tensors.length pairs.length ++
        (pairs.flatMap pairBytes ++ tensors.flatMap TensorSource.bytes) := by
  simp only [serialize, GgufParser.header, List.append_assoc]

/-- The value of the last pair with the key. -/
def lastValue (pairs : List (String × GgufSource)) (key : String) : Option GgufValue :=
  (pairs.reverse.find? (·.1 = key)).map (·.2.value)

/-! ## Well-formedness -/

/-- The buffer of a string can be allocated. -/
def StringWritable (a : Allocator) (s : String) : Prop := a.fits 1 (utf8 s).length

instance (a : Allocator) (s : String) : Decidable (StringWritable a s) :=
  inferInstanceAs (Decidable (a.fits 1 (utf8 s).length = true))

/-- The elements of an array have its element type, its length is a `u64`, and the buffers of all
strings and arrays can be allocated. -/
inductive GgufSource.Writable (a : Allocator) : GgufSource → Prop
  | uint8 (v : UInt8) : Writable a (.uint8 v)
  | int8 (v : Int8) : Writable a (.int8 v)
  | uint16 (v : UInt16) : Writable a (.uint16 v)
  | int16 (v : Int16) : Writable a (.int16 v)
  | uint32 (v : UInt32) : Writable a (.uint32 v)
  | int32 (v : Int32) : Writable a (.int32 v)
  | float32 (bits : UInt32) : Writable a (.float32 bits)
  | bool (v : Bool) : Writable a (.bool v)
  | string (v : String) : StringWritable a v → Writable a (.string v)
  | array (elementType : UInt32) (elements : List GgufSource) :
      elements.length < 2 ^ 64 → a.fits a.valueSize elements.length →
      (∀ x ∈ elements, x.valueType = elementType) → (∀ x ∈ elements, Writable a x) →
      Writable a (.array elementType elements)
  | uint64 (v : UInt64) : Writable a (.uint64 v)
  | int64 (v : Int64) : Writable a (.int64 v)
  | float64 (bits : UInt64) : Writable a (.float64 bits)

/-- The type id is supported, the number of dimensions is a `u32`, and the buffers can be
allocated. -/
structure TensorSource.Writable (a : Allocator) (t : TensorSource) : Prop where
  name : StringWritable a t.name
  dims : t.shape.length < 2 ^ 32
  shape : a.fits 8 t.shape.length
  supported : ∃ dtype, GgufParser.dtypeFromId t.typeId = .ok dtype

/-- Pairs and tensors that a file can hold. -/
structure FileWritable (a : Allocator) (pairs : List (String × GgufSource))
    (tensors : List TensorSource) : Prop where
  pairCount : pairs.length < 2 ^ 64
  tensorCount : tensors.length < 2 ^ 64
  keys : ∀ p ∈ pairs, StringWritable a p.1
  values : ∀ p ∈ pairs, p.2.Writable a
  tensorBuffer : a.fits a.tensorSize tensors.length
  tensors : ∀ t ∈ tensors, t.Writable a

end TensorGrid
