import TensorGrid.Lib.HashMap
import TensorGrid.Lib.Memory
import TensorGrid.Lib.Overflow
import TensorGrid.Lib.Reader

/-!
# The GGUF parser

The parser of `crates/model-format`. A file is its bytes; the only input error is its end. Every
buffer is allocated for its declared length before it is filled: `Allocator` says which sizes can be
allocated and how deep calls may nest, and a size that cannot be allocated or a call too deep ends
the program (`Outcome.panic`). `usize` has 64 bits, `f32` and `f64` are their bit patterns.

`read_value` and `read_array` call each other: `readValueWith` and `readArrayWith` are their bodies
with the other function as an argument, and `readValueWithin` ties them together, one call less on
the stack for each level.
-/

namespace TensorGrid

open Rust

/-! ## Values -/

inductive GgufValue
  | uint8 (v : UInt8)
  | int8 (v : Int8)
  | uint16 (v : UInt16)
  | int16 (v : Int16)
  | uint32 (v : UInt32)
  | int32 (v : Int32)
  | float32 (bits : UInt32)
  | bool (v : Bool)
  | string (v : String)
  | array (v : List GgufValue)
  | uint64 (v : UInt64)
  | int64 (v : Int64)
  | float64 (bits : UInt64)

structure GgufTensor where
  name : String
  shape : List UInt64
  dtype : String
  offset : UInt64
deriving DecidableEq, Repr

structure GgufModel where
  version : UInt32
  metadata : HashMap String GgufValue
  tensors : List GgufTensor

inductive ParseError
  | unexpectedEof
  | invalidUtf8
  | message (text : String)
deriving DecidableEq, Repr

/-- The sizes of the elements of the two vectors, the sizes in bytes that can be allocated, and the
number of calls of `read_value`, each inside the one before, that the stack has room for. -/
structure Allocator where
  valueSize : Nat
  tensorSize : Nat
  allocates : Nat → Bool
  stack : Nat

/-- A buffer of `count` elements can be allocated. -/
def Allocator.fits (a : Allocator) (size count : Nat) : Bool :=
  Rust.fits a.allocates (size * count)

namespace GgufParser

open Reader

abbrev Parser (α : Type) := Reader ParseError α

/-- `GGUF` as a little-endian number. -/
def ggufMagic : UInt32 := 0x46554747

/-! ## Numbers and strings -/

def readU8 : Parser UInt8 := do
  let v ← le .unexpectedEof 1
  pure (UInt8.ofNat v)

def readU16 : Parser UInt16 := do
  let v ← le .unexpectedEof 2
  pure (UInt16.ofNat v)

def readU32 : Parser UInt32 := do
  let v ← le .unexpectedEof 4
  pure (UInt32.ofNat v)

def readU64 : Parser UInt64 := do
  let v ← le .unexpectedEof 8
  pure (UInt64.ofNat v)

/-- `vec![0; n]` and `Vec::with_capacity(n)`. -/
def reserve (a : Allocator) (size count : Nat) : Parser Unit :=
  if a.fits size count then pure () else panic

def fromUtf8 (bytes : List UInt8) : Parser String :=
  match String.fromUTF8? ⟨bytes.toArray⟩ with
  | some s => pure s
  | none => fail .invalidUtf8

/-- A length and that many bytes of UTF-8. -/
def readString (a : Allocator) : Parser String := do
  let length ← readU64
  reserve a 1 length.toNat
  let bytes ← exact .unexpectedEof length.toNat
  fromUtf8 bytes

/-! ## Values and arrays -/

/-- `read_value`, with `readArray` for the array case. -/
def readValueWith (a : Allocator) (readArray : Parser (List GgufValue)) (valueType : UInt32) :
    Parser GgufValue :=
  match valueType.toNat with
  | 0 => do
    let v ← readU8
    pure (.uint8 v)
  | 1 => do
    let v ← readU8
    pure (.int8 v.toInt8)
  | 2 => do
    let v ← readU16
    pure (.uint16 v)
  | 3 => do
    let v ← readU16
    pure (.int16 v.toInt16)
  | 4 => do
    let v ← readU32
    pure (.uint32 v)
  | 5 => do
    let v ← readU32
    pure (.int32 v.toInt32)
  | 6 => do
    let v ← readU32
    pure (.float32 v)
  | 7 => do
    let v ← readU8
    pure (.bool (v != 0))
  | 8 => do
    let v ← readString a
    pure (.string v)
  | 9 => do
    let v ← readArray
    pure (.array v)
  | 10 => do
    let v ← readU64
    pure (.uint64 v)
  | 11 => do
    let v ← readU64
    pure (.int64 v.toInt64)
  | 12 => do
    let v ← readU64
    pure (.float64 v)
  | _ => fail (.message ("Unknown value type: " ++ toString valueType))

/-- `read_array`, with `readElement` for the elements. -/
def readArrayWith (a : Allocator) (readElement : UInt32 → Parser GgufValue) :
    Parser (List GgufValue) := do
  let elementType ← readU32
  let length ← readU64
  reserve a a.valueSize length.toNat
  many (readElement elementType) length.toNat

/-- `read_value` with room for that many calls. Without room the stack overflows, whatever the
type. -/
def readValueWithin (a : Allocator) : Nat → UInt32 → Parser GgufValue
  | 0, _ => panic
  | room + 1, valueType => readValueWith a (readArrayWith a (readValueWithin a room)) valueType

/-- `read_value`, called by `read_kv_pair`. -/
def readValue (a : Allocator) : UInt32 → Parser GgufValue := readValueWithin a a.stack

def readKvPair (a : Allocator) : Parser (String × GgufValue) := do
  let key ← readString a
  let valueType ← readU32
  let value ← readValue a valueType
  pure (key, value)

/-! ## Tensors -/

def dtypeFromId (typeId : UInt32) : Outcome ParseError String :=
  match typeId.toNat with
  | 0 => .ok "f32"
  | 1 => .ok "f16"
  | 2 => .ok "q4_0"
  | 3 => .ok "q4_1"
  | 6 => .ok "q5_0"
  | 7 => .ok "q5_1"
  | 8 => .ok "q8_0"
  | 9 => .ok "q8_1"
  | 10 => .ok "i8"
  | 11 => .ok "i16"
  | 12 => .ok "i32"
  | _ => .err (.message ("Unknown type ID: " ++ toString typeId))

/-- A result inside a reader. -/
def lift {α : Type} (x : Outcome ParseError α) : Parser α :=
  match x with
  | .ok v => pure v
  | .err e => fail e
  | .panic => panic

def readTensorInfo (a : Allocator) : Parser GgufTensor := do
  let name ← readString a
  let nDims ← readU32
  reserve a 8 nDims.toNat
  let shape ← many readU64 nDims.toNat
  let typeId ← readU32
  let offset ← readU64
  let dtype ← lift (dtypeFromId typeId)
  pure { name, shape, dtype, offset }

/-! ## Files -/

/-- The loop over the metadata: a pair replaces an earlier one with its key. -/
def readMetadata (a : Allocator) :
    Nat → HashMap String GgufValue → Parser (HashMap String GgufValue)
  | 0, metadata => pure metadata
  | n + 1, metadata => do
    let pair ← readKvPair a
    readMetadata a n (metadata.insert pair.1 pair.2)

def readModel (a : Allocator) : Parser GgufModel := do
  let magic ← readU32
  if magic ≠ ggufMagic then fail (.message "Invalid GGUF magic number")
  else
    let version ← readU32
    let tensorCount ← readU64
    let metadataKvCount ← readU64
    let metadata ← readMetadata a metadataKvCount.toNat ∅
    reserve a a.tensorSize tensorCount.toNat
    let tensors ← many (readTensorInfo a) tensorCount.toNat
    pure { version, metadata, tensors }

/-- The bytes after the last tensor are not looked at. -/
def parse (a : Allocator) (file : List UInt8) : Outcome ParseError GgufModel := do
  let r ← readModel a file
  pure r.1

end GgufParser

/-! ## Metadata -/

def GgufValue.asString : GgufValue → Option String
  | .string s => some s
  | _ => none

def GgufValue.asU64 : GgufValue → Option UInt64
  | .uint8 v => some v.toUInt64
  | .uint16 v => some v.toUInt64
  | .uint32 v => some v.toUInt64
  | .uint64 v => some v
  | _ => none

namespace GgufParser

def getArchitecture (model : GgufModel) : Option String :=
  (model.metadata.lookup "general.architecture").bind GgufValue.asString

def getParameterCount (model : GgufModel) : Option UInt64 :=
  (model.metadata.lookup "llama.block_count").bind GgufValue.asU64

def getContextLength (model : GgufModel) : Option UInt64 :=
  (model.metadata.lookup "llama.context_length").bind GgufValue.asU64

/-! ## Size -/

/-- The bytes of an element; a quantized one is counted as a whole byte. -/
def dtypeBytes (dtype : String) : Option UInt64 :=
  match dtype with
  | "f32" => some 4
  | "f16" => some 2
  | "q4_0" | "q4_1" => some 1
  | "q5_0" | "q5_1" => some 1
  | "q8_0" | "q8_1" => some 1
  | "i8" => some 1
  | "i16" => some 2
  | "i32" => some 4
  | _ => none

/-- The closure of `calculate_size`. -/
def tensorSize (overflowChecks : Bool) (t : GgufTensor) : Outcome Empty UInt64 := do
  let elements ← productU64 overflowChecks t.shape
  let bytesPerElement := (dtypeBytes t.dtype).getD 4
  u64Op overflowChecks (elements.toNat * bytesPerElement.toNat)

def calculateSize (overflowChecks : Bool) (model : GgufModel) : Outcome Empty UInt64 :=
  sumU64 overflowChecks (tensorSize overflowChecks) model.tensors

end GgufParser

end TensorGrid
