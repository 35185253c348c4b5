import TensorGrid.ModelFormat.Delimited
import TensorGrid.ModelFormat.Layout

/-!
# The size of a model

`calculate_size` multiplies the dimensions of each tensor and the bytes of its elements, and adds up
the products. The dimensions are whatever the file says, and the arithmetic is that of `u64`: a
build without overflow checks wraps, one with them panics. A size is exact (`SizeExact`) if both
return it without either. `sizeExact_iff`: that is so if the exact size fits into a `u64` and so
does, for each tensor, the product of the dimensions before the first 0, and only then.
-/

namespace TensorGrid

open Rust Reader

def GgufTensor.exactSize (t : GgufTensor) : Nat :=
  (t.shape.map UInt64.toNat).prod * ((GgufParser.dtypeBytes t.dtype).getD 4).toNat

def GgufModel.exactSize (model : GgufModel) : Nat := (model.tensors.map GgufTensor.exactSize).sum

namespace GgufParser

/-! ## Checked sizes -/

variable {model : GgufModel}

theorem tensorSize_eq_ok {t : GgufTensor} {n : UInt64} :
    tensorSize true t = .ok n ↔ leadingProduct t.shape < 2 ^ 64 ∧ n.toNat = t.exactSize := by
  simp only [tensorSize, Outcome.bind_ok, productU64_eq_ok, u64Op_eq_ok]
  constructor
  · rintro ⟨elements, ⟨hlt, helements⟩, hn⟩
    exact ⟨hlt, by rw [hn, helements, GgufTensor.exactSize]⟩
  · rintro ⟨hlt, hn⟩
    have hfits := (prod_le_leadingProduct t.shape).trans_lt hlt
    have helements := UInt64.toNat_ofNat_of_lt' hfits
    exact ⟨_, ⟨hlt, helements⟩, by rw [hn, helements, GgufTensor.exactSize]⟩

theorem calculateSize_eq_ok {size : UInt64} : calculateSize true model = .ok size ↔
    (∀ t ∈ model.tensors, leadingProduct t.shape < 2 ^ 64) ∧ size.toNat = model.exactSize :=
  sumU64_eq_ok fun _ _ _ => tensorSize_eq_ok

theorem tensorSize_of_checked {t : GgufTensor} {n : UInt64} (h : tensorSize true t = .ok n)
    (overflowChecks : Bool) : tensorSize overflowChecks t = .ok n := by
  obtain ⟨elements, helements, hn⟩ := Outcome.bind_ok.1 h
  exact Outcome.bind_ok.2 ⟨elements, productU64_of_checked helements overflowChecks,
    u64Op_of_checked hn overflowChecks⟩

/-! ## Exact sizes -/

/-- Every build returns the exact size: no product and no sum overflows. -/
def SizeExact (model : GgufModel) : Prop :=
  ∃ size : UInt64, size.toNat = model.exactSize ∧
    ∀ overflowChecks, calculateSize overflowChecks model = .ok size

/-- The size fits, and no product is too large until it meets a 0. -/
structure SizeFits (model : GgufModel) : Prop where
  size : model.exactSize < 2 ^ 64
  leading : ∀ t ∈ model.tensors, leadingProduct t.shape < 2 ^ 64

theorem sizeExact_iff_fits : SizeExact model ↔ SizeFits model := by
  constructor
  · rintro ⟨size, hsize, hbuilds⟩
    obtain ⟨hleading, -⟩ := calculateSize_eq_ok.1 (hbuilds true)
    exact ⟨hsize ▸ size.toNat_lt, hleading⟩
  · rintro ⟨hsize, hleading⟩
    have hexact := UInt64.toNat_ofNat_of_lt' hsize
    refine ⟨_, hexact, fun overflowChecks => ?_⟩
    have hchecked := calculateSize_eq_ok.2 ⟨hleading, hexact⟩
    exact sumU64_of_checked (fun t n ht => tensorSize_of_checked ht overflowChecks) hchecked
      overflowChecks

/-! ## Parsed models -/

/-- The 4 bytes for an unknown type are never used. -/
theorem dtypeBytes_isSome {typeId : UInt32} {dtype : String} (h : dtypeFromId typeId = .ok dtype) :
    (dtypeBytes dtype).isSome := by
  unfold dtypeFromId at h
  split at h <;> cases h <;> rfl

theorem readTensorInfo_dtype {a : Allocator} {bs rest : List UInt8} {t : GgufTensor}
    (h : readTensorInfo a bs = .ok (t, rest)) : (dtypeBytes t.dtype).isSome := by
  obtain ⟨name, _, -, h⟩ := bind_ok h
  obtain ⟨nDims, _, -, h⟩ := bind_ok h
  obtain ⟨_, _, -, h⟩ := bind_ok h
  obtain ⟨shape, _, -, h⟩ := bind_ok h
  obtain ⟨typeId, _, -, h⟩ := bind_ok h
  obtain ⟨offset, _, -, h⟩ := bind_ok h
  obtain ⟨dtype, _, hdtype, hpure⟩ := bind_ok h
  cases hpure
  exact dtypeBytes_isSome (lift_ok hdtype).1

theorem parse_dtype {a : Allocator} {file : List UInt8} (h : parse a file = .ok model) :
    ∀ t ∈ model.tensors, (dtypeBytes t.dtype).isSome := by
  obtain ⟨rest, h⟩ := parse_eq_ok.1 h
  obtain ⟨magic, _, -, h⟩ := bind_ok h
  split at h
  · cases h
  · obtain ⟨version, _, -, h⟩ := bind_ok h
    obtain ⟨tensorCount, _, -, h⟩ := bind_ok h
    obtain ⟨metadataKvCount, _, -, h⟩ := bind_ok h
    obtain ⟨metadata, _, -, h⟩ := bind_ok h
    obtain ⟨_, _, -, h⟩ := bind_ok h
    obtain ⟨tensors, _, htensors, hpure⟩ := bind_ok h
    cases hpure
    exact forall_of_many readTensorInfo_dtype htensors

/-- **The size of a parsed model is exact** if it fits and no product is too large before it meets a
0, and only then. The bytes of its elements are known. -/
theorem sizeExact_iff {a : Allocator} {file : List UInt8} (h : parse a file = .ok model) :
    (∀ t ∈ model.tensors, (dtypeBytes t.dtype).isSome) ∧ (SizeExact model ↔ SizeFits model) :=
  ⟨parse_dtype h, sizeExact_iff_fits⟩

/-- A file with one tensor, of 2 × 3 numbers. -/
def matrixFile : List UInt8 := serialize 3 [] [⟨"w", [2, 3], 0, 0⟩]

theorem sizeExact_iff_matrix : ∃ model, parse smallAllocator matrixFile = .ok model ∧
    (∀ t ∈ model.tensors, (dtypeBytes t.dtype).isSome) ∧ (SizeExact model ↔ SizeFits model) := by
  obtain ⟨model, h⟩ : ∃ model, parse smallAllocator matrixFile = .ok model := ⟨_, rfl⟩
  exact ⟨model, h, sizeExact_iff h⟩

/-- A file with one tensor, of 2 ^ 32 × 2 ^ 32 numbers. -/
def wrappingFile : List UInt8 := serialize 3 [] [⟨"w", [4294967296, 4294967296], 0, 0⟩]

/-- Its size is 0, or a panic. -/
theorem not_sizeExact_wrapping : ∃ model, parse smallAllocator wrappingFile = .ok model ∧
    calculateSize false model = .ok 0 ∧ calculateSize true model = .panic ∧ ¬ SizeExact model := by
  obtain ⟨model, h, hfalse, htrue⟩ : ∃ model, parse smallAllocator wrappingFile = .ok model ∧
      calculateSize false model = .ok 0 ∧ calculateSize true model = .panic :=
    ⟨_, rfl, rfl, rfl⟩
  refine ⟨model, h, hfalse, htrue, fun hexact => ?_⟩
  obtain ⟨size, -, hbuilds⟩ := hexact
  cases htrue.symm.trans (hbuilds true)

end GgufParser

end TensorGrid
