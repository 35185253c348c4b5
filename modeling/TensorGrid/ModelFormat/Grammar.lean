import TensorGrid.Lib.Grammar
import TensorGrid.ModelFormat.Layout

/-!
# The grammar of a file

What a GGUF file is, apart from the parser: the words of `Says` for the values, of `PairSays` and
`TensorSays` for the items, and of `FileSays` for the whole file, each with what it means. A boolean
is any byte, a repeated key means its last value, the type of an array's elements is lost, and no
value is nested deeper than the stack has room for. The parser recognizes this grammar
(`recognizes_readModel`): it accepts exactly the files that begin with a word of it, and returns
what the word means (`parse_eq_ok_iff`). The grammar is unambiguous (`FileSays.unique`) and has the
reference serializations in it (`fileSays_serialize`).
-/

namespace TensorGrid

open Rust Reader

namespace GgufParser

/-! ## The grammar -/

/-- A value of a type, without its type tag, nested as deep as may be. -/
inductive Says (a : Allocator) : UInt32 → GgufValue → List UInt8 → Prop
  | uint8 (v : UInt8) : Says a 0 (.uint8 v) (toLE 1 v.toNat)
  | int8 (v : Int8) : Says a 1 (.int8 v) (toLE 1 v.toUInt8.toNat)
  | uint16 (v : UInt16) : Says a 2 (.uint16 v) (toLE 2 v.toNat)
  | int16 (v : Int16) : Says a 3 (.int16 v) (toLE 2 v.toUInt16.toNat)
  | uint32 (v : UInt32) : Says a 4 (.uint32 v) (toLE 4 v.toNat)
  | int32 (v : Int32) : Says a 5 (.int32 v) (toLE 4 v.toUInt32.toNat)
  | float32 (bits : UInt32) : Says a 6 (.float32 bits) (toLE 4 bits.toNat)
  | bool (b : UInt8) : Says a 7 (.bool (b != 0)) (toLE 1 b.toNat)
  | string (s : String) (h : StringWritable a s) : Says a 8 (.string s) (stringBytes s)
  | array (elementType : UInt32) {elements : List (GgufValue × List UInt8)}
      (hlen : elements.length < 2 ^ 64) (hfits : a.fits a.valueSize elements.length)
      (h : ∀ e ∈ elements, Says a elementType e.1 e.2) :
    Says a 9 (.array (elements.map Prod.fst))
      (toLE 4 elementType.toNat ++ (toLE 8 elements.length ++ elements.flatMap Prod.snd))
  | uint64 (v : UInt64) : Says a 10 (.uint64 v) (toLE 8 v.toNat)
  | int64 (v : Int64) : Says a 11 (.int64 v) (toLE 8 v.toUInt64.toNat)
  | float64 (bits : UInt64) : Says a 12 (.float64 bits) (toLE 8 bits.toNat)

def PairSays (a : Allocator) (pair : String × GgufValue) (w : List UInt8) : Prop :=
  ∃ valueType value, StringWritable a pair.1 ∧ Says a valueType pair.2 value ∧
    pair.2.depth ≤ a.stack ∧ w = stringBytes pair.1 ++ (toLE 4 valueType.toNat ++ value)

def TensorSays (a : Allocator) (tensor : GgufTensor) (w : List UInt8) : Prop :=
  ∃ t : TensorSource, t.Writable a ∧ TensorMatches t tensor ∧ w = t.bytes

/-- Magic, version, the two counts, the pairs and the tensors. -/
structure FileSays (a : Allocator) (model : GgufModel) (w : List UInt8) : Prop where
  tensorBuffer : a.fits a.tensorSize model.tensors.length
  items : ∃ pairs pairWords tensorWords, Sequence (PairSays a) pairs.length pairs pairWords ∧
    Sequence (TensorSays a) model.tensors.length model.tensors tensorWords ∧
    pairs.length < 2 ^ 64 ∧ model.tensors.length < 2 ^ 64 ∧
    model.metadata = pairs.foldl (fun m pair => m.insert pair.1 pair.2) ∅ ∧
    w = header model.version model.tensors.length pairs.length ++ (pairWords ++ tensorWords)

/-! ## Numbers and strings -/

theorem yields_readU8 : Yields readU8 fun v w => w = toLE 1 v.toNat :=
  (yields_le _ 1).map fun v w ⟨hlt, hw⟩ => by rw [hw, UInt8.toNat_ofNat_of_lt' hlt]

theorem yields_readU16 : Yields readU16 fun v w => w = toLE 2 v.toNat :=
  (yields_le _ 2).map fun v w ⟨hlt, hw⟩ => by rw [hw, UInt16.toNat_ofNat_of_lt' hlt]

theorem yields_readU32 : Yields readU32 fun v w => w = toLE 4 v.toNat :=
  (yields_le _ 4).map fun v w ⟨hlt, hw⟩ => by rw [hw, UInt32.toNat_ofNat_of_lt' hlt]

theorem yields_readU64 : Yields readU64 fun v w => w = toLE 8 v.toNat :=
  (yields_le _ 8).map fun v w ⟨hlt, hw⟩ => by rw [hw, UInt64.toNat_ofNat_of_lt' hlt]

theorem yields_reserve (a : Allocator) (size count : Nat) :
    Yields (reserve a size count) fun _ w => a.fits size count ∧ w = [] := by
  intro bs u rest h
  obtain ⟨hfits, rfl⟩ := reserve_ok h
  exact ⟨[], rfl, hfits, rfl⟩

theorem yields_fromUtf8 (bytes : List UInt8) :
    Yields (fromUtf8 bytes) fun s w => utf8 s = bytes ∧ w = [] := by
  intro bs s rest h
  obtain ⟨hs, rfl⟩ := fromUtf8_ok h
  exact ⟨[], rfl, hs, rfl⟩

theorem yields_readString (a : Allocator) :
    Yields (readString a) fun s w => StringWritable a s ∧ w = stringBytes s := by
  have hyields := yields_readU64.bind fun n => (yields_reserve a 1 n.toNat).bind fun _ =>
    (yields_exact ParseError.unexpectedEof n.toNat).bind yields_fromUtf8
  refine hyields.imp fun s w h => ?_
  obtain ⟨n, _, _, rfl, ⟨_, _, _, ⟨hfits, rfl⟩, ⟨bytes, _, _, ⟨hlen, rfl⟩, ⟨rfl, rfl⟩, rfl⟩, rfl⟩,
    rfl⟩ := h
  rw [← hlen] at hfits ⊢
  exact ⟨hfits, by rw [stringBytes, List.nil_append, List.append_nil]⟩

/-! ## Values -/

/-- A value of a type that so many calls can read. -/
def SaysWithin (a : Allocator) (room : Nat) (valueType : UInt32) (v : GgufValue)
    (w : List UInt8) : Prop :=
  Says a valueType v w ∧ v.depth ≤ room

theorem yields_readArrayWith {a : Allocator} {room : Nat} {f : UInt32 → Parser GgufValue}
    (h : ∀ e, Yields (f e) (SaysWithin a room e)) :
    Yields (readArrayWith a f >>= fun v => pure (GgufValue.array v))
      (SaysWithin a (room + 1) 9) := by
  intro bs v rest hread
  obtain ⟨vs, mid, hread, hpure⟩ := bind_ok hread
  cases hpure
  obtain ⟨e, rest₁, h₁, hread⟩ := bind_ok hread
  obtain ⟨n, rest₂, h₂, hread⟩ := bind_ok hread
  obtain ⟨u, rest₃, h₃, hmany⟩ := bind_ok hread
  obtain ⟨hfits, rfl⟩ := reserve_ok h₃
  obtain ⟨_, rfl, elements, hlen, helements, rfl, rfl⟩ := (h e).many _ _ _ _ hmany
  rw [← hlen] at hfits
  refine ⟨_, ?_, .array e (hlen ▸ n.toNat_lt) hfits fun i hi => (helements i hi).1, ?_⟩
  · rw [readU32_ok h₁, readU64_ok h₂, hlen, List.append_assoc, List.append_assoc]
  · refine Nat.succ_le_succ (GgufValue.allDepth_le_iff.2 fun v hv => ?_)
    obtain ⟨i, hi, rfl⟩ := List.mem_map.1 hv
    exact (helements i hi).2

/-- A scalar is read by one call. -/
theorem yields_scalar {a : Allocator} {room : Nat} {valueType : UInt32} {r : Parser GgufValue}
    (h : Yields r fun v w => Says a valueType v w ∧ v.depth = 1) :
    Yields r (SaysWithin a (room + 1) valueType) := by
  refine h.imp fun v w hv => ?_
  obtain ⟨hmeans, hdepth⟩ := hv
  exact ⟨hmeans, hdepth.trans_le (Nat.succ_le_succ (Nat.zero_le room))⟩

theorem yields_valueLevel {a : Allocator} {room : Nat} {f : UInt32 → Parser GgufValue}
    (h : ∀ e, Yields (f e) (SaysWithin a room e)) (valueType : UInt32) :
    Yields (valueLevel a f valueType) (SaysWithin a (room + 1) valueType) := by
  have htype {n : Nat} (hn : n < 2 ^ 32) (hv : valueType.toNat = n) :
      valueType = UInt32.ofNat n := by
    rw [← hv, UInt32.ofNat_toNat]
  unfold valueLevel readValueWith
  split
  · next hv =>
    rw [htype (by decide) hv]
    exact yields_scalar (yields_readU8.map fun v w hw => ⟨hw ▸ .uint8 v, rfl⟩)
  · next hv =>
    rw [htype (by decide) hv]
    exact yields_scalar (yields_readU8.map fun v w hw => ⟨by
      subst hw
      exact .int8 v.toInt8, rfl⟩)
  · next hv =>
    rw [htype (by decide) hv]
    exact yields_scalar (yields_readU16.map fun v w hw => ⟨hw ▸ .uint16 v, rfl⟩)
  · next hv =>
    rw [htype (by decide) hv]
    exact yields_scalar (yields_readU16.map fun v w hw => ⟨by
      subst hw
      exact .int16 v.toInt16, rfl⟩)
  · next hv =>
    rw [htype (by decide) hv]
    exact yields_scalar (yields_readU32.map fun v w hw => ⟨hw ▸ .uint32 v, rfl⟩)
  · next hv =>
    rw [htype (by decide) hv]
    exact yields_scalar (yields_readU32.map fun v w hw => ⟨by
      subst hw
      exact .int32 v.toInt32, rfl⟩)
  · next hv =>
    rw [htype (by decide) hv]
    exact yields_scalar (yields_readU32.map fun v w hw => ⟨hw ▸ .float32 v, rfl⟩)
  · next hv =>
    rw [htype (by decide) hv]
    exact yields_scalar (yields_readU8.map fun v w hw => ⟨hw ▸ .bool v, rfl⟩)
  · next hv =>
    rw [htype (by decide) hv]
    exact yields_scalar ((yields_readString a).map fun s w ⟨hs, hw⟩ => ⟨hw ▸ .string s hs, rfl⟩)
  · next hv =>
    rw [htype (by decide) hv]
    exact yields_readArrayWith h
  · next hv =>
    rw [htype (by decide) hv]
    exact yields_scalar (yields_readU64.map fun v w hw => ⟨hw ▸ .uint64 v, rfl⟩)
  · next hv =>
    rw [htype (by decide) hv]
    exact yields_scalar (yields_readU64.map fun v w hw => ⟨by
      subst hw
      exact .int64 v.toInt64, rfl⟩)
  · next hv =>
    rw [htype (by decide) hv]
    exact yields_scalar (yields_readU64.map fun v w hw => ⟨hw ▸ .float64 v, rfl⟩)
  · exact yields_fail _

theorem yields_readValueWithin (a : Allocator) (room : Nat) (valueType : UInt32) :
    Yields (readValueWithin a room valueType) (SaysWithin a room valueType) := by
  induction room generalizing valueType with
  | zero => exact yields_panic
  | succ room ih => exact yields_valueLevel ih valueType

/-- **A value is read from each of its words**, by as many calls as it is deep. -/
theorem reads_word {a : Allocator} {valueType : UInt32} {v : GgufValue} {w : List UInt8}
    (h : Says a valueType v w) {room : Nat} (hroom : v.depth ≤ room) :
    Reads (readValueWithin a room valueType) w v := by
  obtain ⟨room, rfl⟩ : ∃ n, room = n + 1 :=
    Nat.exists_eq_succ_of_ne_zero (v.depth_pos.trans_le hroom).ne'
  induction h generalizing room with
  | uint8 v => exact reads_value (.uint8 v) hroom
  | int8 v => exact reads_value (.int8 v) hroom
  | uint16 v => exact reads_value (.uint16 v) hroom
  | int16 v => exact reads_value (.int16 v) hroom
  | uint32 v => exact reads_value (.uint32 v) hroom
  | int32 v => exact reads_value (.int32 v) hroom
  | float32 bits => exact reads_value (.float32 bits) hroom
  | bool b => exact (reads_readU8 b).map fun b => GgufValue.bool (b != 0)
  | string s h => exact (reads_string h).map GgufValue.string
  | @array elementType elements hlen hfits _ ih =>
    obtain ⟨n, hn, hlength⟩ := reads_length hlen
    have hdepths := GgufValue.allDepth_le_iff.1 (Nat.le_of_succ_le_succ hroom)
    have helements : Reads (many (readValueWithin a room elementType) elements.length)
        (elements.flatMap Prod.snd) (elements.map Prod.fst) := by
      refine Reads.many fun e he => ?_
      have hdepth := hdepths e.1 (List.mem_map_of_mem he)
      obtain ⟨room, rfl⟩ : ∃ n, room = n + 1 :=
        Nat.exists_eq_succ_of_ne_zero (e.1.depth_pos.trans_le hdepth).ne'
      exact ih e he room hdepth
    have harray : Reads (readArrayWith a (readValueWithin a room))
        (toLE 4 elementType.toNat ++ (toLE 8 elements.length ++ elements.flatMap Prod.snd))
        (elements.map Prod.fst) := by
      refine (reads_readU32 elementType).bind (hlength.bind ?_)
      rw [hn]
      exact (reads_reserve hfits).skip helements
    exact harray.map GgufValue.array
  | uint64 v => exact reads_value (.uint64 v) hroom
  | int64 v => exact reads_value (.int64 v) hroom
  | float64 bits => exact reads_value (.float64 bits) hroom

/-! ## Items -/

theorem recognizes_readKvPair (a : Allocator) : Recognizes (readKvPair a) (PairSays a) where
  yields := by
    have hyields := (yields_readString a).bind fun key => yields_readU32.bind fun valueType =>
      (yields_readValueWithin a a.stack valueType).map (f := fun value => (key, value))
        (H := fun pair w => pair.1 = key ∧ SaysWithin a a.stack valueType pair.2 w)
        fun _ _ h => ⟨rfl, h⟩
    refine hyields.imp fun pair w h => ?_
    obtain ⟨_, _, _, ⟨hkey, rfl⟩, ⟨valueType, _, value, rfl, ⟨rfl, hvalue, hdepth⟩, rfl⟩,
      rfl⟩ := h
    exact ⟨valueType, value, hkey, hvalue, hdepth, rfl⟩
  reads := by
    rintro ⟨key, value⟩ _ ⟨valueType, w, hkey, hvalue, hdepth, rfl⟩
    exact (reads_string hkey).bind
      ((reads_readU32 valueType).bind ((reads_word hvalue hdepth).map fun v => (key, v)))

theorem recognizes_readTensorInfo (a : Allocator) :
    Recognizes (readTensorInfo a) (TensorSays a) where
  yields := by
    intro bs t rest hread
    obtain ⟨name, rest₁, h₁, hread⟩ := bind_ok hread
    obtain ⟨nDims, rest₂, h₂, hread⟩ := bind_ok hread
    obtain ⟨u, rest₃, h₃, hread⟩ := bind_ok hread
    obtain ⟨shape, rest₄, h₄, hread⟩ := bind_ok hread
    obtain ⟨typeId, rest₅, h₅, hread⟩ := bind_ok hread
    obtain ⟨offset, rest₆, h₆, hread⟩ := bind_ok hread
    obtain ⟨dtype, rest₇, h₇, hpure⟩ := bind_ok hread
    cases hpure
    obtain ⟨hdtype, rfl⟩ := lift_ok h₇
    obtain ⟨hfits, rfl⟩ := reserve_ok h₃
    obtain ⟨rfl, hlen⟩ := many_eq_ok readU64_ok h₄
    obtain ⟨_, rfl, hname, rfl⟩ := yields_readString a _ _ _ h₁
    rw [← hlen] at hfits
    refine ⟨_, ?_, ⟨name, shape, typeId, offset⟩,
      ⟨hname, hlen ▸ nDims.toNat_lt, hfits, dtype, hdtype⟩, ⟨rfl, rfl, rfl, hdtype⟩, rfl⟩
    rw [readU32_ok h₂, readU32_ok h₅, readU64_ok h₆, TensorSource.bytes, hlen]
    simp only [List.append_assoc]
  reads := by
    rintro ⟨name, shape, dtype, offset⟩ _ ⟨t, ht, ⟨hname, hshape, hoffset, hdtype⟩, rfl⟩
    have hreads := reads_tensorInfo ht hdtype
    rwa [← hname, ← hshape, ← hoffset] at hreads

/-! ## Files -/

theorem recognizes_readModel (a : Allocator) : Recognizes (readModel a) (FileSays a) where
  yields := by
    intro bs model rest hread
    obtain ⟨magic, rest₁, h₁, hread⟩ := bind_ok hread
    split at hread
    · cases hread
    next hmagic =>
    obtain ⟨version, rest₂, h₂, hread⟩ := bind_ok hread
    obtain ⟨tensorCount, rest₃, h₃, hread⟩ := bind_ok hread
    obtain ⟨metadataKvCount, rest₄, h₄, hread⟩ := bind_ok hread
    rw [readMetadata_eq_many, bind_assoc] at hread
    obtain ⟨pairs, rest₅, h₅, hread⟩ := bind_ok hread
    obtain ⟨metadata, _, hmetadata, hread⟩ := bind_ok hread
    cases hmetadata
    obtain ⟨u, rest₆, h₆, hread⟩ := bind_ok hread
    obtain ⟨tensors, rest₇, h₇, hpure⟩ := bind_ok hread
    cases hpure
    obtain ⟨hfits, rfl⟩ := reserve_ok h₆
    obtain ⟨pairWords, rfl, hpairs⟩ := (recognizes_readKvPair a).yields.many _ _ _ _ h₅
    obtain ⟨tensorWords, rfl, htensors⟩ := (recognizes_readTensorInfo a).yields.many _ _ _ _ h₇
    have hpairCount := hpairs.length_eq
    have htensorCount := htensors.length_eq
    rw [← hpairCount] at hpairs
    rw [← htensorCount] at hfits htensors
    refine ⟨_, ?_, hfits, pairs, pairWords, tensorWords, hpairs, htensors,
      hpairCount ▸ metadataKvCount.toNat_lt, htensorCount ▸ tensorCount.toNat_lt, rfl, rfl⟩
    rw [readU32_ok h₁, readU32_ok h₂, readU64_ok h₃, readU64_ok h₄, not_not.1 hmagic, header,
      hpairCount, htensorCount]
    simp only [List.append_assoc]
  reads := by
    rintro ⟨version, metadata, tensors⟩ w ⟨hfits, pairs, pairWords, tensorWords, hpairs, htensors,
      hpairCount, htensorCount, hmetadata, rfl⟩
    obtain ⟨k, hk, hreadsPairCount⟩ := reads_length hpairCount
    obtain ⟨n, hn, hreadsTensorCount⟩ := reads_length htensorCount
    have hreadsPairs := reads_sequence (hpairs.imp (recognizes_readKvPair a).reads)
    have hreadsTensors := reads_sequence (htensors.imp (recognizes_readTensorInfo a).reads)
    rw [header, List.append_assoc, List.append_assoc, List.append_assoc]
    refine (reads_readU32 ggufMagic).bind ?_
    rw [if_neg (not_not.2 rfl)]
    refine (reads_readU32 version).bind (hreadsTensorCount.bind (hreadsPairCount.bind ?_))
    rw [hk, hn, readMetadata_eq_many, bind_assoc]
    refine hreadsPairs.bind ((reads_pure _).skip ((reads_reserve hfits).skip ?_))
    rw [← hmetadata]
    exact hreadsTensors.map fun tensors => (⟨version, metadata, tensors⟩ : GgufModel)

/-- **The parser by its grammar**: it accepts the files that begin with a word of the grammar, and
returns what the word means. -/
theorem parse_eq_ok_iff (a : Allocator) (file : List UInt8) (model : GgufModel) :
    parse a file = .ok model ↔ ∃ w trailing, file = w ++ trailing ∧ FileSays a model w := by
  constructor
  · intro h
    obtain ⟨⟨model', trailing⟩, hread, hpure⟩ := Outcome.bind_ok.1 h
    cases hpure
    obtain ⟨w, hfile, hw⟩ := (recognizes_readModel a).eq_ok_iff.1 hread
    exact ⟨w, trailing, hfile, hw⟩
  · intro h
    obtain ⟨w, trailing, hfile, hw⟩ := h
    have hread := (recognizes_readModel a).eq_ok_iff.2 ⟨w, hfile, hw⟩
    rw [parse, hread]
    rfl

/-- A file is read in one way only: no word begins another one, and none means two models. -/
theorem FileSays.unique {a : Allocator} {model model' : GgufModel}
    {w w' trailing trailing' : List UInt8} (h : FileSays a model w) (h' : FileSays a model' w')
    (heq : w ++ trailing = w' ++ trailing') : model = model' ∧ w = w' ∧ trailing = trailing' :=
  (recognizes_readModel a).unique h h' heq

/-- The reference serializations are words of the grammar, unless they are nested too deep. -/
theorem fileSays_serialize {a : Allocator} {pairs : List (String × GgufSource)}
    {tensors : List TensorSource} (version : UInt32) (h : FileWritable a pairs tensors)
    (hdepths : ∀ p ∈ pairs, p.2.value.depth ≤ a.stack) :
    ∃ model, FileSays a model (serialize version pairs tensors) ∧
      model.metadata = insertPairs pairs ∅ := by
  obtain ⟨tensors', -, hreads⟩ := reads_model version h hdepths
  obtain ⟨w, hw, hsays⟩ := (recognizes_readModel a).eq_ok_iff.1 (hreads [])
  rw [List.append_nil, List.append_nil] at hw
  exact ⟨_, hw ▸ hsays, rfl⟩

end GgufParser

end TensorGrid
