import TensorGrid.ModelFormat.Recursion
import TensorGrid.ModelFormat.Serialization

/-!
# Parsing inverts serialization

* `reads_value`: a value is read from exactly its bytes, by induction on its well-formedness, if the
  stack has room for its depth; the strings, pairs and tensors likewise (`reads_string`,
  `reads_kvPair`, `reads_tensorInfo`). One that is nested deeper overflows (`overflows_value`).
* `parse_serialize_iff`: the whole file, with anything after it.
-/

namespace TensorGrid

open Rust Reader

namespace GgufParser

/-! ## Numbers and strings -/

theorem reads_readU8 (v : UInt8) : Reads readU8 (toLE 1 v.toNat) v := by
  have h := (reads_le ParseError.unexpectedEof (n := 1) v.toNat_lt).map UInt8.ofNat
  rwa [UInt8.ofNat_toNat] at h

theorem reads_readU16 (v : UInt16) : Reads readU16 (toLE 2 v.toNat) v := by
  have h := (reads_le ParseError.unexpectedEof (n := 2) v.toNat_lt).map UInt16.ofNat
  rwa [UInt16.ofNat_toNat] at h

theorem reads_readU32 (v : UInt32) : Reads readU32 (toLE 4 v.toNat) v := by
  have h := (reads_le ParseError.unexpectedEof (n := 4) v.toNat_lt).map UInt32.ofNat
  rwa [UInt32.ofNat_toNat] at h

theorem reads_readU64 (v : UInt64) : Reads readU64 (toLE 8 v.toNat) v := by
  have h := (reads_le ParseError.unexpectedEof (n := 8) v.toNat_lt).map UInt64.ofNat
  rwa [UInt64.ofNat_toNat] at h

/-- A length that fits into a `u64`. -/
theorem reads_length {n : Nat} (h : n < 2 ^ 64) :
    ∃ v : UInt64, v.toNat = n ∧ Reads readU64 (toLE 8 n) v := by
  have hn : (UInt64.ofNat n).toNat = n := UInt64.toNat_ofNat_of_lt' h
  refine ⟨UInt64.ofNat n, hn, ?_⟩
  have hreads := reads_readU64 (UInt64.ofNat n)
  rwa [hn] at hreads

theorem reads_reserve {a : Allocator} {size count : Nat} (h : a.fits size count) :
    Reads (reserve a size count) [] () := by
  rw [reserve, if_pos h]
  exact reads_pure ()

theorem reads_fromUtf8 (s : String) : Reads (fromUtf8 (utf8 s)) [] s := by
  have hdecode : String.fromUTF8? ⟨(utf8 s).toArray⟩ = some s := dif_pos s.isValidUTF8
  rw [fromUtf8, hdecode]
  exact reads_pure s

theorem reads_string {a : Allocator} {s : String} (h : StringWritable a s) :
    Reads (readString a) (stringBytes s) s := by
  have hlt := lt_of_fits h
  rw [Nat.one_mul] at hlt
  obtain ⟨n, hn, hreads⟩ := reads_length (hlt.trans (by decide))
  refine hreads.bind ?_
  rw [hn]
  exact (reads_reserve h).skip
    ((reads_exact ParseError.unexpectedEof (utf8 s)).last (reads_fromUtf8 s))

/-! ## Values -/

theorem reads_bool (v : Bool) : Reads (readU8 >>= fun b => pure (GgufValue.bool (b != 0)))
    (toLE 1 (if v then 1 else 0)) (.bool v) := by
  cases v with
  | true => exact (reads_readU8 1).map fun b => GgufValue.bool (b != 0)
  | false => exact (reads_readU8 0).map fun b => GgufValue.bool (b != 0)

/-- A value is read from exactly its bytes, if the stack has room for its depth. -/
theorem reads_value {a : Allocator} {x : GgufSource} (h : x.Writable a) {room : Nat}
    (hroom : x.value.depth ≤ room) :
    Reads (readValueWithin a room x.valueType) x.bytes x.value := by
  obtain ⟨room, rfl⟩ : ∃ n, room = n + 1 :=
    Nat.exists_eq_succ_of_ne_zero (x.value.depth_pos.trans_le hroom).ne'
  induction h generalizing room with
  | uint8 v => exact (reads_readU8 v).map GgufValue.uint8
  | int8 v => exact (reads_readU8 v.toUInt8).map fun b => GgufValue.int8 b.toInt8
  | uint16 v => exact (reads_readU16 v).map GgufValue.uint16
  | int16 v => exact (reads_readU16 v.toUInt16).map fun b => GgufValue.int16 b.toInt16
  | uint32 v => exact (reads_readU32 v).map GgufValue.uint32
  | int32 v => exact (reads_readU32 v.toUInt32).map fun b => GgufValue.int32 b.toInt32
  | float32 bits => exact (reads_readU32 bits).map GgufValue.float32
  | bool v => exact reads_bool v
  | string v hv => exact (reads_string hv).map GgufValue.string
  | array elementType elements hlen hfits htype _ ih =>
    obtain ⟨n, hn, hlength⟩ := reads_length hlen
    have hdepths : ∀ x ∈ elements, x.value.depth ≤ room := by
      rw [GgufSource.value, GgufSource.values_eq_map] at hroom
      exact List.forall_mem_map.1 (GgufValue.allDepth_le_iff.1 (Nat.le_of_succ_le_succ hroom))
    have helements : Reads (many (readValueWithin a room elementType) elements.length)
        (elements.flatMap GgufSource.bytes) (elements.map GgufSource.value) := by
      refine Reads.many fun x hx => ?_
      obtain ⟨room, rfl⟩ : ∃ n, room = n + 1 :=
        Nat.exists_eq_succ_of_ne_zero (x.value.depth_pos.trans_le (hdepths x hx)).ne'
      exact htype x hx ▸ ih x hx room (hdepths x hx)
    have harray : Reads (readArrayWith a (readValueWithin a room))
        (GgufSource.array elementType elements).bytes (elements.map GgufSource.value) := by
      rw [GgufSource.bytes, GgufSource.allBytes_eq_flatMap]
      refine (reads_readU32 elementType).bind (hlength.bind ?_)
      rw [hn]
      exact (reads_reserve hfits).skip helements
    rw [GgufSource.value, GgufSource.values_eq_map]
    exact harray.map GgufValue.array
  | uint64 v => exact (reads_readU64 v).map GgufValue.uint64
  | int64 v => exact (reads_readU64 v.toUInt64).map fun b => GgufValue.int64 b.toInt64
  | float64 bits => exact (reads_readU64 bits).map GgufValue.float64

/-- A value that is nested deeper overflows the stack: some element does, on the room that is
left, and those before it pass. -/
theorem overflows_value {a : Allocator} {x : GgufSource} (h : x.Writable a) {room : Nat}
    (hroom : room < x.value.depth) (rest : List UInt8) :
    readValueWithin a room x.valueType (x.bytes ++ rest) = .panic := by
  induction h generalizing room rest with
  | array elementType elements hlen hfits htype hall ih =>
    cases room with
    | zero => rfl
    | succ room =>
      have hdeep : ¬ ∀ x ∈ elements, x.value.depth ≤ room := by
        rw [GgufSource.value, GgufSource.values_eq_map] at hroom
        intro hall
        have hle := GgufValue.allDepth_le_iff.2 (List.forall_mem_map.2 hall)
        exact absurd hroom (Nat.not_lt_of_le (Nat.succ_le_succ hle))
      push Not at hdeep
      obtain ⟨x, hx, hdepth⟩ := hdeep
      have hpasses : ∀ y ∈ elements, ∀ rest,
          Passes (readValueWithin a room elementType) (y.bytes ++ rest) rest := by
        intro y hy rest
        rw [← htype y hy]
        by_cases hfitsY : y.value.depth ≤ room
        · exact (reads_value (hall y hy) hfitsY).passes rest
        · exact .inr (ih y hy (Nat.lt_of_not_le hfitsY) rest)
      have hpanic := many_panics_of_mem hpasses hx
        (fun rest => htype x hx ▸ ih x hx hdepth rest) rest
      obtain ⟨n, hn, hlength⟩ := reads_length hlen
      rw [GgufSource.bytes, GgufSource.allBytes_eq_flatMap, List.append_assoc, List.append_assoc]
      refine map_panics.2 ((bind_eq (reads_readU32 elementType _)).trans
        ((bind_eq (hlength _)).trans ?_))
      rw [hn]
      exact (bind_eq (reads_reserve hfits _)).trans hpanic
  | _ =>
    obtain rfl := Nat.lt_one_iff.1 hroom
    rfl

theorem reads_kvPair {a : Allocator} {p : String × GgufSource} (hkey : StringWritable a p.1)
    (hvalue : p.2.Writable a) (hdepth : p.2.value.depth ≤ a.stack) :
    Reads (readKvPair a) (pairBytes p) (p.1, p.2.value) :=
  (reads_string hkey).bind
    ((reads_readU32 _).bind ((reads_value hvalue hdepth).map fun v => (p.1, v)))

theorem overflows_kvPair {a : Allocator} {p : String × GgufSource} (hkey : StringWritable a p.1)
    (hvalue : p.2.Writable a) (hdepth : a.stack < p.2.value.depth) (rest : List UInt8) :
    readKvPair a (pairBytes p ++ rest) = .panic := by
  rw [pairBytes, List.append_assoc, List.append_assoc]
  refine (bind_eq (reads_string hkey _)).trans ((bind_eq (reads_readU32 p.2.valueType _)).trans ?_)
  exact map_panics.2 (overflows_value hvalue hdepth rest)

/-! ## Tensors and files -/

theorem reads_tensorInfo {a : Allocator} {t : TensorSource} {dtype : String} (h : t.Writable a)
    (hdtype : dtypeFromId t.typeId = .ok dtype) :
    Reads (readTensorInfo a) t.bytes ⟨t.name, t.shape, dtype, t.offset⟩ := by
  have hdims : (UInt32.ofNat t.shape.length).toNat = t.shape.length :=
    UInt32.toNat_ofNat_of_lt' h.dims
  have hcount := reads_readU32 (UInt32.ofNat t.shape.length)
  rw [hdims] at hcount
  have hshape : Reads (many readU64 t.shape.length) (t.shape.flatMap fun d => toLE 8 d.toNat)
      t.shape := by
    have hmany : Reads (many readU64 t.shape.length) (t.shape.flatMap fun d => toLE 8 d.toNat)
        (t.shape.map id) := Reads.many fun d _ => reads_readU64 d
    rwa [List.map_id] at hmany
  have hlift : Reads (lift (dtypeFromId t.typeId)) [] dtype := by
    rw [hdtype]
    exact reads_pure dtype
  refine (reads_string h.name).bind (hcount.bind ?_)
  rw [hdims]
  refine (reads_reserve h.shape).skip (hshape.bind ((reads_readU32 t.typeId).bind ?_))
  exact (reads_readU64 t.offset).last (hlift.map fun dtype =>
    (⟨t.name, t.shape, dtype, t.offset⟩ : GgufTensor))

/-- The loop over the metadata reads the pairs, then inserts them. -/
theorem readMetadata_eq_many {a : Allocator} (n : Nat) (metadata : HashMap String GgufValue) :
    readMetadata a n metadata = many (readKvPair a) n >>= fun pairs =>
      pure (pairs.foldl (fun m pair => m.insert pair.1 pair.2) metadata) := by
  induction n generalizing metadata with
  | zero => rfl
  | succ n ih =>
    rw [readMetadata, many, bind_assoc]
    refine congrArg (readKvPair a >>= ·) (funext fun pair => ?_)
    rw [ih, map_map]
    rfl

/-- Inserting the pairs one after the other. -/
def insertPairs (pairs : List (String × GgufSource)) (metadata : HashMap String GgufValue) :
    HashMap String GgufValue :=
  pairs.foldl (fun m p => m.insert p.1 p.2.value) metadata

theorem lookup_insertPairs (pairs : List (String × GgufSource))
    (metadata : HashMap String GgufValue) (key : String) :
    (insertPairs pairs metadata).lookup key = (lastValue pairs key).or (metadata.lookup key) := by
  induction pairs generalizing metadata with
  | nil => rfl
  | cons p pairs ih =>
    have hlast : lastValue (p :: pairs) key =
        (lastValue pairs key).or (if p.1 = key then some p.2.value else none) := by
      rw [lastValue, lastValue, List.reverse_cons, List.find?_append]
      by_cases hp : p.1 = key
      · cases pairs.reverse.find? (·.1 = key) <;> simp [hp]
      · cases pairs.reverse.find? (·.1 = key) <;> simp [hp]
    rw [hlast, Option.or_assoc]
    refine (ih _).trans (congrArg _ ?_)
    by_cases hp : p.1 = key
    · rw [if_pos hp, ← hp, AList.lookup_insert]
      rfl
    · rw [if_neg hp, AList.lookup_insert_ne (Ne.symm hp)]
      rfl

/-- What the parsed tensor keeps of the written one. -/
def TensorMatches (t : TensorSource) (t' : GgufTensor) : Prop :=
  t'.name = t.name ∧ t'.shape = t.shape ∧ t'.offset = t.offset ∧
    dtypeFromId t.typeId = .ok t'.dtype

theorem exists_matches {a : Allocator} {tensors : List TensorSource}
    (h : ∀ t ∈ tensors, t.Writable a) : ∃ dtypes : TensorSource → String,
      ∀ t ∈ tensors, dtypeFromId t.typeId = .ok (dtypes t) := by
  have hdtype : ∀ t, ∃ dtype, t ∈ tensors → dtypeFromId t.typeId = .ok dtype := fun t => by
    by_cases ht : t ∈ tensors
    · obtain ⟨dtype, hd⟩ := (h t ht).supported
      exact ⟨dtype, fun _ => hd⟩
    · exact ⟨"", fun ht' => absurd ht' ht⟩
  choose dtypes hd using hdtype
  exact ⟨dtypes, hd⟩

/-- Behind a header come the pairs, the vector of the tensors and the tensors. -/
theorem readModel_header {a : Allocator} (version : UInt32) {tensorCount metadataKvCount : Nat}
    (htensors : tensorCount < 2 ^ 64) (hpairs : metadataKvCount < 2 ^ 64) (bs : List UInt8) :
    readModel a (header version tensorCount metadataKvCount ++ bs) =
      (many (readKvPair a) metadataKvCount >>= fun pairs =>
        reserve a a.tensorSize tensorCount >>= fun _ =>
          many (readTensorInfo a) tensorCount >>= fun tensors => pure
            ⟨version, pairs.foldl (fun m pair => m.insert pair.1 pair.2) ∅, tensors⟩) bs := by
  obtain ⟨tensorCount, rfl, htensorCount⟩ := reads_length htensors
  obtain ⟨metadataKvCount, rfl, hmetadataKvCount⟩ := reads_length hpairs
  have hheader : readModel a (header version tensorCount.toNat metadataKvCount.toNat ++ bs) =
      (readMetadata a metadataKvCount.toNat ∅ >>= fun metadata =>
        reserve a a.tensorSize tensorCount.toNat >>= fun _ =>
          many (readTensorInfo a) tensorCount.toNat >>= fun tensors =>
            pure ⟨version, metadata, tensors⟩) bs := by
    rw [header, List.append_assoc, List.append_assoc, List.append_assoc]
    refine (bind_eq (reads_readU32 ggufMagic _)).trans ?_
    rw [if_neg (not_not.2 rfl)]
    exact (bind_eq (reads_readU32 version _)).trans
      ((bind_eq (htensorCount _)).trans (bind_eq (hmetadataKvCount _)))
  rw [hheader, readMetadata_eq_many, bind_assoc]
  rfl

section
variable {a : Allocator} {pairs : List (String × GgufSource)} {tensors : List TensorSource}

/-- The whole file is read from exactly its bytes. -/
theorem reads_model (version : UInt32) (h : FileWritable a pairs tensors)
    (hdepths : ∀ p ∈ pairs, p.2.value.depth ≤ a.stack) :
    ∃ tensors', List.Forall₂ TensorMatches tensors tensors' ∧
      Reads (readModel a) (serialize version pairs tensors)
        ⟨version, insertPairs pairs ∅, tensors'⟩ := by
  obtain ⟨dtypes, hdtypes⟩ := exists_matches h.tensors
  refine ⟨tensors.map fun t => ⟨t.name, t.shape, dtypes t, t.offset⟩, ?_, fun rest => ?_⟩
  · rw [List.forall₂_map_right_iff, List.forall₂_same]
    exact fun t ht => ⟨rfl, rfl, rfl, hdtypes t ht⟩
  · have hpairs := Reads.many fun p hp => reads_kvPair (h.keys p hp) (h.values p hp) (hdepths p hp)
    have htensors := Reads.many fun t ht => reads_tensorInfo (h.tensors t ht) (hdtypes t ht)
    rw [serialize_eq, List.append_assoc, readModel_header version h.tensorCount h.pairCount]
    refine hpairs.bind ((reads_reserve h.tensorBuffer).skip ?_) rest
    rw [List.foldl_map]
    exact htensors.map fun ts => (⟨version, insertPairs pairs ∅, ts⟩ : GgufModel)

/-- A value that is nested too deep ends the program, wherever it stands. -/
theorem overflows_model (version : UInt32) (h : FileWritable a pairs tensors)
    {p : String × GgufSource} (hp : p ∈ pairs) (hdepth : a.stack < p.2.value.depth)
    (rest : List UInt8) : readModel a (serialize version pairs tensors ++ rest) = .panic := by
  have hpasses : ∀ q ∈ pairs, ∀ rest, Passes (readKvPair a) (pairBytes q ++ rest) rest := by
    intro q hq rest
    rcases Nat.lt_or_ge a.stack q.2.value.depth with hdeep | hfits
    · exact .inr (overflows_kvPair (h.keys q hq) (h.values q hq) hdeep rest)
    · exact (reads_kvPair (h.keys q hq) (h.values q hq) hfits).passes rest
  have hpanic := many_panics_of_mem hpasses hp
    (overflows_kvPair (h.keys p hp) (h.values p hp) hdepth)
    (tensors.flatMap TensorSource.bytes ++ rest)
  rw [serialize_eq, List.append_assoc, List.append_assoc,
    readModel_header version h.tensorCount h.pairCount]
  exact bind_panics.2 (.inl hpanic)

/-- The parser returns what was serialized, whatever follows the file. -/
def ParsesBack (a : Allocator) (version : UInt32) (pairs : List (String × GgufSource))
    (tensors : List TensorSource) (trailing : List UInt8) : Prop :=
  ∃ model, parse a (serialize version pairs tensors ++ trailing) = .ok model ∧
    model.version = version ∧ List.Forall₂ TensorMatches tensors model.tensors ∧
    ∀ key, model.metadata.lookup key = lastValue pairs key

/-- **Parsing inverts serialization** if no value is nested deeper than the stack has room for, and
only then. -/
theorem parse_serialize_iff (version : UInt32) (trailing : List UInt8)
    (h : FileWritable a pairs tensors) :
    ParsesBack a version pairs tensors trailing ↔ ∀ p ∈ pairs, p.2.value.depth ≤ a.stack := by
  constructor
  · rintro ⟨model, hparse, -⟩ p hp
    by_contra hdepth
    rw [parse, overflows_model version h hp (Nat.lt_of_not_le hdepth)] at hparse
    cases hparse
  · intro hdepths
    obtain ⟨tensors', hmatches, hreads⟩ := reads_model version h hdepths
    refine ⟨⟨version, insertPairs pairs ∅, tensors'⟩, ?_, rfl, hmatches, fun key => ?_⟩
    · rw [parse, hreads trailing]
      rfl
    · rw [lookup_insertPairs]
      exact Option.or_none

end

/-- Room for three calls of `read_value`. -/
def shallowAllocator : Allocator := ⟨32, 88, fun n => n ≤ 4096, 3⟩

/-- A repeated key, a nested array and bytes after the file. -/
theorem parse_serialize_iff_small :
    ParsesBack shallowAllocator 3
        [("a", .uint8 7), ("b", .array 9 [.array 4 [.uint32 1, .uint32 2], .array 4 []]),
          ("a", .string "x")] [⟨"w", [2, 3], 1, 0⟩] [0, 1] ↔
      ∀ p ∈ [("a", GgufSource.uint8 7),
        ("b", .array 9 [.array 4 [.uint32 1, .uint32 2], .array 4 []]), ("a", .string "x")],
        p.2.value.depth ≤ 3 := by
  refine parse_serialize_iff 3 [0, 1] ⟨by decide, by decide, by decide, ?_, by decide, ?_⟩
  · have hinner : ∀ x ∈ [GgufSource.uint32 1, .uint32 2], x.Writable shallowAllocator :=
      List.forall_mem_cons.2 ⟨.uint32 1, List.forall_mem_singleton.2 (.uint32 2)⟩
    have hempty : (GgufSource.array 4 []).Writable shallowAllocator :=
      .array 4 [] (by decide) (by decide) (by simp) (by simp)
    have houter : ∀ x ∈ [GgufSource.array 4 [.uint32 1, .uint32 2], .array 4 []],
        x.Writable shallowAllocator :=
      List.forall_mem_cons.2 ⟨.array 4 _ (by decide) (by decide)
        (by simp [GgufSource.valueType]) hinner, List.forall_mem_singleton.2 hempty⟩
    refine List.forall_mem_cons.2 ⟨.uint8 7, List.forall_mem_cons.2 ⟨?_, ?_⟩⟩
    · exact .array 9 _ (by decide) (by decide) (by simp [GgufSource.valueType]) houter
    · exact List.forall_mem_singleton.2 (.string "x" (by decide))
  · exact List.forall_mem_singleton.2 ⟨by decide, by decide, by decide, "f16", rfl⟩

/-- A number in that many arrays of one element. -/
def nested : Nat → GgufSource
  | 0 => .uint8 0
  | n + 1 => .array (nested n).valueType [nested n]

theorem depth_nested (n : Nat) : (nested n).value.depth = n + 1 := by
  induction n with
  | zero => rfl
  | succ n ih =>
    rw [nested, GgufSource.value, GgufSource.values, GgufSource.values, GgufValue.depth,
      GgufValue.allDepth, GgufValue.allDepth, ih, Nat.max_zero]

/-- Every request up to `isize::MAX` is granted, and the stack has room for 100000 calls. -/
def largeAllocator : Allocator := ⟨32, 88, fun _ => true, 100000⟩

theorem writable_nested (n : Nat) : (nested n).Writable largeAllocator := by
  induction n with
  | zero => exact .uint8 0
  | succ n ih =>
    exact .array _ _ (show 1 < 2 ^ 64 by decide) rfl (List.forall_mem_singleton.2 rfl)
      (List.forall_mem_singleton.2 ih)

/-- 100000 arrays are one too many. -/
theorem not_parsesBack_nested : FileWritable largeAllocator [("a", nested 100000)] [] ∧
    ¬ ParsesBack largeAllocator 3 [("a", nested 100000)] [] [] := by
  have hwritable : FileWritable largeAllocator [("a", nested 100000)] [] :=
    ⟨by simp, by simp, List.forall_mem_singleton.2 (by decide),
      List.forall_mem_singleton.2 (writable_nested 100000), by decide, by simp⟩
  refine ⟨hwritable, ?_⟩
  rintro ⟨model, hparse, -⟩
  have hdepth : largeAllocator.stack < (nested 100000).value.depth := by
    rw [depth_nested]
    exact Nat.lt_succ_self 100000
  rw [parse, overflows_model 3 hwritable (.head _) hdepth] at hparse
  cases hparse

end GgufParser

end TensorGrid
