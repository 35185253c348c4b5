import TensorGrid.ModelFormat.Recursion

/-!
# The work of the parser is bounded by its input

The counts of a file are up to 64 bits and arrays nest without limit, but every round of a loop and
every call of `read_value` takes a byte or ends the parse. `Unlimited` is the parser under which
every allocation succeeds, that of a stack frame included; `narrows_readModel` ties it to the parser
with an allocator.

* `Advances`: a reader takes a byte or fails, and never panics: the levels of the recursion suffice.
* `Pays`: a value takes at least as many bytes as it has nodes (`pays_readValue`), likewise pairs and
  tensors. `bounded` is both for a whole file.
-/

namespace TensorGrid

open Rust Reader

mutual

/-- The nodes of a value, the elements at every depth included. -/
def GgufValue.nodes : GgufValue → Nat
  | .array v => 1 + allNodes v
  | _ => 1

def GgufValue.allNodes : List GgufValue → Nat
  | [] => 0
  | v :: vs => v.nodes + allNodes vs

end

theorem GgufValue.allNodes_eq_sum (vs : List GgufValue) : allNodes vs = (vs.map nodes).sum := by
  induction vs with
  | nil => rfl
  | cons v vs ih => rw [allNodes, ih, List.map_cons, List.sum_cons]

namespace GgufParser

namespace Unlimited

/-! ## The parser -/

def readString : Parser String := do
  let length ← readU64
  let bytes ← exact .unexpectedEof length.toNat
  fromUtf8 bytes

/-- No other case allocates. -/
def readValueWith (readArray : Parser (List GgufValue)) (valueType : UInt32) :
    Parser GgufValue :=
  if valueType = 8 then do
    let v ← readString
    pure (.string v)
  else GgufParser.readValueWith ⟨0, 0, fun _ => true, 0⟩ readArray valueType

def readArrayWith (readElement : UInt32 → Parser GgufValue) : Parser (List GgufValue) := do
  let elementType ← readU32
  let length ← readU64
  many (readElement elementType) length.toNat

/-- One level of `read_value` and `read_array`. -/
def valueLevel (readElement : UInt32 → Parser GgufValue) (valueType : UInt32) :
    Parser GgufValue :=
  readValueWith (readArrayWith readElement) valueType

def readValue : UInt32 → Parser GgufValue := recursive valueLevel

def readKvPair : Parser (String × GgufValue) := do
  let key ← readString
  let valueType ← readU32
  let value ← readValue valueType
  pure (key, value)

def readTensorInfo : Parser GgufTensor := do
  let name ← readString
  let nDims ← readU32
  let shape ← many readU64 nDims.toNat
  let typeId ← readU32
  let offset ← readU64
  let dtype ← lift (dtypeFromId typeId)
  pure { name, shape, dtype, offset }

def readMetadata : Nat → HashMap String GgufValue → Parser (HashMap String GgufValue)
  | 0, metadata => pure metadata
  | n + 1, metadata => do
    let pair ← readKvPair
    readMetadata n (metadata.insert pair.1 pair.2)

def readModel : Parser GgufModel := do
  let magic ← readU32
  if magic ≠ ggufMagic then fail (.message "Invalid GGUF magic number")
  else
    let version ← readU32
    let tensorCount ← readU64
    let metadataKvCount ← readU64
    let metadata ← readMetadata metadataKvCount.toNat ∅
    let tensors ← many readTensorInfo tensorCount.toNat
    pure { version, metadata, tensors }

def parse (file : List UInt8) : Outcome ParseError GgufModel := do
  let r ← readModel file
  pure r.1

/-! ## Every reader gets by -/

theorem neverPanics_readString : NeverPanics readString :=
  neverPanics_readU64.bind fun _ => (neverPanics_exact _ _).bind fun _ => neverPanics_fromUtf8 _

theorem pays_readU32 : Pays readU32 fun _ => 4 := (pays_le _ 4).map fun _ => le_refl 4
theorem pays_readU64 : Pays readU64 fun _ => 8 := (pays_le _ 8).map fun _ => le_refl 8

theorem pays_readString : Pays readString fun _ => 8 :=
  pays_readU64.bind fun _ => ((shrinks_exact _ _).bind fun _ => shrinks_fromUtf8 _).pays

/-! ## Values -/

/-- An array has a node for itself, and the reads of its type and length to pay for it. -/
theorem pays_readArrayWith {readElement : UInt32 → Parser GgufValue}
    (h : ∀ t, Pays (readElement t) GgufValue.nodes) :
    Pays (readArrayWith readElement) fun vs => 1 + GgufValue.allNodes vs := by
  refine pays_readU32.bind fun t => pays_readU64.bind fun n => ?_
  intro bs vs rest hvs
  have hpaid := (h t).many_ok hvs
  show rest.length + (1 + GgufValue.allNodes vs - 4 - 8) ≤ bs.length
  rw [GgufValue.allNodes_eq_sum]
  omega

theorem nodes_of_ne_array {v : GgufValue} (h : ∀ vs, v ≠ .array vs) : v.nodes = 1 := by
  cases v with
  | array vs => exact absurd rfl (h vs)
  | _ => rfl

theorem pays_readValueWith {readArray : Parser (List GgufValue)}
    (h : Pays readArray fun vs => 1 + GgufValue.allNodes vs) (valueType : UInt32) :
    Pays (readValueWith readArray valueType) GgufValue.nodes := by
  unfold readValueWith
  split
  · exact pays_readString.map fun _ => Nat.le_add_left 1 7
  · next htype =>
    have hreader := valueReader ⟨0, 0, fun _ => true, 0⟩ readArray valueType
    generalize GgufParser.readValueWith _ readArray valueType = r at hreader ⊢
    cases hreader with
    | number f _ hpos hf => exact (pays_le _ _).map fun v => (nodes_of_ne_array (hf v)).trans_le hpos
    | string htype' => exact absurd htype' htype
    | array => exact h.map fun _ => le_refl _
    | unknown => exact pays_fail _ _

/-- **A value takes at least as many bytes as it has nodes.** -/
theorem pays_readValue (valueType : UInt32) : Pays (readValue valueType) GgufValue.nodes :=
  pays_recursive (fun _ h t => pays_readValueWith (pays_readArrayWith h) t) valueType

/-- Only the array case calls the array reader. -/
theorem panicsOnly_readValueWith (readArray : Parser (List GgufValue)) (valueType : UInt32) :
    PanicsOnly (readValueWith readArray valueType) readArray := by
  unfold readValueWith
  split
  · exact (neverPanics_readString.bind fun _ => neverPanics_pure _).panicsOnly _
  · next htype =>
    have hreader := valueReader ⟨0, 0, fun _ => true, 0⟩ readArray valueType
    generalize GgufParser.readValueWith _ readArray valueType = r at hreader ⊢
    cases hreader with
    | number => exact ((neverPanics_le _ _).bind fun _ => neverPanics_pure _).panicsOnly _
    | string htype' => exact absurd htype' htype
    | array => exact panicsOnly_map _ _
    | unknown => exact (neverPanics_fail _).panicsOnly _

/-- The elements are read after the type and the length of the array. -/
theorem readArrayWith_panics {readElement : UInt32 → Parser GgufValue}
    (hshrinks : ∀ t, Shrinks (readElement t)) {bs : List UInt8}
    (h : readArrayWith readElement bs = .panic) :
    ∃ t, ∃ cs : List UInt8, cs.length < bs.length ∧ readElement t cs = .panic := by
  obtain h | ⟨t, rest₁, h₁, h⟩ := bind_panics.1 h
  · exact absurd h (neverPanics_readU32 bs)
  obtain h | ⟨n, rest₂, h₂, h⟩ := bind_panics.1 h
  · exact absurd h (neverPanics_readU64 rest₁)
  obtain ⟨k, -, vs, rest, hvs, h⟩ := many_panics.1 h
  have hlen₁ : rest₁.length + 4 ≤ bs.length := pays_readU32 _ _ _ h₁
  have hlen₂ := shrinks_readU64 _ _ _ h₂
  have hlen := (hshrinks t).many k _ _ _ hvs
  exact ⟨t, rest, by omega, h⟩

theorem shrinks_readArrayWith {readElement : UInt32 → Parser GgufValue}
    (h : ∀ t, Shrinks (readElement t)) : Shrinks (readArrayWith readElement) :=
  shrinks_readU32.bind fun t => shrinks_readU64.bind fun _ => (h t).many _

theorem descends_valueLevel : Descends valueLevel where
  shrinks f hf t := by
    unfold valueLevel readValueWith
    split
    · exact pays_readString.shrinks.bind fun _ => shrinks_pure _
    · exact shrinks_readValueWith _ (shrinks_readArrayWith hf) t
  agree f g hf t bs h := by
    unfold valueLevel readValueWith
    split
    · rfl
    · refine agree_readValueWith (agree_bind fun e rest₁ h₁ => agree_bind fun n rest₂ h₂ => ?_) t
      have hlen₁ : rest₁.length + 4 ≤ bs.length := pays_readU32 _ _ _ h₁
      have hlen₂ := shrinks_readU64 _ _ _ h₂
      exact agree_many (hf e) (fun cs hcs => h e cs (by omega)) n.toNat (le_refl rest₂.length)

theorem neverPanics_readValue (valueType : UInt32) : NeverPanics (readValue valueType) :=
  descends_valueLevel.recursive_not_panic (fun _ hf t bs h =>
    readArrayWith_panics hf (panicsOnly_readValueWith _ t bs h)) valueType

/-- **The mutual recursion of the source.** -/
theorem readValue_eq : readValue = fun t => readValueWith (readArrayWith readValue) t :=
  descends_valueLevel.recursive_eq

/-! ## Pairs and tensors -/

theorem neverPanics_readKvPair : NeverPanics readKvPair :=
  neverPanics_readString.bind fun _ => neverPanics_readU32.bind fun _ =>
    (neverPanics_readValue _).bind fun _ => neverPanics_pure _

theorem pays_readKvPair : Pays readKvPair fun pair => 1 + pair.2.nodes := by
  refine pays_readString.bind fun key => pays_readU32.bind fun t => (pays_readValue t).map fun v => ?_
  show 1 + v.nodes - 8 - 4 ≤ v.nodes
  omega

theorem neverPanics_readTensorInfo : NeverPanics readTensorInfo :=
  neverPanics_readString.bind fun _ => neverPanics_readU32.bind fun _ =>
    (neverPanics_readU64.many _).bind fun _ => neverPanics_readU32.bind fun _ =>
      neverPanics_readU64.bind fun _ => (neverPanics_lift (dtypeFromId_not_panic _)).bind fun _ =>
        neverPanics_pure _

theorem pays_shape (n : Nat) : Pays (many readU64 n) List.length := by
  intro bs shape rest h
  have hpaid := pays_readU64.many_ok h
  rw [List.map_const', List.sum_replicate, smul_eq_mul] at hpaid
  omega

theorem shrinks_lift {α : Type} (x : Outcome ParseError α) : Shrinks (lift x) := by
  cases x with
  | ok v => exact shrinks_pure v
  | err e => exact shrinks_fail e
  | panic => exact shrinks_panic

theorem pays_readTensorInfo : Pays readTensorInfo fun tensor => 1 + tensor.shape.length := by
  refine pays_readString.bind fun name => pays_readU32.bind fun nDims =>
    (pays_shape _).bind fun shape => pays_readU32.bind fun typeId => pays_readU64.bind fun offset =>
      (shrinks_lift _).pays.bind fun dtype => pays_pure _ ?_
  show 1 + shape.length - 8 - 4 - shape.length - 4 - 8 - 0 = 0
  omega

/-! ## Files -/

def insertAll (pairs : List (String × GgufValue)) (metadata : HashMap String GgufValue) :
    HashMap String GgufValue :=
  pairs.foldl (fun metadata pair => metadata.insert pair.1 pair.2) metadata

/-- The metadata loop reads pairs and inserts them. -/
theorem readMetadata_ok {n : Nat} {metadata metadata' : HashMap String GgufValue}
    {bs rest : List UInt8} (h : readMetadata n metadata bs = .ok (metadata', rest)) :
    ∃ pairs, many readKvPair n bs = .ok (pairs, rest) ∧ metadata' = insertAll pairs metadata := by
  induction n generalizing metadata bs with
  | zero =>
    cases h
    exact ⟨[], rfl, rfl⟩
  | succ n ih =>
    obtain ⟨pair, mid, hpair, h⟩ := bind_ok h
    obtain ⟨pairs, hpairs, rfl⟩ := ih h
    exact ⟨pair :: pairs, (bind_eq hpair).trans (bind_eq hpairs), rfl⟩

theorem neverPanics_readMetadata (n : Nat) (metadata : HashMap String GgufValue) :
    NeverPanics (readMetadata n metadata) := by
  induction n generalizing metadata with
  | zero => exact neverPanics_pure metadata
  | succ n ih => exact neverPanics_readKvPair.bind fun pair => ih _

theorem neverPanics_readModel : NeverPanics readModel := by
  refine neverPanics_readU32.bind fun magic => ?_
  split
  · exact neverPanics_fail _
  · exact neverPanics_readU32.bind fun _ => neverPanics_readU64.bind fun _ =>
      neverPanics_readU64.bind fun _ => (neverPanics_readMetadata _ _).bind fun _ =>
        (neverPanics_readTensorInfo.many _).bind fun _ => neverPanics_pure _

/-- The pairs that the metadata loop reads, also those that a later one replaces. -/
def readPairs : Parser (List (String × GgufValue)) := do
  let _magic ← readU32
  let _version ← readU32
  let _tensorCount ← readU64
  let metadataKvCount ← readU64
  many readKvPair metadataKvCount.toNat

/-- Pairs, nodes of their values, tensors and entries of their shapes. -/
def produced (pairs : List (String × GgufValue)) (tensors : List GgufTensor) : Nat :=
  pairs.length + (pairs.map (·.2.nodes)).sum + (tensors.length + (tensors.map (·.shape.length)).sum)

theorem sum_one_add {α : Type} (f : α → Nat) (xs : List α) :
    (xs.map fun x => 1 + f x).sum = xs.length + (xs.map f).sum := by
  rw [List.sum_map_add, List.map_const', List.sum_replicate, smul_eq_mul, Nat.mul_one]

/-- What an accepted file yields is paid for by the bytes it takes. -/
theorem readModel_ok {file rest : List UInt8} {model : GgufModel}
    (h : readModel file = .ok (model, rest)) :
    ∃ pairs mid, readPairs file = .ok (pairs, mid) ∧ model.metadata = insertAll pairs ∅ ∧
      rest.length + produced pairs model.tensors ≤ file.length := by
  obtain ⟨magic, rest₁, h₁, h⟩ := bind_ok h
  split at h
  · cases h
  obtain ⟨version, rest₂, h₂, h⟩ := bind_ok h
  obtain ⟨tensorCount, rest₃, h₃, h⟩ := bind_ok h
  obtain ⟨metadataKvCount, rest₄, h₄, h⟩ := bind_ok h
  obtain ⟨metadata, rest₅, h₅, h⟩ := bind_ok h
  obtain ⟨tensors, rest₆, h₆, h⟩ := bind_ok h
  cases h
  obtain ⟨pairs, hpairs, rfl⟩ := readMetadata_ok h₅
  refine ⟨pairs, rest₅, ?_, rfl, ?_⟩
  · exact (bind_eq h₁).trans ((bind_eq h₂).trans ((bind_eq h₃).trans ((bind_eq h₄).trans hpairs)))
  · have hlen₁ := shrinks_readU32 _ _ _ h₁
    have hlen₂ := shrinks_readU32 _ _ _ h₂
    have hlen₃ := shrinks_readU64 _ _ _ h₃
    have hlen₄ := shrinks_readU64 _ _ _ h₄
    have hpaid := pays_readKvPair.many_ok hpairs
    have hpaid' := pays_readTensorInfo.many_ok h₆
    rw [sum_one_add] at hpaid hpaid'
    show rest.length + (pairs.length + (pairs.map (·.2.nodes)).sum +
      (tensors.length + (tensors.map (·.shape.length)).sum)) ≤ file.length
    omega

/-- **Parsing is bounded by its input**: every round of a loop (a pair, a tensor, a dimension, an
element) and every call of `read_value` takes a byte or fails, the parser returns, and what an
accepted file yields is no more than the bytes it takes. -/
theorem bounded (file : List UInt8) :
    (Advances readKvPair ∧ Advances readTensorInfo ∧ Advances readU64 ∧
        ∀ valueType, Advances (readValue valueType)) ∧
      ((∃ e, parse file = .err e) ∨
        ∃ model rest pairs mid, parse file = .ok model ∧ readModel file = .ok (model, rest) ∧
          readPairs file = .ok (pairs, mid) ∧ model.metadata = insertAll pairs ∅ ∧
          rest.length + produced pairs model.tensors ≤ file.length) := by
  have hnodes : ∀ v : GgufValue, 0 < v.nodes := fun v => by
    cases v <;> simp [GgufValue.nodes]
  refine ⟨⟨?_, ?_, ?_, fun t => ?_⟩, ?_⟩
  · exact neverPanics_readKvPair.advances pays_readKvPair fun _ => Nat.add_pos_left one_pos _
  · exact neverPanics_readTensorInfo.advances pays_readTensorInfo fun _ => Nat.add_pos_left one_pos _
  · exact neverPanics_readU64.advances pays_readU64 fun _ => by decide
  · exact (neverPanics_readValue t).advances (pays_readValue t) hnodes
  · cases h : readModel file with
    | ok v =>
      obtain ⟨model, rest⟩ := v
      obtain ⟨pairs, mid, hpairs, hmetadata, hpaid⟩ := readModel_ok h
      refine .inr ⟨model, rest, pairs, mid, ?_, rfl, hpairs, hmetadata, hpaid⟩
      rw [parse, h]
      rfl
    | err e =>
      refine .inl ⟨e, ?_⟩
      rw [parse, h]
      rfl
    | panic => exact absurd h (neverPanics_readModel file)

end Unlimited

/-! ## The parser with an allocator -/

theorem narrows_reserve (a : Allocator) (size count : Nat) :
    Narrows (reserve a size count) (pure ()) := by
  intro bs
  unfold reserve
  split
  · exact .inl rfl
  · exact .inr rfl

theorem narrows_readString (a : Allocator) : Narrows (readString a) Unlimited.readString :=
  (Narrows.refl _).bind fun _ => (narrows_reserve a _ _).skip fun _ => .refl _

theorem narrows_readValueWith (a : Allocator) {r r' : Parser (List GgufValue)} (h : Narrows r r')
    (valueType : UInt32) :
    Narrows (readValueWith a r valueType) (Unlimited.readValueWith r' valueType) := by
  unfold Unlimited.readValueWith
  split
  · next htype =>
    rw [htype]
    exact (narrows_readString a).bind fun _ => .refl _
  · next htype =>
    -- apart from the string case, the allocator does not matter
    unfold readValueWith
    split
    · exact .refl _
    · exact .refl _
    · exact .refl _
    · exact .refl _
    · exact .refl _
    · exact .refl _
    · exact .refl _
    · exact .refl _
    · next heq => exact absurd (UInt32.toNat_inj.1 heq) htype
    · exact h.bind fun _ => .refl _
    · exact .refl _
    · exact .refl _
    · exact .refl _
    · exact .refl _

theorem narrows_readValue (a : Allocator) (valueType : UInt32) :
    Narrows (readValue a valueType) (Unlimited.readValue valueType) := by
  rw [readValue, readValueWithin_eq]
  refine Unlimited.descends_valueLevel.narrows_iterate
    (fun f f' h t => narrows_readValueWith a ?_ t) a.stack valueType
  exact (Narrows.refl _).bind fun _ => (Narrows.refl _).bind fun _ =>
    (narrows_reserve a _ _).skip fun _ => (h _).many _

theorem narrows_readKvPair (a : Allocator) : Narrows (readKvPair a) Unlimited.readKvPair :=
  (narrows_readString a).bind fun _ => (Narrows.refl _).bind fun _ =>
    (narrows_readValue a _).bind fun _ => .refl _

theorem narrows_readTensorInfo (a : Allocator) :
    Narrows (readTensorInfo a) Unlimited.readTensorInfo :=
  (narrows_readString a).bind fun _ => (Narrows.refl _).bind fun _ =>
    (narrows_reserve a _ _).skip fun _ => .refl _

theorem narrows_readMetadata (a : Allocator) (n : Nat) (metadata : HashMap String GgufValue) :
    Narrows (readMetadata a n metadata) (Unlimited.readMetadata n metadata) := by
  induction n generalizing metadata with
  | zero => exact .refl _
  | succ n ih => exact (narrows_readKvPair a).bind fun pair => ih _

/-- **With an allocator the parser does the same**, unless an allocation is refused or the stack
overflows. -/
theorem narrows_readModel (a : Allocator) : Narrows (readModel a) Unlimited.readModel := by
  refine (Narrows.refl _).bind fun magic => ?_
  split
  · exact .refl _
  · exact (Narrows.refl _).bind fun _ => (Narrows.refl _).bind fun _ => (Narrows.refl _).bind fun _ =>
      (narrows_readMetadata a _ _).bind fun _ => (narrows_reserve a _ _).skip fun _ =>
        ((narrows_readTensorInfo a).many _).bind fun _ => .refl _

end GgufParser

end TensorGrid
