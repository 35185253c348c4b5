import TensorGrid.ModelFormat.RoundTrip

/-!
# The layout of a file, and what it announces

The parser allocates every buffer for its declared length before it reads the announced bytes, and
calls itself for the elements of every array. The layout of a file is stated here as languages of
byte strings, apart from the parser: `ValueLayout`, `PairLayout` and `TensorLayout` are the complete
items, `FileAnnounces a need` holds of a file that declares a buffer or opens an array behind
complete items.

The parser accepts complete items only (`accepts_readValueWithin`) and gets past each of them or
panics on the way (`passes_readValueWithin`). So it panics exactly on the files that announce more
than there is (`parse_panics_iff`), and on the others returns (`parse_returns_iff`).
-/

namespace TensorGrid

open Rust Reader

namespace GgufParser

/-! ## Complete items -/

def StringLayout (bs : List UInt8) : Prop :=
  ∃ s : String, (utf8 s).length < 2 ^ 64 ∧ bs = stringBytes s

/-- A value of a type, without its type tag. Any byte is a boolean. -/
inductive ValueLayout : UInt32 → List UInt8 → Prop
  | number {valueType : UInt32} {bs : List UInt8} (h : fixedSize valueType = some bs.length) :
    ValueLayout valueType bs
  | string {bs : List UInt8} (h : StringLayout bs) : ValueLayout 8 bs
  | array (elementType : UInt32) {elements : List (List UInt8)} (hlen : elements.length < 2 ^ 64)
      (h : ∀ w ∈ elements, ValueLayout elementType w) :
    ValueLayout 9 (toLE 4 elementType.toNat ++ (toLE 8 elements.length ++ elements.flatten))

def PairLayout (bs : List UInt8) : Prop :=
  ∃ key valueType value, StringLayout key ∧ ValueLayout valueType value ∧
    bs = key ++ (toLE 4 valueType.toNat ++ value)

def TensorLayout (bs : List UInt8) : Prop :=
  ∃ t : TensorSource, (utf8 t.name).length < 2 ^ 64 ∧ t.shape.length < 2 ^ 32 ∧
    (∃ dtype, dtypeFromId t.typeId = .ok dtype) ∧ bs = t.bytes

/-! ## Announced needs -/

/-- What the parser needs at some point: a buffer of `count` elements of `size` bytes, or the stack
for so many calls of `read_value` inside one another. -/
inductive Need
  | buffer (size count : Nat)
  | calls (n : Nat)

def Meets (a : Allocator) : Need → Prop
  | .buffer size count => a.fits size count
  | .calls n => n ≤ a.stack

inductive StringAnnounces : Need → List UInt8 → Prop
  | length {n : Nat} (h : n < 2 ^ 64) (rest : List UInt8) :
    StringAnnounces (.buffer 1 n) (toLE 8 n ++ rest)

/-- A value of a type, read by a call of `read_value` that is the `level`th from outside. -/
inductive ValueAnnounces (a : Allocator) : Need → Nat → UInt32 → List UInt8 → Prop
  | call (level : Nat) (valueType : UInt32) (bs : List UInt8) :
    ValueAnnounces a (.calls level) level valueType bs
  | string {need : Need} (level : Nat) {bs : List UInt8} (h : StringAnnounces need bs) :
    ValueAnnounces a need level 8 bs
  | array (level : Nat) (elementType : UInt32) {n : Nat} (hlen : n < 2 ^ 64) (rest : List UInt8) :
    ValueAnnounces a (.buffer a.valueSize n) level 9
      (toLE 4 elementType.toNat ++ (toLE 8 n ++ rest))
  | element {need : Need} {level : Nat} {elementType : UInt32} {n : Nat} (hn : n < 2 ^ 64)
      {elements : List (List UInt8)} (hlt : elements.length < n)
      (hall : ∀ w ∈ elements, ValueLayout elementType w) {bs : List UInt8}
      (h : ValueAnnounces a need (level + 1) elementType bs) :
    ValueAnnounces a need level 9
      (toLE 4 elementType.toNat ++ (toLE 8 n ++ (elements.flatten ++ bs)))

inductive PairAnnounces (a : Allocator) (need : Need) : List UInt8 → Prop
  | key {bs : List UInt8} (h : StringAnnounces need bs) : PairAnnounces a need bs
  | value {key : List UInt8} (hkey : StringLayout key) {valueType : UInt32} {bs : List UInt8}
      (h : ValueAnnounces a need 1 valueType bs) :
    PairAnnounces a need (key ++ (toLE 4 valueType.toNat ++ bs))

inductive TensorAnnounces : Need → List UInt8 → Prop
  | name {need : Need} {bs : List UInt8} (h : StringAnnounces need bs) : TensorAnnounces need bs
  | shape {name : List UInt8} (hname : StringLayout name) {n : Nat} (hn : n < 2 ^ 32)
      (rest : List UInt8) : TensorAnnounces (.buffer 8 n) (name ++ (toLE 4 n ++ rest))

inductive FileAnnounces (a : Allocator) : Need → List UInt8 → Prop
  | pair {need : Need} (version : UInt32) {tensorCount metadataKvCount : Nat}
      (htensors : tensorCount < 2 ^ 64) (hpairs : metadataKvCount < 2 ^ 64)
      {pairs : List (List UInt8)} (hlt : pairs.length < metadataKvCount)
      (hall : ∀ w ∈ pairs, PairLayout w) {bs : List UInt8} (h : PairAnnounces a need bs) :
    FileAnnounces a need (header version tensorCount metadataKvCount ++ (pairs.flatten ++ bs))
  | tensors (version : UInt32) {tensorCount : Nat} (htensors : tensorCount < 2 ^ 64)
      {pairs : List (List UInt8)} (hpairs : pairs.length < 2 ^ 64) (hall : ∀ w ∈ pairs, PairLayout w)
      (rest : List UInt8) :
    FileAnnounces a (.buffer a.tensorSize tensorCount)
      (header version tensorCount pairs.length ++ (pairs.flatten ++ rest))
  | tensor {need : Need} (version : UInt32) {tensorCount : Nat} (htensors : tensorCount < 2 ^ 64)
      {pairs : List (List UInt8)} (hpairs : pairs.length < 2 ^ 64) (hall : ∀ w ∈ pairs, PairLayout w)
      {tensors : List (List UInt8)} (hlt : tensors.length < tensorCount)
      (hall' : ∀ w ∈ tensors, TensorLayout w) {bs : List UInt8} (h : TensorAnnounces need bs) :
    FileAnnounces a need (header version tensorCount pairs.length ++
      (pairs.flatten ++ (tensors.flatten ++ bs)))

/-- Some announced need cannot be met. -/
def Refused (a : Allocator) (announces : Need → Prop) : Prop :=
  ∃ need, announces need ∧ ¬ Meets a need

variable {a : Allocator}

/-! ## Strings -/

theorem readU64_ok {bs rest : List UInt8} {n : UInt64} (h : readU64 bs = .ok (n, rest)) :
    bs = toLE 8 n.toNat ++ rest := by
  obtain ⟨v, mid, hv, hpure⟩ := bind_ok h
  cases hpure
  obtain ⟨rfl, hlt⟩ := le_eq_ok hv
  rw [UInt64.toNat_ofNat_of_lt' hlt]

theorem readU32_ok {bs rest : List UInt8} {n : UInt32} (h : readU32 bs = .ok (n, rest)) :
    bs = toLE 4 n.toNat ++ rest := by
  obtain ⟨v, mid, hv, hpure⟩ := bind_ok h
  cases hpure
  obtain ⟨rfl, hlt⟩ := le_eq_ok hv
  rw [UInt32.toNat_ofNat_of_lt' hlt]

theorem reserve_ok {size count : Nat} {bs rest : List UInt8}
    (h : reserve a size count bs = .ok ((), rest)) : a.fits size count ∧ rest = bs := by
  unfold reserve at h
  split at h
  · next hfits =>
    cases h
    exact ⟨hfits, rfl⟩
  · cases h

theorem reserve_panics {size count : Nat} {bs : List UInt8} :
    reserve a size count bs = .panic ↔ ¬ a.fits size count := by
  unfold reserve
  split
  · next hfits => exact ⟨nofun, fun h => absurd hfits h⟩
  · next hfits => exact ⟨fun _ => hfits, fun _ => rfl⟩

/-- Behind an allocation. -/
theorem reserve_bind_panics {β : Type} {f : Unit → Parser β} {size count : Nat}
    {bs : List UInt8} : (reserve a size count >>= f) bs = .panic ↔
      ¬ a.fits size count ∨ f () bs = .panic := by
  by_cases hfits : a.fits size count
  · have hreserve : reserve a size count bs = .ok ((), bs) := reads_reserve hfits bs
    rw [bind_eq hreserve]
    exact ⟨.inr, fun h => h.resolve_left (not_not.2 hfits)⟩
  · exact ⟨fun _ => .inl hfits, fun _ => bind_panics.2 (.inl (reserve_panics.2 hfits))⟩

theorem fromUtf8_ok {bytes bs rest : List UInt8} {s : String}
    (h : fromUtf8 bytes bs = .ok (s, rest)) : utf8 s = bytes ∧ rest = bs := by
  unfold fromUtf8 at h
  cases hs : String.fromUTF8? ⟨bytes.toArray⟩ with
  | none =>
    rw [hs] at h
    cases h
  | some s' =>
    rw [hs] at h
    cases h
    unfold String.fromUTF8? at hs
    split at hs
    · cases hs
      exact ⟨rfl, rfl⟩
    · cases hs

theorem accepts_readString (a : Allocator) : Accepts (readString a) StringLayout := by
  intro bs s rest h
  obtain ⟨n, rest₁, h₁, h⟩ := bind_ok h
  obtain ⟨u, rest₂, h₂, h⟩ := bind_ok h
  obtain ⟨bytes, rest₃, h₃, hutf8⟩ := bind_ok h
  obtain ⟨-, rfl⟩ := reserve_ok h₂
  obtain ⟨rfl, hlen⟩ := exact_eq_ok h₃
  obtain ⟨rfl, rfl⟩ := fromUtf8_ok hutf8
  refine ⟨stringBytes s, ?_, s, ?_, rfl⟩
  · rw [readU64_ok h₁, stringBytes, hlen, List.append_assoc]
  · rw [hlen]
    exact n.toNat_lt

theorem readString_panics {bs : List UInt8} :
    readString a bs = .panic ↔ Refused a fun need => StringAnnounces need bs := by
  constructor
  · intro h
    obtain h | ⟨n, rest, hn, h⟩ := bind_panics.1 h
    · exact absurd h (neverPanics_readU64 bs)
    obtain h | ⟨u, rest', hu, h⟩ := bind_panics.1 h
    · refine ⟨.buffer 1 n.toNat, ?_, reserve_panics.1 h⟩
      rw [readU64_ok hn]
      exact .length n.toNat_lt rest
    obtain h | ⟨bytes, rest'', hbytes, h⟩ := bind_panics.1 h
    · exact absurd h (neverPanics_exact _ _ _)
    · exact absurd h (neverPanics_fromUtf8 _ _)
  · rintro ⟨_, ⟨h, rest⟩, hrefused⟩
    obtain ⟨v, rfl, hreads⟩ := reads_length h
    exact (bind_eq (hreads rest)).trans (bind_panics.2 (.inl (reserve_panics.2 hrefused)))

theorem passes_readString {w : List UInt8} (h : StringLayout w) (rest : List UInt8) :
    Passes (readString a) (w ++ rest) rest := by
  obtain ⟨s, hlen, rfl⟩ := h
  by_cases hfits : a.fits 1 (utf8 s).length
  · exact (reads_string hfits).passes rest
  · refine .inr (readString_panics.2 ⟨.buffer 1 (utf8 s).length, ?_, hfits⟩)
    rw [stringBytes, List.append_assoc]
    exact .length hlen _

/-! ## Values -/

theorem accepts_readArrayWith {f : UInt32 → Parser GgufValue}
    (h : ∀ e, Accepts (f e) (ValueLayout e)) :
    Accepts (readArrayWith a f) (ValueLayout 9) := by
  intro bs vs rest hread
  obtain ⟨e, rest₁, h₁, hread⟩ := bind_ok hread
  obtain ⟨n, rest₂, h₂, hread⟩ := bind_ok hread
  obtain ⟨u, rest₃, h₃, hmany⟩ := bind_ok hread
  obtain ⟨-, rfl⟩ := reserve_ok h₃
  obtain ⟨_, rfl, elements, hlen, rfl, helements⟩ := (h e).many _ _ _ _ hmany
  refine ⟨_, ?_, .array e (hlen ▸ n.toNat_lt) helements⟩
  rw [readU32_ok h₁, readU64_ok h₂, hlen, List.append_assoc, List.append_assoc]

theorem accepts_valueLevel {f : UInt32 → Parser GgufValue}
    (h : ∀ e, Accepts (f e) (ValueLayout e)) (valueType : UInt32) :
    Accepts (valueLevel a f valueType) (ValueLayout valueType) := by
  have hreader := valueReader a (readArrayWith a f) valueType
  rw [valueLevel]
  generalize readValueWith a (readArrayWith a f) valueType = r at hreader ⊢
  cases hreader with
  | number g hsize =>
    intro bs v rest hread
    obtain ⟨m, mid, hm, hpure⟩ := bind_ok hread
    cases hpure
    exact ⟨_, (le_eq_ok hm).1, .number (by rw [length_toLE, hsize])⟩
  | string htype =>
    subst htype
    exact (accepts_readString a).map fun _ hw => .string hw
  | array htype =>
    subst htype
    exact (accepts_readArrayWith h).map fun _ hw => hw
  | unknown text =>
    rintro bs v rest ⟨⟩

/-- What the parser reads as a value is one. -/
theorem accepts_readValueWithin (a : Allocator) (room : Nat) (valueType : UInt32) :
    Accepts (readValueWithin a room valueType) (ValueLayout valueType) := by
  rw [readValueWithin_eq]
  exact iterate_forall (P := fun t r => Accepts r (ValueLayout t)) (fun _ => accepts_panic)
    (fun _ h t => accepts_valueLevel h t) room valueType

/-- It gets past every value, or panics in it. -/
theorem passes_readValueWithin {room : Nat} {valueType : UInt32} {w : List UInt8}
    (h : ValueLayout valueType w) (rest : List UInt8) :
    Passes (readValueWithin a room valueType) (w ++ rest) rest := by
  induction h generalizing room rest with
  | @number valueType w hsize =>
    cases room with
    | zero => exact .inr rfl
    | succ room =>
      rw [readValueWithin]
      have hreader := valueReader a (readArrayWith a (readValueWithin a room)) valueType
      generalize readValueWith a _ valueType = r at hreader ⊢
      cases hreader with
      | number g hsize' =>
        obtain rfl := Option.some.inj (hsize.symm.trans hsize')
        exact .map (((reads_exact _ w).map ofLE).passes rest) g
      | string htype => cases htype ▸ hsize
      | array htype => cases htype ▸ hsize
      | unknown text hnone => cases hnone.symm.trans hsize
  | string h =>
    cases room with
    | zero => exact .inr rfl
    | succ room => exact (passes_readString h rest).map _
  | @array e elements hlen h ih =>
    cases room with
    | zero => exact .inr rfl
    | succ room =>
      rw [List.append_assoc, List.append_assoc]
      obtain ⟨n, hn, hlength⟩ := reads_length hlen
      refine .map (.after (reads_readU32 e _) (.after (hlength _) ?_)) _
      rw [hn]
      by_cases hfits : a.fits a.valueSize elements.length
      · exact .after (reads_reserve hfits _) (Passes.many (fun w hw rest => ih w hw rest) rest)
      · exact .inr (bind_panics.2 (.inl (reserve_panics.2 hfits)))

theorem readArrayWith_panics {f : UInt32 → Parser GgufValue} {bs : List UInt8} :
    readArrayWith a f bs = .panic ↔
      ∃ e n rest, n < 2 ^ 64 ∧ bs = toLE 4 e.toNat ++ (toLE 8 n ++ rest) ∧
        (¬ a.fits a.valueSize n ∨ many (f e) n rest = .panic) := by
  constructor
  · intro h
    obtain h | ⟨e, rest₁, h₁, h⟩ := bind_panics.1 h
    · exact absurd h (neverPanics_readU32 bs)
    obtain h | ⟨n, rest₂, h₂, h⟩ := bind_panics.1 h
    · exact absurd h (neverPanics_readU64 _)
    refine ⟨e, n.toNat, rest₂, n.toNat_lt, ?_, reserve_bind_panics.1 h⟩
    rw [readU32_ok h₁, readU64_ok h₂]
  · rintro ⟨e, n, rest, hn, rfl, h⟩
    obtain ⟨n, rfl, hlength⟩ := reads_length hn
    exact (bind_eq (reads_readU32 e _)).trans
      ((bind_eq (hlength _)).trans (reserve_bind_panics.2 h))

/-- A value makes the parser panic if it announces what cannot be met. The call at `level` has room
for itself and what is left of the stack. -/
theorem readValueWithin_panics_of {need : Need} {level room : Nat} {valueType : UInt32}
    {bs : List UInt8} (hlevel : level + room = a.stack + 1) (hrefused : ¬ Meets a need)
    (h : ValueAnnounces a need level valueType bs) :
    readValueWithin a room valueType bs = .panic := by
  induction h generalizing room with
  | call level valueType bs =>
    have hdeep : ¬ level ≤ a.stack := hrefused
    obtain rfl : room = 0 := by omega
    rfl
  | string level h =>
    cases room with
    | zero => rfl
    | succ room => exact map_panics.2 (readString_panics.2 ⟨_, h, hrefused⟩)
  | array level e hlen rest =>
    cases room with
    | zero => rfl
    | succ room =>
      exact map_panics.2 (readArrayWith_panics.2 ⟨e, _, rest, hlen, rfl, .inl hrefused⟩)
  | @element need level e n hn elements hlt hall bs h ih =>
    cases room with
    | zero => rfl
    | succ room =>
      refine map_panics.2 (readArrayWith_panics.2 ⟨e, n, _, hn, rfl, .inr ?_⟩)
      exact Passes.many_panics (fun w hw => passes_readValueWithin (hall w hw)) hlt
        (ih (by omega) hrefused)

/-- And only then: a panic is one of the call itself, of the length of a string or an array, or of
an element behind complete ones, one level further in. -/
theorem refused_of_readValueWithin_panics {level room : Nat} {valueType : UInt32}
    {bs : List UInt8} (hlevel : level + room = a.stack + 1)
    (h : readValueWithin a room valueType bs = .panic) :
    Refused a fun need => ValueAnnounces a need level valueType bs := by
  induction room generalizing level valueType bs with
  | zero =>
    refine ⟨.calls level, .call level valueType bs, fun hmeets => ?_⟩
    have hle : level ≤ a.stack := hmeets
    omega
  | succ room ih =>
    rw [readValueWithin] at h
    have hreader := valueReader a (readArrayWith a (readValueWithin a room)) valueType
    generalize readValueWith a _ valueType = r at hreader h
    cases hreader with
    | number g => exact absurd (map_panics.1 h) (neverPanics_le _ _ bs)
    | string htype =>
      subst htype
      obtain ⟨need, hneed, hrefused⟩ := readString_panics.1 (map_panics.1 h)
      exact ⟨need, .string level hneed, hrefused⟩
    | array htype =>
      subst htype
      obtain ⟨e, n, rest, hn, rfl, hfits | hmany⟩ := readArrayWith_panics.1 (map_panics.1 h)
      · exact ⟨.buffer a.valueSize n, .array level e hn rest, hfits⟩
      · obtain ⟨m, hm, vs, rest', hvs, hpanic⟩ := many_panics.1 hmany
        obtain ⟨_, rfl, elements, rfl, rfl, helements⟩ :=
          (accepts_readValueWithin a room e).many _ _ _ _ hvs
        obtain ⟨need, hneed, hrefused⟩ := @ih (level + 1) e rest' (by omega) hpanic
        exact ⟨need, .element hn hm helements hneed, hrefused⟩
    | unknown text => cases h

theorem readValue_panics {valueType : UInt32} {bs : List UInt8} :
    readValue a valueType bs = .panic ↔
      Refused a fun need => ValueAnnounces a need 1 valueType bs := by
  have hlevel : 1 + a.stack = a.stack + 1 := Nat.add_comm 1 a.stack
  constructor
  · exact refused_of_readValueWithin_panics hlevel
  · rintro ⟨_, hneed, hrefused⟩
    exact readValueWithin_panics_of hlevel hrefused hneed

/-! ## Pairs -/

theorem accepts_readKvPair (a : Allocator) : Accepts (readKvPair a) PairLayout := by
  intro bs pair rest hread
  obtain ⟨key, rest₁, h₁, hread⟩ := bind_ok hread
  obtain ⟨valueType, rest₂, h₂, hread⟩ := bind_ok hread
  obtain ⟨value, rest₃, h₃, hpure⟩ := bind_ok hread
  cases hpure
  obtain ⟨w, rfl, hw⟩ := accepts_readString a _ _ _ h₁
  obtain ⟨w', rfl, hw'⟩ := accepts_readValueWithin a _ _ _ _ _ h₃
  refine ⟨_, ?_, w, valueType, w', hw, hw', rfl⟩
  rw [readU32_ok h₂, List.append_assoc, List.append_assoc]

theorem passes_readKvPair {w : List UInt8} (h : PairLayout w) (rest : List UInt8) :
    Passes (readKvPair a) (w ++ rest) rest := by
  obtain ⟨key, valueType, value, hkey, hvalue, rfl⟩ := h
  rw [List.append_assoc, List.append_assoc]
  refine (passes_readString hkey _).bind fun key => ?_
  exact .after (reads_readU32 valueType _) ((passes_readValueWithin hvalue rest).map _)

theorem readKvPair_panics {bs : List UInt8} :
    readKvPair a bs = .panic ↔ Refused a fun need => PairAnnounces a need bs := by
  constructor
  · intro h
    obtain h | ⟨key, rest₁, h₁, h⟩ := bind_panics.1 h
    · obtain ⟨need, hneed, hrefused⟩ := readString_panics.1 h
      exact ⟨need, .key hneed, hrefused⟩
    obtain h | ⟨valueType, rest₂, h₂, h⟩ := bind_panics.1 h
    · exact absurd h (neverPanics_readU32 _)
    obtain ⟨need, hneed, hrefused⟩ := readValue_panics.1 (map_panics.1 h)
    obtain ⟨w, rfl, hw⟩ := accepts_readString a _ _ _ h₁
    rw [readU32_ok h₂]
    exact ⟨need, .value hw hneed, hrefused⟩
  · rintro ⟨need, hneed | @⟨key, hkey, valueType, bs, hneed⟩, hrefused⟩
    · exact bind_panics.2 (.inl (readString_panics.2 ⟨need, hneed, hrefused⟩))
    · refine (passes_readString hkey _).panics fun key => ?_
      refine (bind_eq (reads_readU32 valueType bs)).trans (map_panics.2 ?_)
      exact readValue_panics.2 ⟨need, hneed, hrefused⟩

/-! ## Tensors -/

theorem reads_shape (shape : List UInt64) :
    Reads (many readU64 shape.length) (shape.flatMap fun d => toLE 8 d.toNat) shape := by
  have hmany : Reads (many readU64 shape.length) (shape.flatMap fun d => toLE 8 d.toNat)
      (shape.map id) := Reads.many fun d _ => reads_readU64 d
  rwa [List.map_id] at hmany

theorem lift_ok {α : Type} {x : Outcome ParseError α} {v : α} {bs rest : List UInt8}
    (h : lift x bs = .ok (v, rest)) : x = .ok v ∧ rest = bs := by
  cases x with
  | ok v =>
    cases h
    exact ⟨rfl, rfl⟩
  | err e => cases h
  | panic => cases h

theorem accepts_readTensorInfo (a : Allocator) : Accepts (readTensorInfo a) TensorLayout := by
  intro bs t rest hread
  obtain ⟨name, rest₁, h₁, hread⟩ := bind_ok hread
  obtain ⟨nDims, rest₂, h₂, hread⟩ := bind_ok hread
  obtain ⟨u, rest₃, h₃, hread⟩ := bind_ok hread
  obtain ⟨shape, rest₄, h₄, hread⟩ := bind_ok hread
  obtain ⟨typeId, rest₅, h₅, hread⟩ := bind_ok hread
  obtain ⟨offset, rest₆, h₆, hread⟩ := bind_ok hread
  obtain ⟨dtype, rest₇, h₇, hpure⟩ := bind_ok hread
  cases hpure
  obtain ⟨hdtype, rfl⟩ := lift_ok h₇
  obtain ⟨-, rfl⟩ := reserve_ok h₃
  obtain ⟨rfl, hlen⟩ := many_eq_ok readU64_ok h₄
  obtain ⟨_, rfl, s, hs, rfl⟩ := accepts_readString a _ _ _ h₁
  have hdims : shape.length < 2 ^ 32 := hlen ▸ nDims.toNat_lt
  refine ⟨_, ?_, ⟨s, shape, typeId, offset⟩, hs, hdims, ⟨dtype, hdtype⟩, rfl⟩
  rw [readU32_ok h₂, readU32_ok h₅, readU64_ok h₆, TensorSource.bytes, hlen]
  simp only [List.append_assoc]

theorem passes_readTensorInfo {w : List UInt8} (h : TensorLayout w) (rest : List UInt8) :
    Passes (readTensorInfo a) (w ++ rest) rest := by
  obtain ⟨t, hname, hdims, ⟨dtype, hdtype⟩, rfl⟩ := h
  have hlayout : TensorSource.bytes t ++ rest = stringBytes t.name ++
      (toLE 4 t.shape.length ++ (t.shape.flatMap (fun d => toLE 8 d.toNat) ++
        (toLE 4 t.typeId.toNat ++ (toLE 8 t.offset.toNat ++ rest)))) := by
    rw [TensorSource.bytes]
    simp only [List.append_assoc]
  have hcount := reads_readU32 (UInt32.ofNat t.shape.length)
  rw [UInt32.toNat_ofNat_of_lt' hdims] at hcount
  rw [hlayout]
  refine (passes_readString ⟨t.name, hname, rfl⟩ _).bind fun name => .after (hcount _) ?_
  rw [UInt32.toNat_ofNat_of_lt' hdims]
  by_cases hfits : a.fits 8 t.shape.length
  · refine .after (reads_reserve hfits _) (.after (reads_shape t.shape _) ?_)
    refine .after (reads_readU32 t.typeId _) (.after (reads_readU64 t.offset _) ?_)
    rw [hdtype]
    exact .inl ⟨_, rfl⟩
  · exact .inr (bind_panics.2 (.inl (reserve_panics.2 hfits)))

theorem readTensorInfo_panics {bs : List UInt8} :
    readTensorInfo a bs = .panic ↔ Refused a fun need => TensorAnnounces need bs := by
  constructor
  · intro h
    obtain h | ⟨name, rest₁, h₁, h⟩ := bind_panics.1 h
    · obtain ⟨need, hneed, hrefused⟩ := readString_panics.1 h
      exact ⟨need, .name hneed, hrefused⟩
    obtain h | ⟨nDims, rest₂, h₂, h⟩ := bind_panics.1 h
    · exact absurd h (neverPanics_readU32 _)
    obtain hfits | hrest := reserve_bind_panics.1 h
    · obtain ⟨w, rfl, hw⟩ := accepts_readString a _ _ _ h₁
      rw [readU32_ok h₂]
      exact ⟨.buffer 8 nDims.toNat, .shape hw nDims.toNat_lt rest₂, hfits⟩
    · -- the rest of a tensor allocates nothing
      refine absurd hrest ((neverPanics_readU64.many _).bind (fun shape => ?_) _)
      refine neverPanics_readU32.bind fun typeId => neverPanics_readU64.bind fun offset => ?_
      exact (neverPanics_lift (dtypeFromId_not_panic typeId)).bind fun _ => neverPanics_pure _
  · rintro ⟨need, hneed | @⟨name, hname, n, hn, rest⟩, hrefused⟩
    · exact bind_panics.2 (.inl (readString_panics.2 ⟨need, hneed, hrefused⟩))
    · have hcount := reads_readU32 (UInt32.ofNat n)
      rw [UInt32.toNat_ofNat_of_lt' hn] at hcount
      refine (passes_readString hname _).panics fun name => (bind_eq (hcount rest)).trans ?_
      rw [UInt32.toNat_ofNat_of_lt' hn]
      exact bind_panics.2 (.inl (reserve_panics.2 hrefused))

/-! ## Files -/

/-- Behind a header, a panic is one of a pair, of the vector of the tensors or of a tensor. -/
theorem readModel_header_panics {version : UInt32} {tensorCount metadataKvCount : Nat}
    (htensors : tensorCount < 2 ^ 64) (hpairs : metadataKvCount < 2 ^ 64) {bs : List UInt8} :
    readModel a (header version tensorCount metadataKvCount ++ bs) = .panic ↔
      many (readKvPair a) metadataKvCount bs = .panic ∨
      ∃ pairs rest, many (readKvPair a) metadataKvCount bs = .ok (pairs, rest) ∧
        (¬ a.fits a.tensorSize tensorCount ∨
          many (readTensorInfo a) tensorCount rest = .panic) := by
  rw [readModel_header version htensors hpairs, bind_panics]
  refine or_congr_right (exists₂_congr fun pairs rest => and_congr_right fun _ => ?_)
  exact reserve_bind_panics.trans (or_congr_right map_panics)

theorem readModel_panics_of {need : Need} {file : List UInt8} (hrefused : ¬ Meets a need)
    (h : FileAnnounces a need file) : readModel a file = .panic := by
  have hpasses {pairs : List (List UInt8)} (hall : ∀ w ∈ pairs, PairLayout w) (rest : List UInt8) :
      Passes (many (readKvPair a) pairs.length) (pairs.flatten ++ rest) rest :=
    Passes.many (fun w hw => passes_readKvPair (hall w hw)) rest
  cases h with
  | pair version htensors hpairs hlt hall h =>
    refine (readModel_header_panics htensors hpairs).2 (.inl ?_)
    exact Passes.many_panics (fun w hw => passes_readKvPair (hall w hw)) hlt
      (readKvPair_panics.2 ⟨_, h, hrefused⟩)
  | tensors version htensors hpairs hall rest =>
    refine (readModel_header_panics htensors hpairs).2 ?_
    obtain ⟨as, has⟩ | hpanic := hpasses hall rest
    · exact .inr ⟨as, rest, has, .inl hrefused⟩
    · exact .inl hpanic
  | @tensor _ version tensorCount htensors pairs hpairs hall tensors hlt hall' bs h =>
    refine (readModel_header_panics htensors hpairs).2 ?_
    obtain ⟨as, has⟩ | hpanic := hpasses hall (tensors.flatten ++ bs)
    · refine .inr ⟨as, _, has, .inr ?_⟩
      exact Passes.many_panics (fun w hw => passes_readTensorInfo (hall' w hw)) hlt
        (readTensorInfo_panics.2 ⟨_, h, hrefused⟩)
    · exact .inl hpanic

theorem header_of_panics {file : List UInt8} (h : readModel a file = .panic) :
    ∃ version tensorCount metadataKvCount bs, tensorCount < 2 ^ 64 ∧ metadataKvCount < 2 ^ 64 ∧
      file = header version tensorCount metadataKvCount ++ bs := by
  obtain h | ⟨magic, rest₁, h₁, h⟩ := bind_panics.1 h
  · exact absurd h (neverPanics_readU32 _)
  split at h
  · cases h
  next hmagic =>
  obtain rfl := not_not.1 hmagic
  obtain h | ⟨version, rest₂, h₂, h⟩ := bind_panics.1 h
  · exact absurd h (neverPanics_readU32 _)
  obtain h | ⟨tensorCount, rest₃, h₃, h⟩ := bind_panics.1 h
  · exact absurd h (neverPanics_readU64 _)
  obtain h | ⟨metadataKvCount, rest₄, h₄, h⟩ := bind_panics.1 h
  · exact absurd h (neverPanics_readU64 _)
  refine ⟨version, tensorCount.toNat, metadataKvCount.toNat, rest₄, tensorCount.toNat_lt,
    metadataKvCount.toNat_lt, ?_⟩
  rw [readU32_ok h₁, readU32_ok h₂, readU64_ok h₃, readU64_ok h₄, header]
  simp only [List.append_assoc]

theorem refused_of_readModel_panics {file : List UInt8} (h : readModel a file = .panic) :
    Refused a fun need => FileAnnounces a need file := by
  obtain ⟨version, tensorCount, metadataKvCount, bs, htensors, hpairs, rfl⟩ := header_of_panics h
  obtain hread | ⟨as, rest, has, hread⟩ := (readModel_header_panics htensors hpairs).1 h
  · obtain ⟨k, hk, as, rest, has, hpanic⟩ := many_panics.1 hread
    obtain ⟨_, rfl, pairs, rfl, rfl, hall⟩ := (accepts_readKvPair a).many _ _ _ _ has
    obtain ⟨need, hneed, hrefused⟩ := readKvPair_panics.1 hpanic
    exact ⟨need, .pair version htensors hpairs hk hall hneed, hrefused⟩
  obtain ⟨_, rfl, pairs, rfl, rfl, hall⟩ := (accepts_readKvPair a).many _ _ _ _ has
  obtain hfits | hread := hread
  · exact ⟨.buffer a.tensorSize tensorCount, .tensors version htensors hpairs hall rest, hfits⟩
  · obtain ⟨k, hk, ts, rest', hts, hpanic⟩ := many_panics.1 hread
    obtain ⟨_, rfl, tensors, rfl, rfl, hall'⟩ := (accepts_readTensorInfo a).many _ _ _ _ hts
    obtain ⟨need, hneed, hrefused⟩ := readTensorInfo_panics.1 hpanic
    exact ⟨need, .tensor version htensors hpairs hall hk hall' hneed, hrefused⟩

/-- **The parser panics** exactly on the files that announce what cannot be met. -/
theorem parse_panics_iff {file : List UInt8} :
    parse a file = .panic ↔ Refused a fun need => FileAnnounces a need file := by
  have hparse : parse a file = .panic ↔ readModel a file = .panic := by
    rw [parse]
    cases readModel a file <;> simp
  rw [hparse]
  constructor
  · exact refused_of_readModel_panics
  · rintro ⟨_, hneed, hrefused⟩
    exact readModel_panics_of hrefused hneed

/-- **The parser returns** if every buffer a file announces can be allocated and the stack has room
for every call it asks for, and only then. -/
theorem parse_returns_iff (a : Allocator) (file : List UInt8) :
    ((∃ model, parse a file = .ok model) ∨ ∃ e, parse a file = .err e) ↔
      ∀ need, FileAnnounces a need file → Meets a need := by
  rw [Outcome.returns_iff, Ne, parse_panics_iff, Refused]
  simp only [not_exists, not_and, not_not]

/-- A file that ends behind the length of its first key. -/
def hugeKey : List UInt8 := header 3 0 1 ++ toLE 8 (2 ^ 63)

/-- The length is more than a buffer can have, however much memory there is. -/
theorem hugeKey_not_returns :
    ¬ ((∃ model, parse largeAllocator hugeKey = .ok model) ∨
      ∃ e, parse largeAllocator hugeKey = .err e) := by
  have hpanic : parse largeAllocator hugeKey = .panic := rfl
  rw [hpanic]
  rintro (⟨_, h⟩ | ⟨_, h⟩) <;> cases h

end GgufParser

end TensorGrid
