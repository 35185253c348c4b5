import TensorGrid.Lib.Reader

/-!
# Byte slices and text

Range indexing and `copy_from_slice` with their panics (`slice_eq_ok`, `copyFromSlice_eq_ok`,
`copyFromSlice_panics`), big-endian numbers over the little-endian ones of `Lib.Reader`, and the
UTF-8 conversions of strings. `fromUtf8Lossy` gives back the text it is given the bytes of
(`fromUtf8Lossy_asBytes`).
-/

namespace Rust

/-! ## Slices -/

section slices

variable {ε α : Type}

/-- `buf[i]`. -/
def index (buf : List α) (i : Nat) : Outcome ε α :=
  match buf[i]? with
  | some a => .ok a
  | none => .panic

/-- `&buf[start..stop]`. -/
def slice (buf : List α) (start stop : Nat) : Outcome ε (List α) :=
  if start ≤ stop ∧ stop ≤ buf.length then .ok ((buf.take stop).drop start) else .panic

/-- `buf[start..stop].copy_from_slice(src)`: the buffer after it. -/
def copyFromSlice (buf : List α) (start stop : Nat) (src : List α) : Outcome ε (List α) :=
  if start ≤ stop ∧ stop ≤ buf.length ∧ src.length = stop - start then
    .ok (buf.take start ++ src ++ buf.drop stop)
  else .panic

theorem slice_eq_ok {buf : List α} {start stop : Nat} (hle : start ≤ stop)
    (hstop : stop ≤ buf.length) :
    slice buf start stop = (.ok ((buf.take stop).drop start) : Outcome ε (List α)) :=
  if_pos ⟨hle, hstop⟩

theorem copyFromSlice_eq_ok {buf src : List α} {start stop : Nat} (hle : start ≤ stop)
    (hstop : stop ≤ buf.length) (hsrc : src.length = stop - start) :
    copyFromSlice buf start stop src =
      (.ok (buf.take start ++ src ++ buf.drop stop) : Outcome ε (List α)) :=
  if_pos ⟨hle, hstop, hsrc⟩

theorem copyFromSlice_panics {buf : List α} {stop : Nat} (start : Nat) (src : List α)
    (h : buf.length < stop) :
    copyFromSlice buf start stop src = (.panic : Outcome ε (List α)) :=
  if_neg fun hrange => absurd hrange.2.1 (by omega)

end slices

/-! ## Big-endian numbers -/

/-- The number whose big-endian bytes are `bs`. -/
def ofBE (bs : List UInt8) : Nat := Reader.ofLE bs.reverse

/-- The `n` big-endian bytes of a number. -/
def toBE (n v : Nat) : List UInt8 := (Reader.toLE n v).reverse

@[simp] theorem length_toBE (n v : Nat) : (toBE n v).length = n := by
  rw [toBE, List.length_reverse, Reader.length_toLE]

theorem ofBE_toBE {n v : Nat} (h : v < 256 ^ n) : ofBE (toBE n v) = v := by
  rw [ofBE, toBE, List.reverse_reverse, Reader.ofLE_toLE h]

/-- The last byte is the units digit. -/
theorem toBE_succ (n v : Nat) : toBE (n + 1) v = toBE n (v / 256) ++ [UInt8.ofNat v] := by
  rw [toBE, Reader.toLE, List.reverse_cons, ← toBE]

/-- A last byte is the units digit. -/
theorem ofBE_concat (bs : List UInt8) (b : UInt8) : ofBE (bs ++ [b]) = 256 * ofBE bs + b.toNat := by
  rw [ofBE, List.reverse_append, List.reverse_singleton, List.singleton_append, Reader.ofLE,
    ofBE, Nat.add_comm]

/-! ## UTF-8 -/

/-- `as_bytes`. -/
def asBytes (s : String) : List UInt8 := s.toByteArray.data.toList

/-- A byte that continues a sequence. -/
def isContinuation (b : UInt8) : Bool := 0x80 ≤ b && b ≤ 0xBF

/-- The first two bytes of a sequence of three. -/
def beginsThree (a b : UInt8) : Bool :=
  (a = 0xE0 && 0xA0 ≤ b && b ≤ 0xBF) || (0xE1 ≤ a && a ≤ 0xEC && isContinuation b) ||
    (a = 0xED && 0x80 ≤ b && b ≤ 0x9F) || (0xEE ≤ a && a ≤ 0xEF && isContinuation b)

/-- The first two bytes of a sequence of four. -/
def beginsFour (a b : UInt8) : Bool :=
  (a = 0xF0 && 0x90 ≤ b && b ≤ 0xBF) || (0xF1 ≤ a && a ≤ 0xF3 && isContinuation b) ||
    (a = 0xF4 && 0x80 ≤ b && b ≤ 0x8F)

/-- How many bytes at the front one replacement character stands for: the longest beginning of a
sequence, if there is one, else one byte. -/
def brokenLength : List UInt8 → Nat
  | a :: b :: c :: _ =>
    if beginsThree a b then 2
    else if beginsFour a b then if isContinuation c then 3 else 2
    else 1
  | [a, b] => if beginsThree a b || beginsFour a b then 2 else 1
  | _ => 1

/-- The characters of `bs`, at most one for each unit of fuel. -/
def decodeLossy : Nat → List UInt8 → List Char
  | 0, _ => []
  | _ + 1, [] => []
  | fuel + 1, b :: bs =>
    match ByteArray.utf8DecodeChar? ⟨(b :: bs).toArray⟩ 0 with
    | some c => c :: decodeLossy fuel ((b :: bs).drop c.utf8Size)
    | none => '\uFFFD' :: decodeLossy fuel ((b :: bs).drop (brokenLength (b :: bs)))

/-- `String::from_utf8_lossy`. -/
def fromUtf8Lossy (bs : List UInt8) : String := String.ofList (decodeLossy bs.length bs)

/-- `trim_end_matches` of one character. -/
def trimEndMatches (s : String) (c : Char) : String :=
  String.ofList (s.toList.rdropWhile (· == c))

theorem asBytes_eq (s : String) : asBytes s = s.toList.flatMap String.utf8EncodeChar := by
  rw [asBytes, ← String.utf8Encode_toList, List.utf8Encode, List.data_toByteArray]

theorem utf8DecodeChar?_encodeChar (c : Char) (bs : List UInt8) :
    ByteArray.utf8DecodeChar? ⟨(String.utf8EncodeChar c ++ bs).toArray⟩ 0 = some c := by
  have harray : (⟨(String.utf8EncodeChar c ++ bs).toArray⟩ : ByteArray) =
      [c].utf8Encode ++ bs.toByteArray := by
    rw [List.utf8Encode_singleton, ← List.toByteArray_append]
    exact ByteArray.ext (by rw [List.data_toByteArray])
  rw [harray, List.utf8DecodeChar?_utf8Encode_singleton_append]

theorem length_le_length_encode (cs : List Char) :
    cs.length ≤ (cs.flatMap String.utf8EncodeChar).length := by
  induction cs with
  | nil => exact le_rfl
  | cons c cs ih =>
    rw [List.flatMap_cons, List.length_append, List.length_cons, String.length_utf8EncodeChar]
    have hpos := c.utf8Size_pos
    omega

/-- Whole characters at the front are decoded. -/
theorem decodeLossy_encode_append (fuel : Nat) (cs : List Char) (bs : List UInt8) :
    decodeLossy (cs.length + fuel) (cs.flatMap String.utf8EncodeChar ++ bs) =
      cs ++ decodeLossy fuel bs := by
  induction cs with
  | nil => rw [List.length_nil, Nat.zero_add, List.flatMap_nil, List.nil_append, List.nil_append]
  | cons c cs ih =>
    have hlen : (String.utf8EncodeChar c).length = c.utf8Size := String.length_utf8EncodeChar c
    have hdecode := utf8DecodeChar?_encodeChar c (cs.flatMap String.utf8EncodeChar ++ bs)
    have hdrop : (String.utf8EncodeChar c ++ (cs.flatMap String.utf8EncodeChar ++ bs)).drop
        c.utf8Size = cs.flatMap String.utf8EncodeChar ++ bs := by
      rw [← hlen, List.drop_left]
    rw [List.flatMap_cons, List.append_assoc, List.length_cons, Nat.succ_add]
    -- the encoding of a character has a first byte
    generalize hrest : String.utf8EncodeChar c ++ _ = rest at hdecode hdrop ⊢
    cases rest with
    | nil =>
      have hnil := congrArg List.length hrest
      have hpos := c.utf8Size_pos
      rw [List.length_append, hlen, List.length_nil] at hnil
      omega
    | cons b rest =>
      rw [decodeLossy, hdecode]
      show c :: decodeLossy (cs.length + fuel) ((b :: rest).drop c.utf8Size) = _
      rw [hdrop, ih, List.cons_append]

theorem decodeLossy_nil (fuel : Nat) : decodeLossy fuel [] = [] := by
  cases fuel <;> rfl

theorem decodeLossy_encode {fuel : Nat} {cs : List Char}
    (h : (cs.flatMap String.utf8EncodeChar).length ≤ fuel) :
    decodeLossy fuel (cs.flatMap String.utf8EncodeChar) = cs := by
  obtain ⟨more, rfl⟩ := Nat.exists_eq_add_of_le ((length_le_length_encode cs).trans h)
  have hdecode := decodeLossy_encode_append more cs []
  rwa [List.append_nil, decodeLossy_nil, List.append_nil] at hdecode

/-- What is decoded first is a character that is there whole, or the replacement character. -/
theorem decodeLossy_cons (fuel : Nat) (b : UInt8) (bs : List UInt8) : ∃ c cs,
    decodeLossy (fuel + 1) (b :: bs) = c :: cs ∧
      (c = '\uFFFD' ∨ c.utf8Size ≤ (b :: bs).length) := by
  rw [decodeLossy]
  split
  · next c hc =>
    have hsize := ByteArray.le_size_of_utf8DecodeChar?_eq_some hc
    rw [Nat.zero_add] at hsize
    exact ⟨c, _, rfl, .inr hsize⟩
  · exact ⟨_, _, rfl, .inl rfl⟩

/-- A text cut after `n` bytes: some characters whole, and less of the next one. -/
theorem take_encode {n : Nat} {cs : List Char}
    (h : n < (cs.flatMap String.utf8EncodeChar).length) : ∃ whole c more k,
      cs = whole ++ c :: more ∧ (whole.flatMap String.utf8EncodeChar).length + k = n ∧
      k < c.utf8Size ∧ (cs.flatMap String.utf8EncodeChar).take n =
        whole.flatMap String.utf8EncodeChar ++ (String.utf8EncodeChar c).take k := by
  induction cs generalizing n with
  | nil => exact absurd h (Nat.not_lt_zero n)
  | cons c cs ih =>
    have hlen : (String.utf8EncodeChar c).length = c.utf8Size := String.length_utf8EncodeChar c
    rw [List.flatMap_cons, List.length_append, hlen] at h
    by_cases hn : n < c.utf8Size
    · refine ⟨[], c, cs, n, rfl, Nat.zero_add n, hn, ?_⟩
      rw [List.flatMap_cons, List.take_append_of_le_length (by omega)]
      rfl
    · obtain ⟨whole, d, more, k, rfl, hk, hlt, htake⟩ := ih (n := n - c.utf8Size) (by omega)
      refine ⟨c :: whole, d, more, k, rfl, ?_, hlt, ?_⟩
      · rw [List.flatMap_cons, List.length_append, hlen]
        omega
      · rw [List.flatMap_cons, List.take_append, List.take_of_length_le (by omega), hlen, htake,
          List.flatMap_cons, List.append_assoc]

theorem asBytes_append (s t : String) : asBytes (s ++ t) = asBytes s ++ asBytes t := by
  rw [asBytes_eq, asBytes_eq, asBytes_eq, String.toList_append, List.flatMap_append]

theorem asBytes_nuls (n : Nat) :
    asBytes (String.ofList (List.replicate n '\x00')) = List.replicate n 0 := by
  rw [asBytes_eq, String.toList_ofList, List.flatMap_replicate]
  induction n with
  | zero => rfl
  | succ n ih =>
    rw [List.replicate_succ, List.flatten_cons, ih]
    rfl

/-- Text is decoded to itself. -/
theorem fromUtf8Lossy_asBytes (s : String) : fromUtf8Lossy (asBytes s) = s := by
  rw [fromUtf8Lossy, asBytes_eq, decodeLossy_encode le_rfl, String.ofList_toList]

theorem toList_trimEndMatches (s : String) (c : Char) :
    (trimEndMatches s c).toList = s.toList.rdropWhile (· == c) :=
  String.toList_ofList

/-- Padding goes, with what looks like it. -/
theorem rdropWhile_append_replicate (cs : List Char) (n : Nat) (c : Char) :
    (cs ++ List.replicate n c).rdropWhile (· == c) = cs.rdropWhile (· == c) := by
  induction n with
  | zero => rw [List.replicate_zero, List.append_nil]
  | succ n ih =>
    rw [List.replicate_succ', ← List.append_assoc, List.rdropWhile_concat_pos _ _ _ (by simp), ih]

theorem rdropWhile_eq_self_iff {cs : List Char} {c : Char} :
    cs.rdropWhile (· == c) = cs ↔ cs.getLast? ≠ some c := by
  rw [List.rdropWhile_eq_self_iff]
  cases cs using List.reverseRecOn with
  | nil => simp
  | append_singleton cs d => simp

/-- Padding at the end is trimmed off. -/
theorem trimEndMatches_padded {s : String} {c : Char} (h : s.toList.getLast? ≠ some c) (n : Nat) :
    trimEndMatches (s ++ String.ofList (List.replicate n c)) c = s := by
  rw [← String.toList_inj, toList_trimEndMatches, String.toList_append, String.toList_ofList,
    rdropWhile_append_replicate, rdropWhile_eq_self_iff.2 h]

end Rust
