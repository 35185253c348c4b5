import TensorGrid.Tcp.Receiving

/-!
# The fields of the header

What the writers put into the two fields of the header, and what `read_header` makes of it.

* The length: the writers keep the upper seven of eight bytes, and the reader puts a zero after
  them, so the last digit is lost (`decodeLength_lengthField`). `lengthArrives_iff`: the multiples
  of 256 arrive.
* The id: 16 bytes of its text, zero padded, are decoded as text without the zeros at its end.
  `decodeId_idField_iff`: an id arrives if it has room and does not end in a zero, or if all that is
  cut off is the end of a replacement character, which is what the decoder replaces it with.
-/

namespace TensorGrid.Tcp

open Rust

/-! ## The length -/

/-- The last digit is lost. -/
theorem decodeLength_lengthField (payloadLength : UInt64) :
    (decodeLength (lengthField payloadLength)).toNat =
      payloadLength.toNat - payloadLength.toNat % 256 := by
  have hlt : payloadLength.toNat < 2 ^ 64 := payloadLength.toNat_lt
  have hzero : (0 : UInt8).toNat = 0 := rfl
  rw [decodeLength, lengthField, take_toBE, ofBE_concat, ofBE_toBE (by omega), UInt64.toNat_ofNat',
    hzero]
  omega

/-- The length `n` is read as it was, and the receiver takes all of the `n` bytes sent. -/
def LengthArrives (n : Nat) : Prop :=
  decodeLength (lengthField (UInt64.ofNat n)) = UInt64.ofNat n ∧
    ∀ bufferSize tensorId (data : List UInt8) ended, 1 ≤ bufferSize → data.length = n →
      Lts.Inevitably (Party.step ended) (· = ⟨.done (.ok n), []⟩)
        ⟨TcpTransport.receivePayload bufferSize
          (decodeLength (lengthField (TcpClient.tensorHeader tensorId data).payloadLength)).toNat 0,
          data⟩

/-- **A length arrives exactly if it is a multiple of 256.** -/
theorem lengthArrives_iff {n : Nat} (hn : n < 2 ^ 56) : LengthArrives n ↔ n % 256 = 0 := by
  have htoNat : (UInt64.ofNat n).toNat = n := by
    rw [UInt64.toNat_ofNat']
    omega
  have hdecode := decodeLength_lengthField (UInt64.ofNat n)
  rw [htoNat] at hdecode
  refine ⟨fun harrives => ?_, fun hmod => ?_⟩
  · rw [harrives.1, htoNat] at hdecode
    omega
  · rw [hmod, Nat.sub_zero] at hdecode
    refine ⟨UInt64.toNat_inj.1 (hdecode.trans htoNat.symm), ?_⟩
    intro bufferSize tensorId data ended hb hdata
    subst hdata
    have hends := (receivePayload_ends bufferSize data.length data hb).1 le_rfl ended
    rw [List.drop_length] at hends
    rw [TcpClient.tensorHeader, hdecode]
    exact hends

theorem lengthArrives_kibibyte : LengthArrives 1024 :=
  (lengthArrives_iff (by decide)).2 rfl

theorem one_not_lengthArrives : ¬ ∀ n < 2 ^ 56, LengthArrives n := by
  intro h
  exact absurd (h 1 (by decide)).1 (by decide)

/-! ## The id -/

/-- The text ends in a replacement character whose last byte or last two are bytes 17 and 18. -/
def CutReplacement (tensorId : String) : Prop :=
  ∃ cs : List Char, tensorId.toList = cs ++ ['\uFFFD'] ∧
    ((cs.flatMap String.utf8EncodeChar).length = 14 ∨
      (cs.flatMap String.utf8EncodeChar).length = 15)

/-- There is room for the id, and its end is not taken for padding; or the id is cut within a
replacement character at its end, and read with a new one there. -/
def Survives (tensorId : String) : Prop :=
  (asBytes tensorId).length ≤ 16 ∧ tensorId.toList.getLast? ≠ some '\x00' ∨
    CutReplacement tensorId

theorem CutReplacement.length_gt {tensorId : String} (h : CutReplacement tensorId) :
    16 < (asBytes tensorId).length := by
  obtain ⟨cs, hid, hlen⟩ := h
  have hsize : (['\uFFFD'].flatMap String.utf8EncodeChar).length = 3 := rfl
  rw [asBytes_eq, hid, List.flatMap_append, List.length_append, hsize]
  omega

/-- A whole id is trimmed at its end. -/
theorem decodeId_of_le {tensorId : String} (hlen : (asBytes tensorId).length ≤ 16) :
    (decodeId (idField tensorId)).toList = tensorId.toList.rdropWhile (· == '\x00') := by
  rw [decodeId, idField, List.take_of_length_le hlen, ← asBytes_nuls, ← asBytes_append,
    fromUtf8Lossy_asBytes, toList_trimEndMatches, String.toList_append, String.toList_ofList,
    rdropWhile_append_replicate]

/-- A long id fills the field. -/
theorem idField_of_gt {tensorId : String} (hlen : 16 < (asBytes tensorId).length) :
    idField tensorId = (asBytes tensorId).take 16 := by
  have hfull : ((asBytes tensorId).take 16).length = 16 := by
    rw [List.length_take]
    omega
  rw [idField, hfull, Nat.sub_self, List.replicate_zero, List.append_nil]

/-- Some characters whole, and bytes after them. -/
theorem decodeId_append {cs : List Char} {bs : List UInt8}
    (hlen : (cs.flatMap String.utf8EncodeChar).length + bs.length = 16) :
    (decodeId (cs.flatMap String.utf8EncodeChar ++ bs)).toList =
      (cs ++ decodeLossy (16 - cs.length) bs).rdropWhile (· == '\x00') := by
  have hchars := length_le_length_encode cs
  rw [decodeId, toList_trimEndMatches, fromUtf8Lossy, List.length_append, hlen,
    String.toList_ofList, ← decodeLossy_encode_append, Nat.add_sub_cancel' (by omega)]

/-- The beginning of a replacement character is replaced with one. -/
theorem decodeLossy_replacement {fuel k : Nat} (hpos : 0 < k) (hlt : k < 3) (hfuel : 0 < fuel) :
    decodeLossy fuel ((String.utf8EncodeChar '\uFFFD').take k) = ['\uFFFD'] := by
  obtain ⟨fuel, rfl⟩ := Nat.exists_eq_add_of_le' hfuel
  obtain rfl | rfl : k = 1 ∨ k = 2 := by omega
  · show '\uFFFD' :: decodeLossy fuel [] = _
    rw [decodeLossy_nil]
  · show '\uFFFD' :: decodeLossy fuel [] = _
    rw [decodeLossy_nil]

theorem decodeId_of_cutReplacement {tensorId : String} (h : CutReplacement tensorId) :
    (decodeId (idField tensorId)).toList = tensorId.toList := by
  have hgt := h.length_gt
  obtain ⟨cs, hid, hlen⟩ := h
  have hsize : (String.utf8EncodeChar '\uFFFD').length = 3 := rfl
  have hchars := length_le_length_encode cs
  have htake : (asBytes tensorId).take 16 = cs.flatMap String.utf8EncodeChar ++
      (String.utf8EncodeChar '\uFFFD').take (16 - (cs.flatMap String.utf8EncodeChar).length) := by
    rw [asBytes_eq, hid, List.flatMap_append, List.flatMap_singleton, List.take_append,
      List.take_of_length_le (by omega)]
  rw [idField_of_gt hgt, htake, decodeId_append (by rw [List.length_take]; omega),
    decodeLossy_replacement (by omega) (by omega) (by omega), rdropWhile_eq_self_iff.2 (by simp),
    hid]

/-- A cut id that is read as it was sent ends in a replacement character that is cut. -/
theorem cutReplacement_of_decodeId {tensorId : String} (hlen : 16 < (asBytes tensorId).length)
    (heq : (decodeId (idField tensorId)).toList = tensorId.toList) : CutReplacement tensorId := by
  have hlen' := hlen
  rw [asBytes_eq] at hlen'
  obtain ⟨whole, c, more, k, hid, hk, hlt, htake⟩ := take_encode hlen'
  have hsize : ((String.utf8EncodeChar c).take k).length = k := by
    rw [List.length_take, String.length_utf8EncodeChar]
    omega
  have hchars := length_le_length_encode whole
  rw [idField_of_gt hlen, asBytes_eq, htake, decodeId_append (by omega), hid] at heq
  -- what is left after trimming is a beginning of what was decoded
  have hbegin : c :: more <+:
      decodeLossy (16 - whole.length) ((String.utf8EncodeChar c).take k) := by
    rw [← List.prefix_append_right_inj whole, ← heq]
    exact List.rdropWhile_prefix _ _
  obtain ⟨fuel, hfuel⟩ : ∃ fuel, 16 - whole.length = fuel := ⟨_, rfl⟩
  rw [hfuel] at hbegin
  cases hcut : (String.utf8EncodeChar c).take k with
  | nil =>
    rw [hcut, decodeLossy_nil] at hbegin
    exact absurd hbegin.length_le (by simp)
  | cons b bs =>
    have hpos : 0 < k := by
      rw [← hsize, hcut]
      exact Nat.succ_pos _
    obtain ⟨fuel, rfl⟩ := Nat.exists_eq_add_of_le' (show 0 < fuel by omega)
    obtain ⟨d, cs, hd, hsmall⟩ := decodeLossy_cons fuel b bs
    rw [hcut, hd, List.cons_prefix_cons] at hbegin
    obtain ⟨rfl, hmore⟩ := hbegin
    -- the cut character is not there whole, so it is the replacement character
    obtain rfl | hsmall := hsmall
    · have hthree : '\uFFFD'.utf8Size = 3 := rfl
      rw [← hcut, decodeLossy_replacement hpos (by omega) (Nat.succ_pos _)] at hd
      obtain rfl := (List.cons.inj hd).2
      obtain rfl := List.prefix_nil.1 hmore
      exact ⟨whole, hid, by omega⟩
    · rw [← hcut, hsize] at hsmall
      omega

/-- **An id is read as it was sent exactly if it survives.** -/
theorem decodeId_idField_iff (tensorId : String) :
    decodeId (idField tensorId) = tensorId ↔ Survives tensorId := by
  rw [← String.toList_inj, Survives]
  by_cases hlen : (asBytes tensorId).length ≤ 16
  · have hcut : ¬ CutReplacement tensorId := fun hcut => absurd hcut.length_gt (by omega)
    rw [decodeId_of_le hlen, rdropWhile_eq_self_iff, or_iff_left hcut, and_iff_right hlen]
  · rw [or_iff_right fun h => hlen h.1]
    exact ⟨cutReplacement_of_decodeId (by omega), decodeId_of_cutReplacement⟩

/-- The two ids are told apart, and both are read as they were sent. -/
def Arrive (tensorId tensorId' : String) : Prop :=
  idField tensorId ≠ idField tensorId' ∧ decodeId (idField tensorId) = tensorId ∧
    decodeId (idField tensorId') = tensorId'

/-- **Two ids arrive exactly if both survive.** -/
theorem arrive_iff {tensorId tensorId' : String} (hne : tensorId ≠ tensorId') :
    Arrive tensorId tensorId' ↔ Survives tensorId ∧ Survives tensorId' := by
  rw [Arrive, decodeId_idField_iff, decodeId_idField_iff]
  refine ⟨And.right, fun h => ⟨fun heq => hne ?_, h⟩⟩
  rw [← (decodeId_idField_iff tensorId).2 h.1, heq, (decodeId_idField_iff tensorId').2 h.2]

theorem arrive_short : Arrive "layers.0.q" "layers.0.k" :=
  (arrive_iff (by decide)).2 ⟨.inl (by decide +kernel), .inl (by decide +kernel)⟩

/-- Two names with the same 16 bytes at the front. -/
theorem not_arrive_long :
    ¬ ∀ tensorId tensorId', tensorId ≠ tensorId' → Arrive tensorId tensorId' := by
  intro h
  exact (h "model.layers.0.attn.q" "model.layers.0.attn.k" (by decide)).1 (by decide +kernel)

end TensorGrid.Tcp
