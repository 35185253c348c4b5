import TensorGrid.Quic.Framing

/-!
# Streams of any peer

`receive_tensor` allocates two buffers before their bytes are there. The first has at most
2 ^ 32 - 1 bytes, but the `size` of the metadata is any `u64`, and from 2 ^ 63 on no machine has the
memory. `receiveTensor_returns_iff`: the reader returns from a stream exactly if the buffers that it
announces can be allocated.
-/

namespace TensorGrid.Quic

open Rust

variable (libs : Libraries)

/-- The stream begins with complete metadata, and they declare the size. -/
def Declares (size : UInt64) (stream : List UInt8) : Prop :=
  ∃ lenBytes metadataBytes rest metadata tensorId, stream = lenBytes ++ (metadataBytes ++ rest) ∧
    lenBytes.length = 4 ∧ metadataBytes.length = ofBE lenBytes ∧
    libs.fromSlice metadataBytes = .ok metadata ∧
    (metadata.get "tensor_id").asStr = some tensorId ∧ (metadata.get "size").asU64 = some size

/-- The stream announces a buffer: that of the metadata behind a complete length, that of the data
behind complete metadata. -/
inductive Announces : Nat → List UInt8 → Prop
  | metadata {lenBytes rest : List UInt8} (hlen : lenBytes.length = 4) :
    Announces (ofBE lenBytes) (lenBytes ++ rest)
  | data {size : UInt64} {stream : List UInt8} (h : Declares libs size stream) :
    Announces size.toNat stream

/-- The call returns `Ok` or `Err`. -/
def Returns (pieces : List (List UInt8)) : Prop :=
  (∃ r, QuicClient.receiveTensor libs pieces = .ok r) ∨
    ∃ e, QuicClient.receiveTensor libs pieces = .err e

variable {libs}

theorem require_eq_ok {α : Type} {text : String} {x : Option α} {a : α} :
    require text x = .ok a ↔ x = some a := by
  cases x <;> simp [require]

theorem require_not_panics {α : Type} {text : String} {x : Option α} :
    require text x ≠ .panic := by
  cases x <;> simp [require]

theorem parseMetadata_eq_ok {bytes : List UInt8} {metadata : Json} :
    parseMetadata libs bytes = .ok metadata ↔ libs.fromSlice bytes = .ok metadata := by
  unfold parseMetadata
  cases libs.fromSlice bytes <;> simp

theorem parseMetadata_not_panics {bytes : List UInt8} : parseMetadata libs bytes ≠ .panic := by
  unfold parseMetadata
  cases libs.fromSlice bytes <;> simp

/-- **The reader panics** on the streams that announce too much. -/
theorem receiveTensor_panicsOn : PieceReader.PanicsOn (QuicClient.receiveTensor libs) fun stream =>
    ∃ n, Announces libs n stream ∧ ¬ fits libs.allocates n := by
  have hdata (n : Nat) (tensorId : TensorId) : PieceReader.PanicsOn (do
      let data ← readExact libs n
      pure (tensorId, data)) _ := .readExact_bind fun _ => PieceReader.panicsOn_pure _
  have hreader : PieceReader.PanicsOn (QuicClient.receiveTensor libs) _ :=
    .readExact_bind fun lenBytes => .lift_bind fun _ => .readExact_bind fun metadataBytes =>
      .lift_bind fun metadata => .lift_bind fun tensorId => .lift_bind fun size =>
        .lift_bind fun _ => hdata size.toNat tensorId
  refine hreader.congr fun stream => ?_
  simp only [parseMetadata_not_panics, require_not_panics, parseMetadata_eq_ok, require_eq_ok,
    allocate_panics, and_false, exists_false, or_false, false_or]
  constructor
  · intro h
    obtain ⟨lenBytes, rest, rfl, hlen, hfits | ⟨-, -, metadataBytes, rest', rfl, hmetadata,
      metadata, hjson, tensorId, hid, size, hsize, hfits⟩⟩ := h
    · exact ⟨_, .metadata hlen, hfits⟩
    · exact ⟨_, .data ⟨lenBytes, metadataBytes, rest', metadata, tensorId, rfl, hlen, hmetadata,
        hjson, hid, hsize⟩, hfits⟩
  · intro h
    obtain ⟨_, hannounces, hfits⟩ := h
    cases hannounces with
    | metadata hlen => exact ⟨_, _, rfl, hlen, .inl hfits⟩
    | data h =>
      obtain ⟨lenBytes, metadataBytes, rest, metadata, tensorId, rfl, hlen, hmetadata, hjson, hid,
        hsize⟩ := h
      refine ⟨lenBytes, _, rfl, hlen, ?_⟩
      by_cases hfirst : fits libs.allocates (ofBE lenBytes)
      · exact .inr ⟨(), allocate_of_fits hfirst, metadataBytes, rest, rfl, hmetadata, metadata,
          hjson, tensorId, hid, _, hsize, hfits⟩
      · exact .inl hfirst

/-- **The reader returns** from a stream if the buffers that it announces can be allocated, and only
then. -/
theorem receiveTensor_returns_iff (libs : Libraries) (pieces : List (List UInt8)) :
    Returns libs pieces ↔ ∀ n, Announces libs n pieces.flatten → fits libs.allocates n := by
  rw [Returns, Outcome.returns_iff, Ne, receiveTensor_panicsOn pieces]
  simp only [not_exists, not_and, not_not]

/-- Metadata that declare 2 ^ 64 - 1 bytes. -/
private def greedyText : String := "\x7b\"size\":18446744073709551615,\"tensor_id\":\"w\"\x7d"

/-- `serde_json` on them. -/
private def greedyLibraries : Libraries where
  toString _ := greedyText
  fromSlice bytes :=
    if bytes = asBytes greedyText then
      .ok (.object [("size", .ofU64 18446744073709551615), ("tensor_id", .string "w")])
    else .error "eof"
  finishedEarly read := "stream finished early (" ++ ToString.toString read ++ " bytes read)"
  allocates _ := true

/-- Their length and they are the whole stream. -/
theorem receiveTensor_not_returns_greedy :
    ¬ Returns greedyLibraries [[0, 0, 0, 45], asBytes greedyText] := by
  have hpanic : QuicClient.receiveTensor greedyLibraries [[0, 0, 0, 45], asBytes greedyText] =
      .panic := by
    decide +kernel
  unfold Returns
  simp [hpanic]

end TensorGrid.Quic
