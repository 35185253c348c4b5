import TensorGrid.Tcp.Connection

/-!
# The receive loop takes the announced bytes

The loop of `handle_tensor_transfer`, on a stream that gives its bytes in any chunks and then may or
may not end. By induction on the bytes still to come, it ends in every case: with the announced
bytes taken and no others, or at the end of the stream (`receivePayload_ends`).
-/

namespace TensorGrid.Tcp

open Rust

section
variable {bufferSize payloadLength totalReceived : Nat} {stream : List UInt8}

/-- The loop while bytes are to come: a read of at least one byte and at most those. -/
theorem receivePayload_of_lt (h : totalReceived < payloadLength) :
    TcpTransport.receivePayload bufferSize payloadLength totalReceived =
      .read (min bufferSize (payloadLength - totalReceived)) fun bs =>
        if bs.length = 0 then .done (.err .connectionClosed)
        else TcpTransport.receivePayload bufferSize payloadLength (totalReceived + bs.length) := by
  rw [TcpTransport.receivePayload, if_pos h]

theorem receivePayload_self : TcpTransport.receivePayload bufferSize payloadLength payloadLength =
    .done (.ok payloadLength) := by
  rw [TcpTransport.receivePayload, if_neg (lt_irrefl _)]
  rfl

/-- **One round of the loop**, if it is not the last of the stream. -/
theorem inevitably_round {P : Party Effect TcpError Nat → Prop} {ended : Bool}
    (hbuffer : 0 < bufferSize) (hlt : totalReceived < payloadLength) (hstream : stream ≠ [])
    (h : ∀ bs rest, stream = bs ++ rest → 0 < bs.length →
      bs.length ≤ payloadLength - totalReceived → Lts.Inevitably (Party.step ended) P
        ⟨TcpTransport.receivePayload bufferSize payloadLength (totalReceived + bs.length), rest⟩) :
    Lts.Inevitably (Party.step ended) P
      ⟨TcpTransport.receivePayload bufferSize payloadLength totalReceived, stream⟩ := by
  rw [receivePayload_of_lt hlt]
  refine Party.inevitably_read (by omega) hstream fun bs rest hbs hne hlen => ?_
  have hpos := List.length_pos_iff.2 hne
  rw [if_neg hpos.ne']
  exact h bs rest hbs hpos (hlen.trans (min_le_right _ _))

/-- There are enough bytes. -/
theorem inevitably_received (ended : Bool) (hbuffer : 0 < bufferSize)
    (hle : totalReceived ≤ payloadLength)
    (hstream : payloadLength - totalReceived ≤ stream.length) :
    Lts.Inevitably (Party.step ended)
      (· = ⟨.done (.ok payloadLength), stream.drop (payloadLength - totalReceived)⟩)
      ⟨TcpTransport.receivePayload bufferSize payloadLength totalReceived, stream⟩ := by
  -- by induction on the bytes still to come
  induction hleft : payloadLength - totalReceived using Nat.strong_induction_on
    generalizing totalReceived stream with
  | _ left ih =>
    obtain hlt | rfl := hle.lt_or_eq
    · have hne : stream ≠ [] := by
        rintro rfl
        rw [List.length_nil] at hstream
        omega
      refine inevitably_round hbuffer hlt hne fun bs rest hbs hpos hlen => ?_
      have hrest : stream.drop left = rest.drop (left - bs.length) := by
        rw [hbs, List.drop_append, List.drop_eq_nil_of_le (by omega), List.nil_append]
      rw [hbs, List.length_append] at hstream
      rw [hrest]
      exact ih _ (by omega) (by omega) (by omega) (by omega)
    · rw [receivePayload_self, ← hleft, Nat.sub_self, List.drop_zero]
      exact .here rfl

/-- The stream ends before. -/
theorem inevitably_closed (hbuffer : 0 < bufferSize)
    (hstream : stream.length < payloadLength - totalReceived) :
    Lts.Inevitably (Party.step true) (· = ⟨.done (.err .connectionClosed), []⟩)
      ⟨TcpTransport.receivePayload bufferSize payloadLength totalReceived, stream⟩ := by
  induction hleft : stream.length using Nat.strong_induction_on
    generalizing totalReceived stream with
  | _ left ih =>
    have hlt : totalReceived < payloadLength := by omega
    by_cases hne : stream = []
    · rw [hne, receivePayload_of_lt hlt]
      exact Party.inevitably_read_eof (.here rfl)
    · refine inevitably_round hbuffer hlt hne fun bs rest hbs hpos hlen => ?_
      rw [hbs, List.length_append] at hleft hstream
      exact ih _ (by omega) (by omega) rfl

end

/-- **The receive loop ends**, whatever chunks the stream gives: with the announced bytes taken and
the others left, if the stream has as many, and with `ConnectionClosed` if it ends before. -/
theorem receivePayload_ends (bufferSize payloadLength : Nat) (stream : List UInt8)
    (hbuffer : 1 ≤ bufferSize) :
    (payloadLength ≤ stream.length → ∀ ended, Lts.Inevitably (Party.step ended)
      (· = ⟨.done (.ok payloadLength), stream.drop payloadLength⟩)
      ⟨TcpTransport.receivePayload bufferSize payloadLength 0, stream⟩) ∧
    (stream.length < payloadLength → Lts.Inevitably (Party.step true)
      (· = ⟨.done (.err .connectionClosed), []⟩)
      ⟨TcpTransport.receivePayload bufferSize payloadLength 0, stream⟩) :=
  ⟨fun hle ended => inevitably_received ended hbuffer (Nat.zero_le _) hle,
    fun hlt => inevitably_closed hbuffer hlt⟩

/-- Three of five bytes, read by two. -/
theorem receivePayload_ends_three : Lts.Inevitably (Party.step false)
    (· = ⟨.done (.ok 3), [4, 5]⟩) ⟨TcpTransport.receivePayload 2 3 0, [1, 2, 3, 4, 5]⟩ :=
  (receivePayload_ends 2 3 [1, 2, 3, 4, 5] (by decide)).1 (by decide) false

end TensorGrid.Tcp
