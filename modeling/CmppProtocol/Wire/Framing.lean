import CmppProtocol.Wire.Bodies

/-! # Frames

A frame is its length, command id, sequence id and body. The codec appends
exactly these octets, and takes them off the front of a buffer again.
-/

namespace CmppProtocol

open Fallible

variable {f : Frame} {src : List UInt8}

/-- The big-endian number at an offset of the buffer. -/
def wordAt (src : List UInt8) (i : ℕ) : UInt32 :=
  fromBeBytes (src.getD i 0) (src.getD (i + 1) 0) (src.getD (i + 2) 0) (src.getD (i + 3) 0)

/-- The length that the first four bytes announce. -/
def announced (src : List UInt8) : ℕ := (wordAt src 0).toNat

/-- The announced length is one that the codec accepts. -/
def LengthOk (src : List UInt8) : Prop := CmppFrameCodec.lengthInRange (announced src) = true

theorem lengthOk_iff :
    LengthOk src ↔
      CMPP_HEADER_LENGTH ≤ announced src ∧ announced src ≤ CMPP_MAX_MESSAGE_LENGTH := by
  simp only [LengthOk, CmppFrameCodec.lengthInRange, Bool.and_eq_true, decide_eq_true_eq]

theorem wordAt_append {i : ℕ} (h : i + 4 ≤ src.length) (more : List UInt8) :
    wordAt (src ++ more) i = wordAt src i := by
  have hget : ∀ j < src.length, (src ++ more).getD j 0 = src.getD j 0 := by
    intro j hj
    rw [List.getD_eq_getElem?_getD, List.getElem?_append_left hj, List.getD_eq_getElem?_getD]
  rw [wordAt, hget _ (by omega), hget _ (by omega), hget _ (by omega), hget _ (by omega), wordAt]

theorem index_getD {σ : Type} {i : ℕ} (h : i < src.length) :
    index (ε := Error) (σ := σ) src i = pure (src.getD i 0) := by
  rw [index_eq h, List.getD_eq_getElem?_getD, List.getElem?_eq_getElem h, Option.getD_some]

namespace CmppFrameCodec

/-- What is done with the bytes of a whole frame. -/
def decodeFrame (src : List UInt8) : Fallible Error (List UInt8) (Option Frame) := do
  let pdu ← Pdu.decode ⟨wordAt src 0, wordAt src 4, wordAt src 8⟩
    ((src.take (announced src)).drop CMPP_HEADER_LENGTH)
  pure (some ⟨wordAt src 8, pdu⟩)

theorem decode_short (h : src.length < CMPP_HEADER_LENGTH) : decode src = some (.ok none, src) := by
  simp only [decode, state_bind, h, if_true, pure_apply]

variable (h : CMPP_HEADER_LENGTH ≤ src.length)
include h

theorem index_word {i : ℕ} (hi : i + 4 ≤ CMPP_HEADER_LENGTH) :
    (fromBeBytes <$> index src i <*> index src (i + 1) <*> index src (i + 2) <*> index src (i + 3) :
      Fallible Error (List UInt8) UInt32) = pure (wordAt src i) := by
  rw [index_getD (by omega), index_getD (by omega), index_getD (by omega), index_getD (by omega)]
  rfl

theorem decode_rejected (hlen : ¬ LengthOk src) :
    decode src = some (.error (lengthError (announced src)), src) := by
  have hw := index_word h (i := 0) (by decide)
  simp only [Nat.zero_add] at hw
  have hbad : lengthInRange (wordAt src 0).toNat = false := Bool.eq_false_iff.mpr hlen
  simp only [decode, state_bind, not_lt.mpr h, if_false, hw, pure_bind', hbad, Bool.false_eq_true,
    not_false_eq_true, if_true, fail_apply, announced]

theorem decode_waits (hlen : LengthOk src) (hshort : src.length < announced src) :
    decode src = some (.ok none, src) := by
  have hw := index_word h (i := 0) (by decide)
  simp only [Nat.zero_add] at hw
  have hok : lengthInRange (wordAt src 0).toNat = true := hlen
  have hlt : src.length < (wordAt src 0).toNat := hshort
  simp only [decode, state_bind, not_lt.mpr h, if_false, hw, pure_bind', hok, not_true_eq_false,
    hlt, if_true, pure_apply]

omit h in
theorem decode_takes (hlen : LengthOk src) (hlong : announced src ≤ src.length) :
    decode src = decodeFrame src (src.drop (announced src)) := by
  have hle := (lengthOk_iff.mp hlen).1
  have h : CMPP_HEADER_LENGTH ≤ src.length := hle.trans hlong
  have hw := index_word h (i := 0) (by decide)
  have hc := index_word h (i := 4) (by decide)
  have hs := index_word h (i := 8) (by decide)
  have hann : (wordAt src 0).toNat = announced src := rfl
  have hok : lengthInRange (announced src) = true := hlen
  have hge : ¬ src.length < announced src := not_lt.mpr hlong
  have hraw := slice_eq (ε := Error) (σ := List UInt8) (Nat.zero_le (announced src)) hlong
  have hbody := slice_eq (ε := Error) (σ := List UInt8)
    (show CMPP_HEADER_LENGTH ≤ (src.take (announced src)).length by
      rw [List.length_take, min_eq_left hlong]
      exact hle) le_rfl
  rw [List.take_length] at hbody
  simp only [Nat.zero_add, Nat.reduceAdd] at hw hc hs
  simp only [decode, state_bind, not_lt.mpr h, if_false, hw, pure_bind', hann, hok,
    not_true_eq_false, hge, hc, hs, hraw, put_bind, List.drop_zero, hbody]
  rw [decodeFrame]

end CmppFrameCodec

/-! ## The octets of a frame -/

namespace Frame

/-- The octets that encoding appends. -/
def octets (f : Frame) : List UInt8 :=
  toBeBytes (.ofNat (CMPP_HEADER_LENGTH + f.pdu.body.length)) ++ toBeBytes f.pdu.commandId ++
    toBeBytes f.sequenceId ++ f.pdu.body

def onWire (f : Frame) : Frame := { f with pdu := f.pdu.onWire }

theorem length_octets (f : Frame) : f.octets.length = CMPP_HEADER_LENGTH + f.pdu.body.length := by
  simp only [octets, List.length_append, length_toBeBytes, CMPP_HEADER_LENGTH]

theorem wordAt_toBeBytes (x : UInt32) (more : List UInt8) : wordAt (toBeBytes x ++ more) 0 = x :=
  fromBeBytes_toBeBytes x

variable (h : ¬ f.pdu.Oversized) (more : List UInt8)
include h

theorem length_octets_le : f.octets.length ≤ CMPP_MAX_MESSAGE_LENGTH := by
  have := Pdu.length_body_le h
  rw [length_octets]
  unfold CMPP_HEADER_LENGTH CMPP_MAX_MESSAGE_LENGTH
  omega

theorem announced_octets : announced (f.octets ++ more) = f.octets.length := by
  have hbody := Pdu.length_body_le h
  have hw : wordAt (f.octets ++ more) 0 = .ofNat (CMPP_HEADER_LENGTH + f.pdu.body.length) := by
    simp only [octets, List.append_assoc]
    exact wordAt_toBeBytes _ _
  rw [announced, hw, length_octets]
  exact UInt32.toNat_ofNat_of_lt' (by unfold CMPP_HEADER_LENGTH UInt32.size; omega)

end Frame

namespace CmppFrameCodec

theorem encode_oversized (h : f.pdu.Oversized) (dst : List UInt8) :
    ∃ e, encode f dst = some (.error e, dst) := by
  obtain ⟨e, he⟩ := Pdu.validateEncode_of_oversized h
  exact ⟨e, by simp only [encode, Pdu.tryEncodeInto, he, fail_apply]⟩

/-- Encoding appends the octets of the frame, also to a buffer that is not empty. -/
theorem encode_appends (h : ¬ f.pdu.Oversized) (dst : List UInt8) :
    encode f dst = some (.ok (), dst ++ f.octets) := by
  have hbody := Pdu.encodeBody_eq (σ := List UInt8) h
    (putU32 (putU32 (putU32 dst 0) f.pdu.commandId) f.sequenceId)
  simp only [encode, Pdu.tryEncodeInto, Pdu.validateEncode_ok h, Pdu.encodeFrameInto, state_bind,
    hbody, pure_bind']
  have hlen : (putU32 (putU32 (putU32 dst 0) f.pdu.commandId) f.sequenceId ++ f.pdu.body).length =
      dst.length + (CMPP_HEADER_LENGTH + f.pdu.body.length) := by
    simp only [putU32, List.length_append, length_toBeBytes, CMPP_HEADER_LENGTH]
    omega
  have hroom : dst.length + 4 ≤ dst.length + (CMPP_HEADER_LENGTH + f.pdu.body.length) := by
    unfold CMPP_HEADER_LENGTH
    omega
  rw [hlen, if_pos hroom, Nat.add_sub_cancel_left]
  have hdrop : ∀ rest : List UInt8,
      (dst ++ (toBeBytes 0 ++ rest)).drop (dst.length + 4) = rest := by
    intro rest
    rw [← List.append_assoc, List.drop_left' (by simp)]
  simp only [putU32, List.append_assoc, List.take_left, hdrop, put, Frame.octets]

/-- Decoding takes the octets of a frame off the front of the buffer. -/
theorem decode_octets (h : ¬ f.pdu.Oversized) (more : List UInt8) :
    decode (f.octets ++ more) = some (.ok (some f.onWire), more) := by
  have hann := Frame.announced_octets h more
  have hlen : LengthOk (f.octets ++ more) := by
    rw [lengthOk_iff, hann]
    refine ⟨?_, Frame.length_octets_le h⟩
    rw [Frame.length_octets]
    exact Nat.le_add_right _ _
  have hlong : announced (f.octets ++ more) ≤ (f.octets ++ more).length := by
    rw [hann, List.length_append]
    exact Nat.le_add_right _ _
  have hcommand : wordAt (f.octets ++ more) 4 = f.pdu.commandId := fromBeBytes_toBeBytes _
  have hsequence : wordAt (f.octets ++ more) 8 = f.sequenceId := fromBeBytes_toBeBytes _
  have hbody : f.octets.drop CMPP_HEADER_LENGTH = f.pdu.body := by
    exact List.drop_left' rfl
  rw [decode_takes hlen hlong, decodeFrame, hann, List.take_left, List.drop_left, hbody]
  rw [hsequence]
  exact (Pdu.decode_body h hcommand more).bind (Returns.pure (some f.onWire) more)

end CmppFrameCodec

end CmppProtocol
