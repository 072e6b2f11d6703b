import CmppProtocol.Wire.Framing

/-! # Round trips

A frame whose counts fit is appended as one message and decoded back, with its
text fields as they come off the wire. Texts that fit their fields come back
unchanged, and so does any list of such frames.
-/

namespace CmppProtocol

open Fallible

/-- The text fits the field and does not end in padding. -/
def FitsField (s : String) (width : ℕ) : Prop :=
  (Utf8.bytes s).length ≤ width ∧ ∀ b, (Utf8.bytes s).getLast? = some b → isPadding b = false

theorem FitsField.wireText_eq {s : String} {width : ℕ} (h : FitsField s width) :
    wireText s width = s := CmppProtocol.wireText_eq h.1 h.2

namespace Pdu

/-- The text fields of a PDU with their widths. -/
def textFields : Pdu → List (String × ℕ)
  | connect p => [(p.sourceAddr, 6)]
  | submit p =>
    [(p.serviceId, 10), (p.feeTerminalId, 21), (p.msgSrc, 6), (p.feeType, 2), (p.feeCode, 6),
      (p.validTime, 17), (p.atTime, 17), (p.srcId, 21)] ++ p.destTerminalIds.map fun d => (d, 21)
  | deliver p => [(p.destId, 21), (p.serviceId, 10), (p.srcTerminalId, 21)]
  | _ => []

def Fits (pdu : Pdu) : Prop := ∀ field ∈ pdu.textFields, FitsField field.1 field.2

theorem onWire_of_fits {pdu : Pdu} (h : pdu.Fits) : pdu.onWire = pdu := by
  have hfield : ∀ s width, (s, width) ∈ pdu.textFields → wireText s width = s :=
    fun s width hm => (h _ hm).wireText_eq
  cases pdu with
  | connect p => rw [onWire, Connect.onWire, hfield p.sourceAddr 6 (by simp [textFields])]
  | submit p =>
    have hids : p.destTerminalIds.map (wireText · 21) = p.destTerminalIds := by
      refine (List.map_congr_left fun d hd => ?_).trans (List.map_id _)
      exact hfield d 21 (List.mem_append_right _ (List.mem_map_of_mem hd))
    rw [onWire, Submit.onWire, hids, hfield p.serviceId 10 (by simp [textFields]),
      hfield p.feeTerminalId 21 (by simp [textFields]), hfield p.msgSrc 6 (by simp [textFields]),
      hfield p.feeType 2 (by simp [textFields]), hfield p.feeCode 6 (by simp [textFields]),
      hfield p.validTime 17 (by simp [textFields]), hfield p.atTime 17 (by simp [textFields]),
      hfield p.srcId 21 (by simp [textFields])]
  | deliver p =>
    rw [onWire, Deliver.onWire, hfield p.destId 21 (by simp [textFields]),
      hfield p.serviceId 10 (by simp [textFields]),
      hfield p.srcTerminalId 21 (by simp [textFields])]
  | _ => rfl

end Pdu

namespace CmppFrameCodec

variable {f : Frame} {fs : List Frame}

/-- Encode frames back to back. -/
def encodeAll : List Frame → Fallible Error (List UInt8) Unit
  | [] => pure ()
  | f :: fs => do
    encode f
    encodeAll fs

theorem encodeAll_appends (h : ∀ f ∈ fs, ¬ f.pdu.Oversized) (dst : List UInt8) :
    encodeAll fs dst = some (.ok (), dst ++ fs.flatMap Frame.octets) := by
  induction fs generalizing dst with
  | nil => rw [encodeAll, pure_apply, List.flatMap_nil, List.append_nil]
  | cons f fs ih =>
    have hf := encode_appends (h f List.mem_cons_self) dst
    have hrest := ih (fun g hg => h g (List.mem_cons_of_mem _ hg)) (dst ++ f.octets)
    rw [List.append_assoc] at hrest
    exact Returns.bind hf hrest

theorem decodeAll_octets (h : ∀ f ∈ fs, ¬ f.pdu.Oversized) (suffix : List UInt8) :
    Returns (collect decode fs.length) (fs.flatMap Frame.octets ++ suffix)
      (fs.map fun f => some f.onWire) suffix := by
  induction fs with
  | nil => exact Returns.pure [] suffix
  | cons f fs ih =>
    have hf := decode_octets (h f List.mem_cons_self) (fs.flatMap Frame.octets ++ suffix)
    have hrest := ih fun g hg => h g (List.mem_cons_of_mem _ hg)
    rw [List.flatMap_cons, List.append_assoc]
    exact Returns.bind hf (hrest.bind (Returns.pure _ suffix))

/-- Encode then decode over the whole format. -/
theorem frame_round_trip (f : Frame) (dst : List UInt8) :
    ((∃ e dst', encode f dst = some (.error e, dst')) ↔ f.pdu.Oversized) ∧
    (f.pdu.Oversized → ∃ e, encode f dst = some (.error e, dst)) ∧
    (¬ f.pdu.Oversized → ∃ bytes, encode f dst = some (.ok (), dst ++ bytes) ∧
      announced bytes = bytes.length ∧ 12 ≤ bytes.length ∧ bytes.length ≤ 65536 ∧
      ∀ suffix, decode (bytes ++ suffix) = some (.ok (some f.onWire), suffix)) ∧
    (f.pdu.Fits → f.onWire = f) ∧
    ∀ fs : List Frame, (∀ f ∈ fs, ¬ f.pdu.Oversized ∧ f.pdu.Fits) →
      ∃ bytes, encodeAll fs dst = some (.ok (), dst ++ bytes) ∧
        ∀ suffix, collect decode fs.length (bytes ++ suffix) =
          some (.ok (fs.map some), suffix) := by
  have honWire : ∀ f : Frame, f.pdu.Fits → f.onWire = f := by
    intro f hf
    rw [Frame.onWire, Pdu.onWire_of_fits hf]
  refine ⟨⟨?_, ?_⟩, fun h => encode_oversized h dst, ?_, honWire f, ?_⟩
  · rintro ⟨e, dst', he⟩
    by_contra h
    rw [encode_appends h] at he
    cases he
  · intro h
    obtain ⟨e, he⟩ := encode_oversized h dst
    exact ⟨e, dst, he⟩
  · intro h
    refine ⟨f.octets, encode_appends h dst, ?_, ?_, Frame.length_octets_le h, decode_octets h⟩
    · simpa using Frame.announced_octets h []
    · rw [Frame.length_octets]
      exact Nat.le_add_right 12 _
  · intro fs hfs
    refine ⟨_, encodeAll_appends (fun f hf => (hfs f hf).1) dst, fun suffix => ?_⟩
    have hmap : fs.map (fun f => some f.onWire) = fs.map some :=
      List.map_congr_left fun f hf => congrArg some (honWire f (hfs f hf).2)
    rw [← hmap]
    exact decodeAll_octets (fun f hf => (hfs f hf).1) suffix

end CmppFrameCodec

end CmppProtocol
