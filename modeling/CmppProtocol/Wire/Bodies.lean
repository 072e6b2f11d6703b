import CmppProtocol.Wire.Pdu
import CmppProtocol.Wire.Reading

/-! # Bodies

What an encoder appends is described as one list of octets for each PDU; its
decoder reads exactly these octets and returns the PDU with every text field as
it comes off the wire. No decoder aborts, whatever the body.
-/

namespace CmppProtocol

open Fallible BodyReader Cursor

namespace Connect

def body (p : Connect) : List UInt8 :=
  octets p.sourceAddr 6 ++ (p.authenticatorSource.toList ++ ([p.version] ++ toBeBytes p.timestamp))

def onWire (p : Connect) : Connect := { p with sourceAddr := wireText p.sourceAddr 6 }

theorem encodeBody_eq (p : Connect) (buf : List UInt8) : p.encodeBody buf = buf ++ p.body := by
  simp only [encodeBody, putOctetStr_eq, putSlice, putU8, putU32, body, List.append_assoc]

theorem decode_body (p : Connect) : ReadsAll decode p.body p.onWire := by
  refine .bind (reads_octetStr _ _) (.bind (reads_takeArray _) (.bind (reads_u8 _) ?_))
  rw [← List.append_nil (toBeBytes p.timestamp)]
  exact .bind (reads_u32 _) (.finish _ _)

theorem sound_decode : Sound Inside decode fun _ => True :=
  (sound_octetStr _).bind fun _ _ => (sound_takeArray _).bind fun _ _ => sound_u8.bind fun _ _ =>
    sound_u32.bind fun _ _ => (sound_finish _).bind fun _ _ => .pure trivial

end Connect

namespace ConnectResp

def body (p : ConnectResp) : List UInt8 :=
  [p.status] ++ (p.authenticatorIsmg.toList ++ ([p.version] ++ []))

theorem encodeBody_eq (p : ConnectResp) (buf : List UInt8) : p.encodeBody buf = buf ++ p.body := by
  simp only [encodeBody, putSlice, putU8, body, List.append_assoc, List.append_nil]

theorem decode_body (p : ConnectResp) : ReadsAll decode p.body p :=
  .bind (reads_u8 _) (.bind (reads_takeArray _) (.bind (reads_u8 _) (.finish _ _)))

theorem sound_decode : Sound Inside decode fun _ => True :=
  sound_u8.bind fun _ _ => (sound_takeArray _).bind fun _ _ => sound_u8.bind fun _ _ =>
    (sound_finish _).bind fun _ _ => .pure trivial

end ConnectResp

namespace Submit

/-- The fields in front of the destinations. -/
def head (p : Submit) : List UInt8 :=
  p.msgId.toList ++ ([p.pkTotal] ++ ([p.pkNumber] ++ ([p.registeredDelivery] ++ ([p.msgLevel] ++
    (octets p.serviceId 10 ++ ([p.feeUserType] ++ (octets p.feeTerminalId 21 ++ ([p.tpPid] ++
    ([p.tpUdhi] ++ ([p.msgFmt] ++ (octets p.msgSrc 6 ++ (octets p.feeType 2 ++
    (octets p.feeCode 6 ++ (octets p.validTime 17 ++ (octets p.atTime 17 ++
    octets p.srcId 21)))))))))))))))

/-- The destinations, the content and the reserved octets. -/
def tail (p : Submit) : List UInt8 :=
  p.destTerminalIds.flatMap (octets · 21) ++ ([.ofNat p.msgContent.length] ++ (p.msgContent ++
    (List.replicate 8 0 ++ [])))

def body (p : Submit) : List UInt8 := p.head ++ ([.ofNat p.destTerminalIds.length] ++ p.tail)

def onWire (p : Submit) : Submit :=
  { p with
    serviceId := wireText p.serviceId 10
    feeTerminalId := wireText p.feeTerminalId 21
    msgSrc := wireText p.msgSrc 6
    feeType := wireText p.feeType 2
    feeCode := wireText p.feeCode 6
    validTime := wireText p.validTime 17
    atTime := wireText p.atTime 17
    srcId := wireText p.srcId 21
    destTerminalIds := p.destTerminalIds.map (wireText · 21) }

def Encodable (p : Submit) : Prop := p.destTerminalIds.length ≤ 255 ∧ p.msgContent.length ≤ 255

variable {p : Submit}

theorem length_destinations (ds : List String) :
    (ds.flatMap (octets · 21)).length = ds.length * 21 := by
  induction ds with
  | nil => rfl
  | cons d ds ih =>
    rw [List.flatMap_cons, List.length_append, length_octets, ih, List.length_cons]
    omega

theorem length_tail (p : Submit) :
    p.tail.length = p.destTerminalIds.length * 21 + p.msgContent.length + 9 := by
  simp only [tail, List.length_append, length_destinations, List.length_cons, List.length_nil,
    List.length_replicate]
  omega

theorem length_body (p : Submit) :
    p.body.length = 126 + p.destTerminalIds.length * 21 + p.msgContent.length := by
  simp only [body, head, List.length_append, length_octets, length_tail, Vector.length_toList,
    List.length_cons, List.length_nil]
  omega

theorem foldl_putOctetStr (ds : List String) (buf : List UInt8) :
    ds.foldl (fun buf d => putOctetStr buf d 21) buf = buf ++ ds.flatMap (octets · 21) := by
  induction ds generalizing buf with
  | nil => simp
  | cons d ds ih => rw [List.foldl_cons, ih, putOctetStr_eq, List.flatMap_cons, List.append_assoc]

theorem encodeBody_eq {σ : Type} (h : p.Encodable) (buf : List UInt8) :
    (p.encodeBody buf : Fallible Error σ _) = pure (buf ++ p.body) := by
  have hd : expectU8 (σ := σ) p.destTerminalIds.length = pure (.ofNat _) :=
    if_pos (Nat.lt_succ_of_le h.1)
  have hc : expectU8 (σ := σ) p.msgContent.length = pure (.ofNat _) :=
    if_pos (Nat.lt_succ_of_le h.2)
  simp only [encodeBody, hd, hc, pure_bind', foldl_putOctetStr]
  simp only [putOctetStr_eq, putSlice, putU8, body, head, tail, List.append_assoc, List.append_nil]

theorem decode_body (h : p.Encodable) : ReadsAll decode p.body p.onWire := by
  have hcount : (UInt8.ofNat p.destTerminalIds.length).toNat = p.destTerminalIds.length :=
    UInt8.toNat_ofNat_of_lt' (Nat.lt_succ_of_le h.1)
  have hlength : (UInt8.ofNat p.msgContent.length).toNat = p.msgContent.length :=
    UInt8.toNat_ofNat_of_lt' (Nat.lt_succ_of_le h.2)
  have hdest := h.1
  have hmin : (checkedMul p.destTerminalIds.length 21).bind (checkedAdd · (1 + 8)) =
      some (p.destTerminalIds.length * 21 + 9) := by
    rw [checkedMul, if_pos (by unfold usizeMax; omega)]
    exact if_pos (by unfold usizeMax; omega)
  have hleft : ¬ p.tail.length < p.destTerminalIds.length * 21 + 9 := by
    rw [length_tail]
    omega
  have hids : Reads usizeMax (collect (octetStr 21) p.destTerminalIds.length)
      (p.destTerminalIds.flatMap (octets · 21)) (p.destTerminalIds.map (wireText · 21)) :=
    Reads.collect fun d _ => reads_octetStr d 21
  simp only [body, head, List.append_assoc]
  refine .bind (reads_takeArray _) (.bind (reads_u8 _) (.bind (reads_u8 _) (.bind (reads_u8 _)
    (.bind (reads_u8 _) (.bind (reads_octetStr _ _) (.bind (reads_u8 _) (.bind (reads_octetStr _ _)
    (.bind (reads_u8 _) (.bind (reads_u8 _) (.bind (reads_u8 _) ?_))))))))))
  refine .bind (reads_octetStr _ _) (.bind (reads_octetStr _ _) (.bind (reads_octetStr _ _)
    (.bind (reads_octetStr _ _) (.bind (reads_octetStr _ _) (.bind (reads_octetStr _ _)
    (.bind (reads_u8 _) ?_))))))
  simp only [hcount, hmin]
  refine .remaining ?_
  simp only [hleft, if_false]
  refine .bind hids (.bind (reads_u8 _) ?_)
  rw [hlength]
  exact .bind (reads_take rfl) (.bind (reads_take rfl) (.finish _ _))

theorem sound_decode : Sound Inside decode fun _ => True := by
  refine (sound_takeArray _).bind fun _ _ => sound_u8.bind fun _ _ => sound_u8.bind fun _ _ =>
    sound_u8.bind fun _ _ => sound_u8.bind fun _ _ => (sound_octetStr _).bind fun _ _ =>
    sound_u8.bind fun _ _ => (sound_octetStr _).bind fun _ _ => sound_u8.bind fun _ _ =>
    sound_u8.bind fun _ _ => sound_u8.bind fun _ _ => ?_
  refine (sound_octetStr _).bind fun _ _ => (sound_octetStr _).bind fun _ _ =>
    (sound_octetStr _).bind fun _ _ => (sound_octetStr _).bind fun _ _ =>
    (sound_octetStr _).bind fun _ _ => (sound_octetStr _).bind fun _ _ =>
    sound_u8.bind fun count _ => ?_
  dsimp only
  split
  · exact .fail _
  · refine sound_remaining.bind fun left _ => ?_
    split
    · exact .fail _
    · exact ((sound_octetStr 21).collect _).bind fun _ _ => sound_u8.bind fun _ _ =>
        (sound_take _).bind fun _ _ => (sound_take _).bind fun _ _ =>
        (sound_finish _).bind fun _ _ => .pure trivial

end Submit

namespace SubmitResp

def body (p : SubmitResp) : List UInt8 := p.msgId.toList ++ ([p.result] ++ [])

theorem encodeBody_eq (p : SubmitResp) (buf : List UInt8) : p.encodeBody buf = buf ++ p.body := by
  simp only [encodeBody, putSlice, putU8, body, List.append_assoc, List.append_nil]

theorem decode_body (p : SubmitResp) : ReadsAll decode p.body p :=
  .bind (reads_takeArray _) (.bind (reads_u8 _) (.finish _ _))

theorem sound_decode : Sound Inside decode fun _ => True :=
  (sound_takeArray _).bind fun _ _ => sound_u8.bind fun _ _ => (sound_finish _).bind fun _ _ =>
    .pure trivial

end SubmitResp

namespace Deliver

def body (p : Deliver) : List UInt8 :=
  p.msgId.toList ++ (octets p.destId 21 ++ (octets p.serviceId 10 ++ ([p.tpPid] ++ ([p.tpUdhi] ++
    ([p.msgFmt] ++ (octets p.srcTerminalId 21 ++ ([p.registeredDelivery] ++
    ([.ofNat p.msgContent.length] ++ (p.msgContent ++ (List.replicate 8 0 ++ []))))))))))

def onWire (p : Deliver) : Deliver :=
  { p with
    destId := wireText p.destId 21
    serviceId := wireText p.serviceId 10
    srcTerminalId := wireText p.srcTerminalId 21 }

def Encodable (p : Deliver) : Prop := p.msgContent.length ≤ 255

variable {p : Deliver}

theorem encodeBody_eq {σ : Type} (h : p.Encodable) (buf : List UInt8) :
    (p.encodeBody buf : Fallible Error σ _) = pure (buf ++ p.body) := by
  have hc : expectU8 (σ := σ) p.msgContent.length = pure (.ofNat _) :=
    if_pos (Nat.lt_succ_of_le h)
  simp only [encodeBody, hc, pure_bind', putOctetStr_eq, putSlice, putU8, body, List.append_assoc,
    List.append_nil]

theorem length_body (p : Deliver) : p.body.length = 73 + p.msgContent.length := by
  simp only [body, List.length_append, length_octets, Vector.length_toList, List.length_cons,
    List.length_nil, List.length_replicate]
  omega

theorem decode_body (h : p.Encodable) : ReadsAll decode p.body p.onWire := by
  have hlength : (UInt8.ofNat p.msgContent.length).toNat = p.msgContent.length :=
    UInt8.toNat_ofNat_of_lt' (Nat.lt_succ_of_le h)
  refine .bind (reads_takeArray _) (.bind (reads_octetStr _ _) (.bind (reads_octetStr _ _)
    (.bind (reads_u8 _) (.bind (reads_u8 _) (.bind (reads_u8 _) (.bind (reads_octetStr _ _)
    (.bind (reads_u8 _) (.bind (reads_u8 _) ?_))))))))
  rw [hlength]
  exact .bind (reads_take rfl) (.bind (reads_take rfl) (.finish _ _))

theorem sound_decode : Sound Inside decode fun _ => True :=
  (sound_takeArray _).bind fun _ _ => (sound_octetStr _).bind fun _ _ =>
    (sound_octetStr _).bind fun _ _ => sound_u8.bind fun _ _ => sound_u8.bind fun _ _ =>
    sound_u8.bind fun _ _ => (sound_octetStr _).bind fun _ _ => sound_u8.bind fun _ _ =>
    sound_u8.bind fun _ _ => (sound_take _).bind fun _ _ => (sound_take _).bind fun _ _ =>
    (sound_finish _).bind fun _ _ => .pure trivial

end Deliver

namespace DeliverResp

def body (p : DeliverResp) : List UInt8 := p.msgId.toList ++ ([p.result] ++ [])

theorem encodeBody_eq (p : DeliverResp) (buf : List UInt8) : p.encodeBody buf = buf ++ p.body := by
  simp only [encodeBody, putSlice, putU8, body, List.append_assoc, List.append_nil]

theorem decode_body (p : DeliverResp) : ReadsAll decode p.body p :=
  .bind (reads_takeArray _) (.bind (reads_u8 _) (.finish _ _))

theorem sound_decode : Sound Inside decode fun _ => True :=
  (sound_takeArray _).bind fun _ _ => sound_u8.bind fun _ _ => (sound_finish _).bind fun _ _ =>
    .pure trivial

end DeliverResp

namespace Pdu

def body : Pdu → List UInt8
  | connect p => p.body
  | connectResp p => p.body
  | submit p => p.body
  | submitResp p => p.body
  | deliver p => p.body
  | deliverResp p => p.body
  | activeTest | terminate | terminateResp => []
  | activeTestResp => [0]

/-- The PDU as it is read back: every text field cut to its width and stripped. -/
def onWire : Pdu → Pdu
  | connect p => connect p.onWire
  | submit p => submit p.onWire
  | deliver p => deliver p.onWire
  | pdu => pdu

/-- A count does not fit in its octet. -/
def Oversized : Pdu → Prop
  | submit p => 255 < p.destTerminalIds.length ∨ 255 < p.msgContent.length
  | deliver p => 255 < p.msgContent.length
  | _ => False

variable {pdu : Pdu} {σ : Type}

theorem validateEncode_of_oversized (h : pdu.Oversized) : ∃ e, pdu.validateEncode = .error e := by
  cases pdu with
  | submit p =>
    by_cases hd : 255 < p.destTerminalIds.length
    · exact ⟨_, if_pos hd⟩
    · exact ⟨_, (if_neg hd).trans (if_pos (h.resolve_left hd))⟩
  | deliver p => exact ⟨_, if_pos h⟩
  | _ => exact h.elim

theorem validateEncode_ok (h : ¬ pdu.Oversized) : pdu.validateEncode = .ok () := by
  cases pdu with
  | submit p => exact (if_neg fun hd => h (.inl hd)).trans (if_neg fun hc => h (.inr hc))
  | deliver p => exact if_neg h
  | _ => rfl

theorem Submit.encodable {p : Submit} (h : ¬ (submit p).Oversized) : p.Encodable :=
  ⟨not_lt.mp fun hd => h (.inl hd), not_lt.mp fun hc => h (.inr hc)⟩

theorem encodeBody_eq (h : ¬ pdu.Oversized) (buf : List UInt8) :
    (pdu.encodeBody buf : Fallible Error σ _) = pure (buf ++ pdu.body) := by
  cases pdu with
  | connect p => exact congrArg pure (p.encodeBody_eq buf)
  | connectResp p => exact congrArg pure (p.encodeBody_eq buf)
  | submit p => exact p.encodeBody_eq (Submit.encodable h) buf
  | submitResp p => exact congrArg pure (p.encodeBody_eq buf)
  | deliver p => exact p.encodeBody_eq (not_lt.mp h) buf
  | deliverResp p => exact congrArg pure (p.encodeBody_eq buf)
  | activeTest | terminate | terminateResp => exact congrArg pure (List.append_nil buf).symm
  | activeTestResp => rfl

theorem length_body_le (h : ¬ pdu.Oversized) : pdu.body.length ≤ 5736 := by
  cases pdu with
  | submit p =>
    have hp := Submit.encodable h
    rw [body, p.length_body]
    have := hp.1
    have := hp.2
    omega
  | deliver p =>
    have hp := not_lt.mp h
    rw [body, p.length_body]
    omega
  | _ => simp [body, Connect.body, ConnectResp.body, SubmitResp.body, DeliverResp.body]

/-- The body of a PDU is decoded to the PDU as it comes off the wire. -/
theorem decode_body (h : ¬ pdu.Oversized) {header : CmppHeader}
    (hcommand : header.commandId = pdu.commandId) (s : σ) :
    Returns (decode header pdu.body) s pdu.onWire s := by
  have hlen : pdu.body.length ≤ usizeMax := (length_body_le h).trans (by decide)
  unfold decode
  rw [hcommand]
  cases pdu with
  | connect p => exact (p.decode_body.run hlen s).map connect
  | connectResp p => exact (p.decode_body.run hlen s).map connectResp
  | submit p => exact ((p.decode_body (Submit.encodable h)).run hlen s).map submit
  | submitResp p => exact (p.decode_body.run hlen s).map submitResp
  | deliver p => exact ((p.decode_body (not_lt.mp h)).run hlen s).map deliver
  | deliverResp p => exact (p.decode_body.run hlen s).map deliverResp
  | activeTest | activeTestResp | terminate | terminateResp => rfl

/-- Every body is decoded or refused, whatever the state around the decoder. -/
theorem decode_uniform (header : CmppHeader) (body : List UInt8) :
    Uniform (decode header body : Fallible Error σ Pdu) := by
  have hrun : ∀ {α : Type} {m : Fallible Error BodyReader α} (f : α → Pdu),
      Sound Inside m (fun _ => True) → Uniform (f <$> run m body : Fallible Error σ Pdu) :=
    fun f hm => (run_uniform hm body).bind fun a => .pure (f a)
  have hreq : ∀ (n : ℕ) (name : String) (pdu : Pdu),
      Uniform (do requireBodyLen body n name; pure pdu : Fallible Error σ Pdu) := by
    intro n name pdu
    refine Uniform.bind ?_ fun _ => .pure pdu
    unfold requireBodyLen
    dsimp only
    split_ifs
    · exact .fail _
    · exact .pure ()
  unfold decode
  dsimp only
  split_ifs
  · exact hrun _ Connect.sound_decode
  · exact hrun _ ConnectResp.sound_decode
  · exact hrun _ Submit.sound_decode
  · exact hrun _ SubmitResp.sound_decode
  · exact hrun _ Deliver.sound_decode
  · exact hrun _ DeliverResp.sound_decode
  · exact hreq _ _ _
  · exact hreq _ _ _
  · exact hreq _ _ _
  · exact hreq _ _ _
  · exact .fail _

end Pdu

end CmppProtocol
