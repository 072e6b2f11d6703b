import CmppProtocol.Wire.Partial
import CmppProtocol.Wire.RoundTrip

/-! # Status reports

A DELIVER with the flag of a report carries 60 octets with the id of the SUBMIT
that it reports on. The application compares this id with those of the responses
by their hex digits.
-/

namespace CmppProtocol

open Fallible

structure DeliverReport where
  msgId : Vector UInt8 8
  stat : String
  submitTime : String
  doneTime : String
  destTerminalId : String
  smscSequence : UInt32
  deriving DecidableEq, Repr

def HEX : Vector Char 16 :=
  #v['0', '1', '2', '3', '4', '5', '6', '7', '8', '9', 'a', 'b', 'c', 'd', 'e', 'f']

theorem toNat_high (byte : UInt8) : (byte >>> 4).toNat = byte.toNat / 16 := by
  rw [UInt8.toNat_shiftRight, Nat.shiftRight_eq_div_pow]
  rfl

theorem toNat_low (byte : UInt8) : (byte &&& 0x0f).toNat = byte.toNat % 16 := by
  rw [UInt8.toNat_and]
  exact Nat.and_two_pow_sub_one_eq_mod byte.toNat 4

theorem high_lt (byte : UInt8) : (byte >>> 4).toNat < 16 := by
  rw [toNat_high]
  exact Nat.div_lt_of_lt_mul byte.toNat_lt

theorem low_lt (byte : UInt8) : (byte &&& 0x0f).toNat < 16 := by
  rw [toNat_low]
  exact Nat.mod_lt _ (by decide)

def hexPair (byte : UInt8) : List Char :=
  [HEX.get ⟨(byte >>> 4).toNat, high_lt byte⟩, HEX.get ⟨(byte &&& 0x0f).toNat, low_lt byte⟩]

def msgIdHex (msgId : Vector UInt8 8) : String := .ofList (msgId.toList.flatMap hexPair)

namespace DeliverReport

def msgIdHex (r : DeliverReport) : String := CmppProtocol.msgIdHex r.msgId

def parse {σ : Type} (content : List UInt8) : Fallible Error σ (Option DeliverReport) :=
  if content.length < 60 then pure none
  else do
    let msgId ← array 8 (← slice content 0 8)
    let stat ← slice content 8 15
    let submitTime ← slice content 15 25
    let doneTime ← slice content 25 35
    let destTerminalId ← slice content 35 56
    let b₀ ← index content 56
    let b₁ ← index content 57
    let b₂ ← index content 58
    let b₃ ← index content 59
    pure (some {
      msgId
      stat := readOctetStr stat
      submitTime := readOctetStr submitTime
      doneTime := readOctetStr doneTime
      destTerminalId := readOctetStr destTerminalId
      smscSequence := fromBeBytes b₀ b₁ b₂ b₃ })

end DeliverReport

def Deliver.report {σ : Type} (p : Deliver) : Fallible Error σ (Option DeliverReport) :=
  if p.registeredDelivery = 1 then DeliverReport.parse p.msgContent else pure none

/-! ## Hex digits -/

theorem HEX_injective : ∀ x y : Fin 16, HEX.get x = HEX.get y → x = y := by decide

theorem hexPair_injective {b b' : UInt8} (h : hexPair b = hexPair b') : b = b' := by
  obtain ⟨hhigh, hrest⟩ := List.cons.inj h
  have hhigh := Fin.mk.inj (HEX_injective _ _ hhigh)
  have hlow := Fin.mk.inj (HEX_injective _ _ (List.cons.inj hrest).1)
  rw [toNat_high, toNat_high] at hhigh
  rw [toNat_low, toNat_low] at hlow
  apply UInt8.toNat_inj.mp
  omega

theorem flatMap_hexPair_injective {bytes bytes' : List UInt8}
    (h : bytes.flatMap hexPair = bytes'.flatMap hexPair) : bytes = bytes' := by
  induction bytes generalizing bytes' with
  | nil =>
    cases bytes' with
    | nil => rfl
    | cons b' bytes' => cases h
  | cons b bytes ih =>
    cases bytes' with
    | nil => cases h
    | cons b' bytes' =>
      rw [List.flatMap_cons, List.flatMap_cons] at h
      obtain ⟨hpair, hrest⟩ := List.append_inj h rfl
      rw [hexPair_injective hpair, ih hrest]

theorem msgIdHex_injective {msgId msgId' : Vector UInt8 8} (h : msgIdHex msgId = msgIdHex msgId') :
    msgId = msgId' :=
  Vector.toList_inj.mp (flatMap_hexPair_injective (String.ofList_injective h))

/-! ## Parsing -/

namespace DeliverReport

variable {σ : Type} {s : σ}

/-- The 60 octets of a report. -/
def octets (r : DeliverReport) : List UInt8 :=
  r.msgId.toList ++ CmppProtocol.octets r.stat 7 ++ CmppProtocol.octets r.submitTime 10 ++
    CmppProtocol.octets r.doneTime 10 ++ CmppProtocol.octets r.destTerminalId 21 ++
    toBeBytes r.smscSequence

def onWire (r : DeliverReport) : DeliverReport :=
  { r with
    stat := wireText r.stat 7
    submitTime := wireText r.submitTime 10
    doneTime := wireText r.doneTime 10
    destTerminalId := wireText r.destTerminalId 21 }

structure Fits (r : DeliverReport) : Prop where
  stat : FitsField r.stat 7
  submitTime : FitsField r.submitTime 10
  doneTime : FitsField r.doneTime 10
  destTerminalId : FitsField r.destTerminalId 21

theorem Fits.onWire_eq {r : DeliverReport} (h : r.Fits) : r.onWire = r := by
  unfold onWire
  rw [h.stat.wireText_eq, h.submitTime.wireText_eq, h.doneTime.wireText_eq,
    h.destTerminalId.wireText_eq]

theorem slice_front {part : List UInt8} {n : ℕ} (h : part.length = n) (post : List UInt8) :
    slice (ε := Error) (σ := σ) (part ++ post) 0 n = pure part := by
  subst h
  rw [slice_eq (Nat.zero_le _) (by simp), List.take_left, List.drop_zero]

theorem slice_skip {pre : List UInt8} {n : ℕ} (h : pre.length = n) (a b : ℕ) (xs : List UInt8) :
    slice (ε := Error) (σ := σ) (pre ++ xs) (n + a) (n + b) = slice xs a b := by
  subst h
  unfold slice
  rw [List.length_append, List.take_length_add_append, List.drop_length_add_append]
  simp only [Nat.add_le_add_iff_left]

theorem index_skip {pre : List UInt8} {n : ℕ} (h : pre.length = n) (i : ℕ) (xs : List UInt8) :
    index (ε := Error) (σ := σ) (pre ++ xs) (n + i) = index xs i := by
  subst h
  unfold index
  simp only [List.length_append, Nat.add_lt_add_iff_left]
  split_ifs
  · rw [List.getElem_append_right (Nat.le_add_right _ _)]
    simp only [Nat.add_sub_cancel_left]
  · rfl

/-- What a report is made of, whatever the octets are. -/
theorem parse_parts {content stat submitTime doneTime destTerminalId more : List UInt8}
    {msgId : Vector UInt8 8} {b₀ b₁ b₂ b₃ : UInt8}
    (hcontent : content = msgId.toList ++ (stat ++ (submitTime ++ (doneTime ++
      (destTerminalId ++ b₀ :: b₁ :: b₂ :: b₃ :: more)))))
    (hstat : stat.length = 7) (hsubmit : submitTime.length = 10) (hdone : doneTime.length = 10)
    (hdest : destTerminalId.length = 21) :
    parse (σ := σ) content = pure (some {
      msgId
      stat := readOctetStr stat
      submitTime := readOctetStr submitTime
      doneTime := readOctetStr doneTime
      destTerminalId := readOctetStr destTerminalId
      smscSequence := fromBeBytes b₀ b₁ b₂ b₃ }) := by
  have hid : msgId.toList.length = 8 := by simp
  have hlength : ¬ content.length < 60 := by
    simp only [hcontent, List.length_append, List.length_cons, hid, hstat, hsubmit, hdone, hdest]
    omega
  have hid' : slice (ε := Error) (σ := σ) content 0 8 = pure msgId.toList := by
    rw [hcontent]
    exact slice_front hid _
  have hstat' : slice (ε := Error) (σ := σ) content 8 15 = pure stat := by
    rw [hcontent]
    exact (slice_skip hid 0 7 _).trans (slice_front hstat _)
  have hsubmit' : slice (ε := Error) (σ := σ) content 15 25 = pure submitTime := by
    rw [hcontent]
    exact (slice_skip hid 7 17 _).trans ((slice_skip hstat 0 10 _).trans (slice_front hsubmit _))
  have hdone' : slice (ε := Error) (σ := σ) content 25 35 = pure doneTime := by
    rw [hcontent]
    exact (slice_skip hid 17 27 _).trans ((slice_skip hstat 10 20 _).trans
      ((slice_skip hsubmit 0 10 _).trans (slice_front hdone _)))
  have hdest' : slice (ε := Error) (σ := σ) content 35 56 = pure destTerminalId := by
    rw [hcontent]
    exact (slice_skip hid 27 48 _).trans ((slice_skip hstat 20 41 _).trans
      ((slice_skip hsubmit 10 31 _).trans ((slice_skip hdone 0 21 _).trans (slice_front hdest _))))
  have htail (i : ℕ) : index (ε := Error) (σ := σ) content (8 + (7 + (10 + (10 + (21 + i))))) =
      index (b₀ :: b₁ :: b₂ :: b₃ :: more) i := by
    rw [hcontent, index_skip hid, index_skip hstat, index_skip hsubmit, index_skip hdone,
      index_skip hdest]
  have h₀ : index (ε := Error) (σ := σ) content 56 = pure b₀ := htail 0
  have h₁ : index (ε := Error) (σ := σ) content 57 = pure b₁ := htail 1
  have h₂ : index (ε := Error) (σ := σ) content 58 = pure b₂ := htail 2
  have h₃ : index (ε := Error) (σ := σ) content 59 = pure b₃ := htail 3
  simp only [parse, if_neg hlength, hid', array_toList, pure_bind', hstat', hsubmit',
    hdone', hdest', h₀, h₁, h₂, h₃]

/-- A report is read back, whatever comes behind it. -/
theorem parse_octets (r : DeliverReport) (more : List UInt8) :
    parse (σ := σ) (r.octets ++ more) = pure (some r.onWire) := by
  have hcontent : r.octets ++ more = r.msgId.toList ++ (CmppProtocol.octets r.stat 7 ++
      (CmppProtocol.octets r.submitTime 10 ++ (CmppProtocol.octets r.doneTime 10 ++
        (CmppProtocol.octets r.destTerminalId 21 ++ (toBeBytes r.smscSequence ++ more))))) := by
    simp only [octets, List.append_assoc]
  rw [parse_parts hcontent (length_octets _ _) (length_octets _ _) (length_octets _ _)
    (length_octets _ _)]
  simp only [readOctetStr_octets, fromBeBytes_toBeBytes, onWire]

theorem exists_part (n : ℕ) {m : ℕ} {xs : List UInt8} (h : n + m ≤ xs.length) :
    ∃ part rest, xs = part ++ rest ∧ part.length = n ∧ m ≤ rest.length := by
  refine ⟨xs.take n, xs.drop n, (List.take_append_drop n xs).symm, ?_, ?_⟩
  · rw [List.length_take]
    omega
  · rw [List.length_drop]
    omega

/-- Content that is long enough is a report. -/
theorem parse_long {content : List UInt8} (hlength : 60 ≤ content.length) :
    ∃ r, parse (σ := σ) content = pure (some r) := by
  obtain ⟨msgId, rest, hcontent, hid, hrest⟩ := @exists_part 8 52 content hlength
  obtain ⟨stat, rest, rfl, hstat, hrest⟩ := @exists_part 7 45 rest hrest
  obtain ⟨submitTime, rest, rfl, hsubmit, hrest⟩ := @exists_part 10 35 rest hrest
  obtain ⟨doneTime, rest, rfl, hdone, hrest⟩ := @exists_part 10 25 rest hrest
  obtain ⟨destTerminalId, rest, rfl, hdest, hrest⟩ := @exists_part 21 4 rest hrest
  obtain ⟨msgId, rfl⟩ : ∃ v : Vector UInt8 8, v.toList = msgId := ⟨⟨msgId.toArray, hid⟩, rfl⟩
  rcases rest with _ | ⟨b₀, _ | ⟨b₁, _ | ⟨b₂, _ | ⟨b₃, more⟩⟩⟩⟩
  · exact absurd hrest (by decide)
  · exact absurd hrest (by simp)
  · exact absurd hrest (by simp)
  · exact absurd hrest (by simp)
  · exact ⟨_, parse_parts hcontent hstat hsubmit hdone hdest⟩

theorem parse_short {content : List UInt8} (hlength : content.length < 60) :
    parse (σ := σ) content = pure none := if_pos hlength

end DeliverReport

/-- A DELIVER gives a report if and only if the flag is set and the content is long enough. -/
theorem Deliver.report_returns {σ : Type} (p : Deliver) (s : σ) : ∃ o, Returns p.report s o s ∧
    (o.isSome = true ↔ p.registeredDelivery = 1 ∧ 60 ≤ p.msgContent.length) := by
  unfold Deliver.report
  split_ifs with hflag
  · by_cases hlength : 60 ≤ p.msgContent.length
    · obtain ⟨r, hr⟩ := DeliverReport.parse_long (σ := σ) hlength
      rw [hr]
      exact ⟨_, Returns.pure _ s, iff_of_true rfl ⟨hflag, hlength⟩⟩
    · rw [DeliverReport.parse_short (not_le.mp hlength)]
      exact ⟨_, Returns.pure _ s, iff_of_false Bool.false_ne_true fun h => hlength h.2⟩
  · exact ⟨_, Returns.pure _ s, iff_of_false Bool.false_ne_true fun h => hflag h.1⟩

theorem Deliver.report_octets {σ : Type} {p : Deliver} (hflag : p.registeredDelivery = 1)
    {r : DeliverReport} {more : List UInt8} (hcontent : p.msgContent = r.octets ++ more) (s : σ) :
    Returns p.report s (some r.onWire) s := by
  unfold Deliver.report
  rw [if_pos hflag, hcontent, DeliverReport.parse_octets]
  exact Returns.pure _ s

theorem Pdu.deliver_of_onWire {pdu : Pdu} {d' : Deliver} (h : pdu.onWire = .deliver d') :
    ∃ d, pdu = .deliver d ∧ d' = d.onWire := by
  cases pdu with
  | deliver d =>
    cases h
    exact ⟨d, rfl, rfl⟩
  | _ => cases h

theorem Pdu.submitResp_of_onWire {pdu : Pdu} {resp : SubmitResp}
    (h : pdu.onWire = .submitResp resp) : pdu = .submitResp resp := by
  cases pdu <;> first | exact h | cases h

namespace CmppFrameCodec

theorem sent_of_received {fs : List Frame} {n i : ℕ} {f' : Frame}
    (h : ((fs.take n).map Frame.onWire)[i]? = some f') :
    ∃ pdu, fs[i]? = some ⟨f'.sequenceId, pdu⟩ ∧ pdu.onWire = f'.pdu := by
  rw [List.getElem?_map] at h
  obtain ⟨f, hf, rfl⟩ := Option.map_eq_some_iff.mp h
  rw [List.getElem?_take] at hf
  split_ifs at hf
  exact ⟨f.pdu, hf, rfl⟩

/-- From frame to frame. Of whatever part of the stream has come, cut as it may be: a DELIVER
gives a report just when its flag is set and its content is long enough, the report is the one
that was put into it, and its id has the same hex digits as the id of a response just when they
are the same id. -/
theorem reports_correlate {fs : List Frame} (hfs : ∀ f ∈ fs, ¬ f.pdu.Oversized)
    {chunks : List (List UInt8)} (hchunks : chunks.flatten <+: fs.flatMap Frame.octets) :
    ∃ received rest, Inbound.start.readAll chunks = some ⟨received, none, rest⟩ ∧
      (chunks.flatten = fs.flatMap Frame.octets → received.length = fs.length) ∧
      ∀ (i : ℕ) (sequenceId : UInt32) (d' : Deliver),
        received[i]? = some ⟨sequenceId, .deliver d'⟩ →
        ∃ d, fs[i]? = some ⟨sequenceId, .deliver d⟩ ∧
          (∃ o, Returns d'.report () o () ∧
            (o.isSome = true ↔ d.registeredDelivery = 1 ∧ 60 ≤ d.msgContent.length)) ∧
          ∀ (r : DeliverReport) (more : List UInt8), d.registeredDelivery = 1 →
            d.msgContent = r.octets ++ more →
            Returns d'.report () (some r.onWire) () ∧ (r.Fits → r.onWire = r) ∧
            ∀ (j : ℕ) (sequenceId' : UInt32) (resp : SubmitResp),
              received[j]? = some ⟨sequenceId', .submitResp resp⟩ →
              fs[j]? = some ⟨sequenceId', .submitResp resp⟩ ∧
                (msgIdHex resp.msgId = r.onWire.msgIdHex ↔ resp.msgId = r.msgId) := by
  obtain ⟨n, rest, hwhole, hread⟩ := reads_front hfs hchunks rfl
  refine ⟨_, rest, hread, fun hall => ?_, ?_⟩
  · rw [hall] at hwhole
    rw [List.length_map, hwhole.complete.1]
  · intro i sequenceId d' hi
    obtain ⟨pdu, hsent, hpdu⟩ := sent_of_received hi
    obtain ⟨d, rfl, rfl⟩ := Pdu.deliver_of_onWire hpdu
    refine ⟨d, hsent, d.onWire.report_returns (), fun r more hflag hcontent => ?_⟩
    refine ⟨d.onWire.report_octets hflag hcontent (), fun hfits => hfits.onWire_eq, ?_⟩
    intro j sequenceId' resp hj
    obtain ⟨pdu, hsent', hpdu'⟩ := sent_of_received hj
    cases Pdu.submitResp_of_onWire hpdu'
    refine ⟨hsent', fun heq => msgIdHex_injective heq, fun heq => ?_⟩
    rw [heq]
    rfl

def deliveredReport : DeliverReport where
  msgId := #v[0, 1, 35, 69, 103, 137, 171, 205]
  stat := "DELIVRD"
  submitTime := "2601021504"
  doneTime := "2601021505"
  destTerminalId := "13800000000"
  smscSequence := 7

def deliveredNotice : Deliver where
  msgId := .replicate 8 0
  destId := "10690000"
  serviceId := ""
  tpPid := 0
  tpUdhi := 0
  msgFmt := 0
  srcTerminalId := "13800000000"
  registeredDelivery := 1
  msgContent := deliveredReport.octets

/-- A response and the report on the same message, cut within the response. -/
def reportedFrames : List Frame :=
  [⟨2, .submitResp ⟨deliveredReport.msgId, 0⟩⟩, ⟨9, .deliver deliveredNotice⟩]

theorem reports_correlate_delivered : ∃ received rest,
    Inbound.start.readAll [(reportedFrames.flatMap Frame.octets).take 15,
      (reportedFrames.flatMap Frame.octets).drop 15] = some ⟨received, none, rest⟩ ∧
    received[1]? = some ⟨9, .deliver deliveredNotice⟩ ∧
    Returns deliveredNotice.report () (some deliveredReport) () ∧
    received[0]? = some ⟨2, .submitResp ⟨deliveredReport.msgId, 0⟩⟩ ∧
    msgIdHex deliveredReport.msgId = deliveredReport.msgIdHex := by
  have hflatten : [(reportedFrames.flatMap Frame.octets).take 15,
      (reportedFrames.flatMap Frame.octets).drop 15].flatten =
        reportedFrames.flatMap Frame.octets := by
    rw [List.flatten_cons, List.flatten_singleton, List.take_append_drop]
  have hfits : ∀ f ∈ reportedFrames, ¬ f.pdu.Oversized := by
    intro f hf
    rcases List.mem_pair.mp hf with rfl | rfl
    · exact not_false
    · exact (by decide : ¬ 255 < deliveredNotice.msgContent.length)
  have hview : (Inbound.start.readAll [(reportedFrames.flatMap Frame.octets).take 15,
      (reportedFrames.flatMap Frame.octets).drop 15]).map Inbound.frames = some reportedFrames := by
    decide +kernel
  have honWire : deliveredReport.onWire = deliveredReport := by decide +kernel
  obtain ⟨received, rest, hread, _, hreports⟩ := reports_correlate hfits
    ⟨[], (List.append_nil _).trans hflatten⟩
  rw [hread] at hview
  have hreceived : received = reportedFrames := Option.some.inj hview
  have hnotice : received[1]? = some ⟨9, .deliver deliveredNotice⟩ := by rw [hreceived]; rfl
  have hresp : received[0]? = some ⟨2, .submitResp ⟨deliveredReport.msgId, 0⟩⟩ := by
    rw [hreceived]
    rfl
  obtain ⟨d, hd, _, hsame⟩ := hreports _ _ _ hnotice
  have hdeliver : deliveredNotice = d := by cases hd; rfl
  subst hdeliver
  obtain ⟨hreport, _, hids⟩ := hsame deliveredReport [] rfl (List.append_nil _).symm
  obtain ⟨_, hid⟩ := hids _ _ _ hresp
  rw [honWire] at hreport hid
  exact ⟨received, rest, hread, hnotice, hreport, hresp, hid.mpr rfl⟩

end CmppFrameCodec

end CmppProtocol
