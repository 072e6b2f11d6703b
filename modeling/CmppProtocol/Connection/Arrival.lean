import CmppProtocol.Connection.Legible
import CmppProtocol.Library.Sublist
import CmppProtocol.Submit.Reuse

/-! # From text to text

A call of `submit` that returned its ids has cut its text into segments. The other
side reads frames out of the octets that have come; the SUBMITs that it has under
these ids, retransmitted or not, give it the text again.
-/

namespace CmppProtocol

open Fallible SubmitContentPlan

section Plan

variable {gbk : Gbk} {content : String} {plan : SubmitContentPlan} {counter counter' : UInt32}

theorem planOf_of_prepared (h : prepareSubmitContent content counter = some (.ok plan, counter')) :
    (segmentTexts content).length ≤ 255 ∧ ∃ preferred, plan = planOf content preferred := by
  have hle : (segmentTexts content).length ≤ 255 := by
    by_contra hlong
    obtain ⟨e, he⟩ := prepareSubmitContent_error (not_le.mp hlong) counter
    rw [he] at h
    cases h
  obtain ⟨preferred, counter'', hplan⟩ := prepareSubmitContent_eq hle counter
  rw [hplan] at h
  cases h
  exact ⟨hle, preferred, rfl⟩

/-- The reference of a call serves as the one of all segments; a single segment needs none. -/
theorem segmentAt_of_segment {preferred reference : Option UInt8} {index : ℕ} {segment : SmsSegment}
    (hle : (segmentTexts content).length ≤ 255) (hi : index < (segmentTexts content).length)
    (hreference : 1 < (segmentTexts content).length → reference.isSome = true)
    (h : (planOf content preferred).segment gbk index reference () = some (.ok segment, ())) :
    segment = segmentAt gbk content (reference.getD 0) index := by
  by_cases hone : (segmentTexts content).length = 1
  · have hplan := segment_planOf (σ := Unit) gbk hle preferred 0 hi
    obtain ⟨pre, post, hsplit, rfl⟩ := exists_split hi
    rw [if_pos hone] at hplan
    have hsingle := segment_single (σ := Unit) gbk hsplit hone reference preferred
    rw [segment_single gbk hsplit hone] at hplan
    rw [hsingle, hplan] at h
    cases h
    rw [segmentAt, segmentAt, if_pos hone, if_pos hone]
  · obtain ⟨r, rfl⟩ := Option.isSome_iff_exists.mp (hreference (one_lt_segments hone))
    have hplan := segment_planOf (σ := Unit) gbk hle preferred r hi
    rw [if_neg hone] at hplan
    rw [hplan] at h
    cases h
    rfl

theorem carried_segmentAt (gbk : Gbk) (hle : (segmentTexts content).length ≤ 255)
    (reference : UInt8) :
    Carried gbk content
      ((List.range (segmentTexts content).length).map (segmentAt gbk content reference)) := by
  by_cases hone : (segmentTexts content).length = 1
  · have hsegments : (List.range (segmentTexts content).length).map
        (segmentAt gbk content reference) =
        [singleSegment gbk (chooseEncoding content) content.toList] := by
      rw [hone, List.range_one, List.map_singleton, segmentAt, if_pos hone]
    rw [hsegments]
    exact carried_single gbk hone
  · have hsegments : (List.range (segmentTexts content).length).map
        (segmentAt gbk content reference) = longSegments gbk content reference := by
      rw [longSegments]
      exact List.map_congr_left fun index _ => if_neg hone
    rw [hsegments]
    exact carried_long gbk (one_lt_segments hone) hle reference

end Plan

namespace Connection

variable {gbk : Gbk} {config : ConnectionConfig} {s s' : Connection} {events : List ConnectionEvent}
  {named : List (ℕ × Request)} {index : ℕ} {options : SubmitOptions} {content : String}
  {base : Option UInt32} {call : SubmitCall}

/-! ## What the other side has -/

/-- The text of the SUBMITs of one message. -/
def messageOf (gbk : Gbk) (submits : List Submit) : String :=
  String.join (submits.map fun p => decodeMsgContent gbk p.msgFmt p.tpUdhi p.msgContent)

/-- For every id, in their order, a SUBMIT that was read under it. -/
def Collected (received : List Frame) (ids : List ℕ) (submits : List Submit) : Prop :=
  List.Forall₂ (fun id p => ⟨.ofNat id, .submit p⟩ ∈ received) ids submits

/-- A SUBMIT as it is read carries the options of the call, the texts cut to their fields. -/
structure Serves (options : SubmitOptions) (p : Submit) : Prop where
  serviceId : p.serviceId = wireText options.serviceId 10
  msgSrc : p.msgSrc = wireText options.msgSrc 6
  srcId : p.srcId = wireText options.srcId 21
  destTerminalIds : p.destTerminalIds = options.destTerminalIds.map fun d => wireText d 21
  registeredDelivery : p.registeredDelivery = options.registeredDelivery
  msgLevel : p.msgLevel = options.msgLevel
  feeUserType : p.feeUserType = options.feeUserType
  feeTerminalId : p.feeTerminalId = wireText options.feeTerminalId 21
  feeType : p.feeType = wireText options.feeType 2
  feeCode : p.feeCode = wireText options.feeCode 6
  tpPid : p.tpPid = options.tpPid
  validTime : p.validTime = wireText options.validTime 17
  atTime : p.atTime = wireText options.atTime 17

/-- The SUBMITs are one message with the text, in the order of its parts, under the options. -/
structure Conveys (gbk : Gbk) (options : SubmitOptions) (content : String) (submits : List Submit) :
    Prop where
  text : messageOf gbk submits = content
  numbers : submits.map (fun p => p.pkNumber.toNat) = List.range' 1 submits.length
  total : ∀ p ∈ submits, p.pkTotal.toNat = submits.length
  reference : submits.length ≠ 1 → ∃ reference, ∀ p ∈ submits, p.tpUdhi = 1 ∧
    [0x05, 0x00, 0x03, reference] <+: p.msgContent
  serves : ∀ p ∈ submits, Serves options p

/-- The SUBMIT of a segment, as it is read. -/
def submitOf (options : SubmitOptions) (segment : SmsSegment) : Submit :=
  (options.buildSubmitTemplate.applySegment segment).onWire

theorem serves_submitOf (options : SubmitOptions) (segment : SmsSegment) :
    Serves options (submitOf options segment) where
  serviceId := rfl
  msgSrc := rfl
  srcId := rfl
  destTerminalIds := rfl
  registeredDelivery := rfl
  msgLevel := rfl
  feeUserType := rfl
  feeTerminalId := rfl
  feeType := rfl
  feeCode := rfl
  tpPid := rfl
  validTime := rfl
  atTime := rfl

theorem conveys_of_carried {segments : List SmsSegment}
    (h : CmppProtocol.Carried gbk content segments) :
    Conveys gbk options content (segments.map (submitOf options)) := by
  have hmem (p : Submit) (hp : p ∈ segments.map (submitOf options)) :
      ∃ segment ∈ segments, p = submitOf options segment := by
    obtain ⟨segment, hsegment, rfl⟩ := List.mem_map.mp hp
    exact ⟨segment, hsegment, rfl⟩
  constructor
  · rw [messageOf, List.map_map]
    exact h.decoded
  · rw [List.map_map, List.length_map]
    exact h.numbers
  · intro p hp
    obtain ⟨segment, hsegment, rfl⟩ := hmem p hp
    rw [List.length_map]
    exact h.total segment hsegment
  · intro hlong
    rw [List.length_map] at hlong
    obtain ⟨reference, hreference⟩ := h.long hlong
    refine ⟨reference, fun p hp => ?_⟩
    obtain ⟨segment, hsegment, rfl⟩ := hmem p hp
    obtain ⟨hudhi, text, hcontent, _⟩ := hreference segment hsegment
    refine ⟨hudhi, ?_⟩
    change _ <+: segment.content
    rw [hcontent]
    exact ⟨_, rfl⟩
  · intro p hp
    obtain ⟨segment, _, rfl⟩ := hmem p hp
    exact serves_submitOf options segment

/-! ## What an id stands for -/

theorem admission_unique (hsound : s.Sound config) {a b : Admission} (ha : a ∈ s.log.admissions)
    (hb : b ∈ s.log.admissions) (hid : b.sequenceId = a.sequenceId) : b = a := by
  obtain ⟨_, hlife⟩ := Window.admitted_life hsound.lives ha
  have hmem : b ∈ (s.window.life a.sequenceId).admissions :=
    List.mem_filter.mpr ⟨hb, decide_eq_true hid⟩
  rw [hlife.admissions] at hmem
  exact List.mem_singleton.mp hmem

theorem admitted_le (hsound : s.Sound config) {a : Admission} (ha : a ∈ s.log.admissions) :
    a.sequenceId ≤ u32Max := by
  have hadmitted : a.sequenceId ∈ s.holdings.admitted := List.mem_map_of_mem ha
  exact hsound.ledger.holds.wellFormed.blocked_le (hsound.ledger.blocked _ hadmitted)

/-- A SUBMIT among the frames is one that speaks for an admission. -/
theorem Legible.speaks {o : Outbound} {f : Frame} {p : Submit} (h : Legible gbk events s named o f)
    (hsubmit : f.pdu = .submit p) : ∃ a, SpeaksFor gbk events s o f a := by
  rcases h.meaning with hmeans | ⟨a, hspeaks, _⟩
  · cases hmeans with
    | activeTest packet key hmem => cases hsubmit
    | terminate packet id hmem => cases hsubmit
    | answer o f hanswer hmem =>
      obtain ⟨event, _, hanswer⟩ := List.mem_filterMap.mp hmem
      unfold answerTo at hanswer
      split at hanswer
      · cases hanswer
        cases hsubmit
      · cases hanswer
        cases hsubmit
      · cases hanswer
        cases hsubmit
      · cases hanswer
  · exact ⟨a, hspeaks⟩

/-- The SUBMIT that is read under the id of an admission is the one of its segment. -/
theorem submit_of_received (hsound : s.Sound config) {outbounds : List Outbound}
    {frames : List Frame} (hlegible : List.Forall₂ (Legible gbk events s named) outbounds frames)
    {p : Submit} {b : Admission} (hb : b ∈ s.log.admissions)
    (hread : ⟨.ofNat b.sequenceId, .submit p⟩ ∈ frames.map Frame.onWire)
    (hargs : (submissions events)[b.call]? = some (options, content, base))
    (hcall : s.calls[b.call]? = some call) :
    ∃ segment, call.plan.segment gbk b.segment call.udhReference () = some (.ok segment, ()) ∧
      p = submitOf options segment := by
  obtain ⟨f, hf, hwire⟩ := List.mem_map.mp hread
  obtain ⟨o, _, hlegible⟩ := hlegible.flip.exists_mem hf
  obtain ⟨sequenceId, pdu⟩ := f
  obtain ⟨hsequence, hpdu⟩ := Frame.mk.inj hwire
  cases pdu with
  | submit q =>
    obtain ⟨a, hspeaks⟩ := hlegible.speaks rfl
    obtain ⟨options', content', base', call', segment, hargs', hcall', hsegment, hframe⟩ :=
      hspeaks.frame
    obtain ⟨hid, hq⟩ := Frame.mk.inj hframe
    have hnat := congrArg UInt32.toNat (hsequence.symm.trans hid)
    rw [UInt32.toNat_ofNat_of_lt' (Nat.lt_succ_of_le (admitted_le hsound hb)),
      UInt32.toNat_ofNat_of_lt' (Nat.lt_succ_of_le (admitted_le hsound hspeaks.admitted))] at hnat
    obtain rfl := admission_unique hsound hspeaks.admitted hb hnat
    rw [hargs] at hargs'
    rw [hcall] at hcall'
    cases hargs'
    cases hcall'
    refine ⟨segment, hsegment, ?_⟩
    cases hq
    cases hpdu
    rfl
  | _ => cases hpdu

/-! ## The text arrives -/

/-- What a successful call has got admitted is cut from its text. -/
theorem segments_admitted (hreported : Reported gbk events s)
    (hargs : (submissions events)[index]? = some (options, content, base))
    (hcall : s.calls[index]? = some call) {ids : List ℕ} (hok : call.stage = .returned (.ok ids)) :
    ∃ reference, (segmentTexts content).length ≤ 255 ∧
      (s.log.admissionsOf index).map Admission.segment = List.range (segmentTexts content).length ∧
      (s.log.admissionsOf index).map Admission.sequenceId = ids ∧
      ∀ a ∈ s.log.admissionsOf index, ∀ segment,
        call.plan.segment gbk a.segment call.udhReference () = some (.ok segment, ()) →
          segment = segmentAt gbk content reference a.segment := by
  have htold := hreported.told index _ _ _ _ hargs hcall
  have hstands := htold.stands
  rw [SubmitCall.Stands, hok] at hstands
  obtain ⟨hids, hlength⟩ : ids = call.sequenceIds ∧ ids.length = call.segmentCount := hstands
  rcases htold.planned with ⟨⟨error, hfailed⟩, _⟩ | ⟨counter, counter', hplan⟩
  · rw [hok] at hfailed
    cases hfailed
  · obtain ⟨hle, preferred, heq⟩ := planOf_of_prepared hplan
    have hcount : call.segmentCount = (segmentTexts content).length := by
      rw [SubmitCall.segmentCount, heq]
      exact length_rangesFrom 0 _
    have hpos : 0 < ids.length := by
      rw [hlength, hcount]
      exact List.length_pos_iff.mpr (segmentTexts_ne_nil _)
    have hne : call.sequenceIds ≠ [] := hids ▸ List.ne_nil_of_length_pos hpos
    have hsegments : (s.log.admissionsOf index).map Admission.segment =
        List.range (segmentTexts content).length := by
      rw [htold.segments, ← hids, hlength, hcount]
    refine ⟨call.udhReference.getD 0, hle, hsegments, htold.sequenceIds.trans hids.symm, ?_⟩
    intro a ha segment hsegment
    rw [heq] at hsegment
    have hlt : a.segment ∈ List.range (segmentTexts content).length :=
      hsegments ▸ List.mem_map_of_mem ha
    exact segmentAt_of_segment hle (List.mem_range.mp hlt)
      (fun hlong => htold.reference hne (hcount ▸ hlong)) hsegment

theorem submit_frame_means {a : Admission} {k : ℕ} {f : Frame}
    (h : Means named events (a.frame k) f) : False := by
  generalize ho : a.frame k = o at h
  have hkey : o.submitAttempt = some (a.key k) := by rw [← ho, Admission.frame_submitAttempt]
  cases h with
  | activeTest packet key hmem => cases hkey
  | terminate packet id hmem => cases hkey
  | answer o f hanswer hmem =>
    simp [Outbound.isAnswer, hkey] at hanswer

/-- The frame of an admission that was handed to the socket. -/
theorem frame_of_handed {a : Admission} {k : ℕ} {f : Frame}
    (h : Legible gbk events s named (a.frame k) f) :
    ∃ p, f.onWire = ⟨.ofNat a.sequenceId, .submit p⟩ := by
  rcases h.meaning with hmeans | ⟨b, hspeaks, _⟩
  · exact (submit_frame_means hmeans).elim
  · obtain ⟨m, hframe⟩ := hspeaks.attempt
    have hkey := congrArg Outbound.submitAttempt hframe
    rw [Admission.frame_submitAttempt, Admission.frame_submitAttempt] at hkey
    have hid : a.sequenceId = b.sequenceId :=
      congrArg SubmitAttemptKey.sequenceId (Option.some.inj hkey)
    obtain ⟨_, _, _, _, _, _, _, _, rfl⟩ := hspeaks.frame
    rw [hid]
    exact ⟨_, rfl⟩

/-- From text to text. Whatever part of the octets has come to the other side and wherever it was
cut: if for every id that a call of `submit` returned a SUBMIT was read under this id, these SUBMITs
are the text of the call, in the order of its parts and under its options. And there is one for
every id as soon as all octets have come and every segment was handed over at least once. -/
theorem text_arrives {clock : ℕ} {udhCounter : UInt32}
    (hrun : (machine gbk config clock udhCounter).Run events s)
    (hargs : (submissions events)[index]? = some (options, content, base))
    (hcall : s.calls[index]? = some call) {ids : List ℕ} (hok : call.stage = .returned (.ok ids))
    {chunks : List (List UInt8)}
    (hchunks : chunks.flatten <+: s.log.handed.flatMap Outbound.packet) :
    ∃ received rest,
      CmppFrameCodec.Inbound.start.readAll chunks = some ⟨received, none, rest⟩ ∧
      (∀ submits, Collected received ids submits → Conveys gbk options content submits) ∧
      (chunks.flatten = s.log.handed.flatMap Outbound.packet →
        (∀ a ∈ s.log.admissionsOf index, ∃ k, a.frame k ∈ s.log.handed) →
          ∃ submits, Collected received ids submits) := by
  have hsound := sound_run hrun
  obtain ⟨named, frames, _, hlegible, hreads⟩ := outgoing_legible hrun
  obtain ⟨n, rest, hwhole, hread⟩ := hreads chunks hchunks
  obtain ⟨reference, hle, hsegments, hids, hcut⟩ :=
    segments_admitted (reported_run hrun) hargs hcall hok
  have hof (a : Admission) (ha : a ∈ s.log.admissionsOf index) :
      a ∈ s.log.admissions ∧ a.call = index := by
    obtain ⟨hmem, hindex⟩ := List.mem_filter.mp ha
    exact ⟨hmem, of_decide_eq_true hindex⟩
  refine ⟨_, rest, hread, fun submits hcollected => ?_, fun hall hhanded => ?_⟩
  · rw [Collected, ← hids, List.forall₂_map_left_iff] at hcollected
    have hpart (a : Admission) (ha : a ∈ s.log.admissionsOf index) (p : Submit)
        (hp : ⟨.ofNat a.sequenceId, .submit p⟩ ∈ (frames.take n).map Frame.onWire) :
        submitOf options (segmentAt gbk content reference a.segment) = p := by
      obtain ⟨hmem, rfl⟩ := hof a ha
      have hp' := List.map_subset Frame.onWire (List.take_subset n frames) hp
      obtain ⟨segment, hsegment, rfl⟩ := submit_of_received hsound hlegible hmem hp' hargs hcall
      rw [hcut a ha segment hsegment]
    have hsubmits : (s.log.admissionsOf index).map
        (fun a => submitOf options (segmentAt gbk content reference a.segment)) = submits := by
      rw [← List.forall₂_eq_eq_eq, List.forall₂_map_left_iff]
      refine ((List.forall₂_and_left _ _).mpr ⟨hpart, hcollected⟩).imp ?_
      exact fun a p h => h.1 p h.2
    have hsplit : submits = ((List.range (segmentTexts content).length).map
        (segmentAt gbk content reference)).map (submitOf options) := by
      rw [← hsubmits, ← hsegments, List.map_map, List.map_map]
      rfl
    rw [hsplit]
    exact conveys_of_carried (carried_segmentAt gbk hle reference)
  · have hframes : frames.take n = frames := by
      rw [hall, (packets_of_legible hlegible).1] at hwhole
      exact hwhole.complete.1
    have heach : ∀ a ∈ s.log.admissionsOf index, ∃ p,
        ⟨.ofNat a.sequenceId, .submit p⟩ ∈ (frames.take n).map Frame.onWire := fun a ha => by
      obtain ⟨k, hk⟩ := hhanded a ha
      obtain ⟨f, hf, hmeaning⟩ := hlegible.exists_mem hk
      obtain ⟨p, hp⟩ := frame_of_handed hmeaning
      rw [hframes]
      exact ⟨p, hp ▸ List.mem_map_of_mem hf⟩
    obtain ⟨submits, hsubmits⟩ := exists_forall₂ heach
    refine ⟨submits, ?_⟩
    rw [Collected, ← hids, List.forall₂_map_left_iff]
    exact hsubmits

/-- A window for two SUBMITs. -/
def pairConfig : ConnectionConfig :=
  { smallConfig with windowSize := 2, windowSize_pos := Nat.zero_lt_two }

/-- A text of two segments is submitted and sent. -/
def sendTwo : List ConnectionEvent :=
  [.submit (.new "SMS" "901234" "1065" "13800000000") (.ofList (List.replicate 141 'a')) none,
    .call 0 (.prepare (some 9)), .call 0 .nextSegment, .call 0 .acquirePermit, .call 0 .encode,
    .call 0 .reserveSlot, .call 0 .admitSubmit, .call 0 .nextSegment, .call 0 .acquirePermit,
    .call 0 .encode, .call 0 .reserveSlot, .call 0 .admitSubmit, .call 0 .nextSegment] ++
    List.replicate 17 (.writer .advance)

/-- The ids of a call that has succeeded. -/
def acceptedIds (call : SubmitCall) : Option (List ℕ) :=
  match call.stage with
  | .returned (.ok ids) => some ids
  | _ => none

theorem stage_of_acceptedIds {ids : List ℕ} (h : acceptedIds call = some ids) :
    call.stage = .returned (.ok ids) := by
  unfold acceptedIds at h
  split at h
  · next hstage =>
    cases h
    exact hstage
  · cases h

/-- The octets of both segments come in two reads. -/
theorem text_arrives_two : ∃ s received rest submits,
    (machine asciiGbk pairConfig 0 0).Run sendTwo s ∧
      CmppFrameCodec.Inbound.start.readAll [(s.log.handed.flatMap Outbound.packet).take 200,
        (s.log.handed.flatMap Outbound.packet).drop 200] = some ⟨received, none, rest⟩ ∧
      Collected received [2, 3] submits ∧
      Conveys asciiGbk (.new "SMS" "901234" "1065" "13800000000") (.ofList (List.replicate 141 'a'))
        submits := by
  have hexec : (Machine.exec (next asciiGbk pairConfig) (initial pairConfig 0 0) sendTwo).map
      (fun s => (s.calls.map acceptedIds,
        (s.log.admissionsOf 0).all fun a => decide (a.frame 1 ∈ s.log.handed))) =
      some ([some [2, 3]], true) := by decide +kernel
  obtain ⟨s, hrun, hview⟩ := Machine.exists_run_of_exec _ hexec
  obtain ⟨hcalls, hhanded⟩ := Prod.mk.inj hview
  obtain ⟨call, hcall, hids⟩ := List.map_eq_singleton_iff.mp hcalls
  have hget : s.calls[0]? = some call := by rw [hcall]; rfl
  have hflatten : [(s.log.handed.flatMap Outbound.packet).take 200,
      (s.log.handed.flatMap Outbound.packet).drop 200].flatten =
        s.log.handed.flatMap Outbound.packet := by
    rw [List.flatten_cons, List.flatten_singleton, List.take_append_drop]
  have hprefix : [(s.log.handed.flatMap Outbound.packet).take 200,
      (s.log.handed.flatMap Outbound.packet).drop 200].flatten <+:
        s.log.handed.flatMap Outbound.packet := by
    rw [hflatten]
  obtain ⟨received, rest, hread, hconveys, hcomplete⟩ := text_arrives hrun rfl hget
    (stage_of_acceptedIds hids) hprefix
  obtain ⟨submits, hcollected⟩ := hcomplete hflatten fun a ha =>
    ⟨1, of_decide_eq_true (List.all_eq_true.mp hhanded a ha)⟩
  exact ⟨s, received, rest, submits, hrun, hread, hcollected, hconveys submits hcollected⟩

end Connection

end CmppProtocol
