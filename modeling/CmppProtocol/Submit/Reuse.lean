import CmppProtocol.Encoding.Segments
import CmppProtocol.Submit.Template
import CmppProtocol.Wire.Framing

/-! # One template for all segments

A call writes every segment over the same template and encodes it as it goes. The
public builder makes a value of its own for each segment. The frames are the same
but for the reference octet of the header.
-/

namespace CmppProtocol

open Fallible SubmitContentPlan

variable {gbk : Gbk} {options : SubmitOptions} {content : String} {template submit : Submit}
  {segment : SmsSegment} {plan : SubmitContentPlan} {σ : Type}

namespace Submit

/-- Both ways of encoding write the same frame. -/
theorem tryEncode_eq (h : submit.Encodable) (sequenceId : UInt32) :
    (submit.tryEncode sequenceId : Fallible Error σ _) =
      pure (Frame.octets ⟨sequenceId, .submit submit⟩) := by
  have hfits : ¬ (Pdu.submit submit).Oversized := not_or.mpr ⟨not_lt.mpr h.1, not_lt.mpr h.2⟩
  have hvalid : submit.validateEncode = .ok () := Pdu.validateEncode_ok hfits
  have hframe := CmppFrameCodec.encode_appends (f := ⟨sequenceId, .submit submit⟩) hfits []
  rw [CmppFrameCodec.encode, Pdu.tryEncodeInto, Pdu.validateEncode, hvalid, List.nil_append]
    at hframe
  have hinto : Pdu.encodeFrameInto CMPP_SUBMIT sequenceId submit.encodeBody [] =
    some (.ok (), Frame.octets ⟨sequenceId, .submit submit⟩) := hframe
  simp only [tryEncode, hvalid, hinto]

theorem tryEncodeInto_eq (h : submit.Encodable) (sequenceId : UInt32) :
    (Pdu.submit submit).tryEncodeInto sequenceId [] =
      some (.ok (), Frame.octets ⟨sequenceId, .submit submit⟩) :=
  CmppFrameCodec.encode_appends (f := ⟨sequenceId, .submit submit⟩)
    (not_or.mpr ⟨not_lt.mpr h.1, not_lt.mpr h.2⟩) []

/-- Contents that differ in one octet give frames that differ in one octet. -/
theorem octets_msgContent (submit : Submit) (before after : List UInt8) (sequenceId : UInt32) :
    ∃ front back, front.length = 130 + 21 * submit.destTerminalIds.length + before.length ∧
      ∀ octet, Frame.octets
        ⟨sequenceId, .submit { submit with msgContent := before ++ octet :: after }⟩ =
          front ++ octet :: back := by
  let size := (before ++ 0 :: after).length
  let total := CMPP_HEADER_LENGTH + (126 + submit.destTerminalIds.length * 21 + size)
  refine ⟨toBeBytes (.ofNat total) ++ toBeBytes CMPP_SUBMIT ++ toBeBytes sequenceId ++
    submit.head ++
    [.ofNat submit.destTerminalIds.length] ++ submit.destTerminalIds.flatMap (octets · 21) ++
    [.ofNat size] ++ before, after ++ List.replicate 8 0, ?_, fun octet => ?_⟩
  · simp only [List.length_append, length_toBeBytes, length_destinations, head, length_octets,
      Vector.length_toList, List.length_cons, List.length_nil]
    omega
  · have hsize : (before ++ octet :: after).length = size := by
      simp only [size, List.length_append, List.length_cons]
    have hbody := length_body { submit with msgContent := before ++ octet :: after }
    simp only [hsize] at hbody
    simp only [Frame.octets, Pdu.body, hbody, Pdu.commandId, total]
    simp only [body, tail, hsize, head, List.append_assoc, List.append_nil, List.cons_append]

end Submit

/-! ## The segments -/

/-- The segment of a plan at an index, with the reference that a long message is given. -/
def segmentAt (gbk : Gbk) (content : String) (reference : UInt8) (index : ℕ) : SmsSegment :=
  if (segmentTexts content).length = 1 then
    singleSegment gbk (chooseEncoding content) content.toList
  else
    longSegment gbk (chooseEncoding content) (segmentTexts content).length reference index
      ((segmentTexts content).getD index [])

theorem one_lt_segments (h : (segmentTexts content).length ≠ 1) :
    1 < (segmentTexts content).length := by
  have hpos := List.length_pos_iff.mpr (segmentTexts_ne_nil content)
  omega

variable (gbk) in
theorem trySplitContent_eq (hle : (segmentTexts content).length ≤ 255) (counter : UInt32) :
    ∃ own counter', trySplitContent gbk content counter =
      some (.ok ((List.range (segmentTexts content).length).map (segmentAt gbk content own)),
        counter') := by
  by_cases h : (segmentTexts content).length = 1
  · refine ⟨0, counter, (trySplitContent_single gbk h counter).trans ?_⟩
    have hat : segmentAt gbk content 0 = fun _ =>
        singleSegment gbk (chooseEncoding content) content.toList := funext fun _ => if_pos h
    rw [h, hat]
    rfl
  · refine ⟨(counter &&& 0xFF).toUInt8, counter + 1,
      (trySplitContent_long gbk (one_lt_segments h) hle counter).trans ?_⟩
    have hat : segmentAt gbk content (counter &&& 0xFF).toUInt8 = fun index =>
        longSegment gbk (chooseEncoding content) (segmentTexts content).length
          (counter &&& 0xFF).toUInt8 index ((segmentTexts content).getD index []) :=
      funext fun index => if_neg h
    rw [longSegments, hat]

theorem trySplitContent_le {counter counter' : UInt32} {segments : List SmsSegment}
    (h : trySplitContent gbk content counter = some (.ok segments, counter')) :
    (segmentTexts content).length ≤ 255 := by
  by_contra hlong
  obtain ⟨e, he⟩ := prepareSubmitContent_error (not_le.mp hlong) counter
  rw [trySplitContent, bind_error he] at h
  cases h

theorem prepareSubmitContent_eq (hle : (segmentTexts content).length ≤ 255) (counter : UInt32) :
    ∃ preferred counter',
      prepareSubmitContent content counter = some (.ok (planOf content preferred), counter') := by
  by_cases h : (segmentTexts content).length = 1
  · exact ⟨_, _, prepareSubmitContent_single h counter⟩
  · exact ⟨_, _, prepareSubmitContent_long (one_lt_segments h) hle counter⟩

variable (gbk) in
theorem segment_planOf (hle : (segmentTexts content).length ≤ 255) (preferred : Option UInt8)
    (reference : UInt8) {index : ℕ} (hi : index < (segmentTexts content).length) :
    ((planOf content preferred).segment gbk index
      (if (segmentTexts content).length = 1 then none else some reference) :
        Fallible Error σ SmsSegment) = pure (segmentAt gbk content reference index) := by
  obtain ⟨pre, post, hsplit, rfl⟩ := exists_split hi
  by_cases h : (segmentTexts content).length = 1
  · have htext : (segmentTexts content).getD pre.length [] = content.toList := by
      rw [(segmentTexts_single h).1]
      rw [h] at hi
      rw [Nat.lt_one_iff.mp hi]
      rfl
    rw [segment_single gbk hsplit h, segmentAt, if_pos h, htext]
  · rw [if_neg h, segment_long gbk hsplit (one_lt_segments h) hle, segmentAt, if_neg h]

theorem length_segmentAt (hle : (segmentTexts content).length ≤ 255) (reference : UInt8)
    {index : ℕ} (hi : index < (segmentTexts content).length) :
    (segmentAt gbk content reference index).content.length ≤ 255 := by
  by_cases h : (segmentTexts content).length = 1
  · rw [segmentAt, if_pos h]
    exact ((carried_single gbk h).fits _ (List.mem_singleton_self _)).trans (by decide)
  · rw [segmentAt, if_neg h]
    refine ((carried_long gbk (one_lt_segments h) hle reference).fits _ ?_).trans (by decide)
    exact List.mem_map_of_mem (List.mem_range.mpr hi)

/-! ## The frames -/

variable (template) in
/-- Whatever the template held before, the frames are those of fresh values. -/
theorem encodeSegments_eq (sequenceIds : ℕ → UInt32) {reference : Option UInt8} {indices : List ℕ}
    {segments : ℕ → SmsSegment}
    (hsegment : ∀ i ∈ indices, (plan.segment gbk i reference : Fallible Error σ _) =
      pure (segments i))
    (hfits : ∀ i ∈ indices, (options.buildSubmitFromSegment (segments i)).Encodable)
    (htemplate : ∀ segment, template.applySegment segment =
      options.buildSubmitFromSegment segment) :
    (encodeSegments gbk plan reference sequenceIds template indices : Fallible Error σ _) =
      pure (indices.map fun i => (options.buildSubmitFromSegment (segments i),
        Frame.octets ⟨sequenceIds i, .submit (options.buildSubmitFromSegment (segments i))⟩)) := by
  induction indices generalizing template with
  | nil => rfl
  | cons i indices ih =>
    have hlater := @ih (options.buildSubmitFromSegment (segments i))
      (fun j hj => hsegment j (List.mem_cons_of_mem _ hj))
      (fun j hj => hfits j (List.mem_cons_of_mem _ hj)) (fun _ => rfl)
    simp only [encodeSegments, hsegment i List.mem_cons_self, pure_bind', htemplate,
      Submit.tryEncode_eq (hfits i List.mem_cons_self), hlater, List.map_cons]

variable (gbk options) in
/-- The frame of one segment under two references. -/
theorem octets_segmentAt (own : UInt8) (sequenceId : UInt32) (index : ℕ)
    (h : (segmentTexts content).length ≠ 1) : ∃ rest front back,
      (∀ reference, options.buildSubmitFromSegment (segmentAt gbk content reference index) =
        { options.buildSubmitFromSegment (segmentAt gbk content own index) with
          msgContent := [5, 0, 3] ++ reference :: rest }) ∧
      front.length = 130 + 21 * options.destTerminalIds.length + 3 ∧
      ∀ reference, Frame.octets ⟨sequenceId, .submit (options.buildSubmitFromSegment
        (segmentAt gbk content reference index))⟩ = front ++ reference :: back := by
  let rest := [UInt8.ofNat (segmentTexts content).length, .ofNat (index + 1)] ++
    encodeContent gbk (.ofList ((segmentTexts content).getD index [])) (chooseEncoding content)
  have hcontent : ∀ reference, options.buildSubmitFromSegment
      (segmentAt gbk content reference index) =
        { options.buildSubmitFromSegment (segmentAt gbk content own index) with
          msgContent := [5, 0, 3] ++ reference :: rest } := by
    intro reference
    rw [segmentAt, segmentAt, if_neg h, if_neg h]
    rfl
  obtain ⟨front, back, hfront, hoctets⟩ := Submit.octets_msgContent
    (options.buildSubmitFromSegment (segmentAt gbk content own index)) [5, 0, 3] rest sequenceId
  refine ⟨rest, front, back, hcontent, hfront, fun reference => ?_⟩
  rw [hcontent reference]
  exact hoctets reference

/-- The reused template gives the frames of the public builder, the reference octet apart. -/
theorem template_reuse_agrees (reference : UInt8) (sequenceIds : ℕ → UInt32)
    {counter counter' : UInt32} {segments : List SmsSegment}
    (hdest : options.destTerminalIds.length ≤ 255)
    (hsplit : trySplitContent gbk content counter = some (.ok segments, counter')) :
    ∃ submits, options.tryBuildSubmits gbk content counter = some (.ok submits, counter') ∧
      submits.length = segments.length ∧
      ∀ earlier, ∃ plan later, prepareSubmitContent content earlier = some (.ok plan, later) ∧
        plan.ranges.length = segments.length ∧
        ∃ frames, encodeSegments gbk plan (if segments.length = 1 then none else some reference)
            sequenceIds options.buildSubmitTemplate (List.range segments.length) () =
              some (.ok frames, ()) ∧
          frames.length = segments.length ∧
          ∀ i submit template frame, submits[i]? = some submit →
            frames[i]? = some (template, frame) →
            ∃ encoded, (Pdu.submit submit).tryEncodeInto (sequenceIds i) [] =
                some (.ok (), encoded) ∧
              (segments.length = 1 → template = submit ∧ frame = encoded) ∧
              (segments.length ≠ 1 → ∃ own rest front back,
                submit.msgContent = [5, 0, 3] ++ own :: rest ∧
                template = { submit with msgContent := [5, 0, 3] ++ reference :: rest } ∧
                front.length = 130 + 21 * options.destTerminalIds.length + 3 ∧
                encoded = front ++ own :: back ∧ frame = front ++ reference :: back) := by
  have hle := trySplitContent_le hsplit
  obtain ⟨own, counter'', hat⟩ := trySplitContent_eq gbk hle counter
  rw [hsplit, Option.some.injEq, Prod.mk.injEq, Except.ok.injEq] at hat
  obtain ⟨rfl, rfl⟩ := hat
  have hlength : ((List.range (segmentTexts content).length).map
      (segmentAt gbk content own)).length = (segmentTexts content).length := by
    rw [List.length_map, List.length_range]
  have hencodable : ∀ reference, ∀ i ∈ List.range (segmentTexts content).length,
      (options.buildSubmitFromSegment (segmentAt gbk content reference i)).Encodable :=
    fun reference i hi => ⟨hdest, length_segmentAt hle reference (List.mem_range.mp hi)⟩
  simp only [hlength]
  refine ⟨((List.range (segmentTexts content).length).map (segmentAt gbk content own)).map
    options.buildSubmitFromSegment, ?_, ?_, fun earlier => ?_⟩
  · rw [SubmitOptions.tryBuildSubmits, if_neg (not_lt.mpr hdest)]
    exact Returns.bind hsplit (Returns.pure _ _)
  · rw [List.length_map, hlength]
  obtain ⟨preferred, later, hplan⟩ := prepareSubmitContent_eq hle earlier
  have hframes := encodeSegments_eq (σ := Unit) options.buildSubmitTemplate sequenceIds
    (fun i hi => segment_planOf gbk hle preferred reference (List.mem_range.mp hi))
    (hencodable reference) fun _ => rfl
  refine ⟨_, later, hplan, length_rangesFrom _ _, _, congrFun hframes (), ?_, ?_⟩
  · rw [List.length_map, List.length_range]
  intro i submit template frame hsubmit hframe
  simp only [List.map_map, List.getElem?_map, Option.map_eq_some_iff, Function.comp_apply]
    at hsubmit hframe
  obtain ⟨j, hj, rfl⟩ := hsubmit
  obtain ⟨_, hj', heq⟩ := hframe
  rw [hj, Option.some.injEq] at hj'
  subst hj'
  rw [Prod.mk.injEq] at heq
  obtain ⟨rfl, rfl⟩ := heq
  obtain ⟨hi, hji⟩ := List.getElem?_eq_some_iff.mp hj
  rw [List.getElem_range] at hji
  subst hji
  rw [List.length_range] at hi
  refine ⟨_, Submit.tryEncodeInto_eq (hencodable own i (List.mem_range.mpr hi)) _, ?_, ?_⟩
  · intro hone
    have hsame : segmentAt gbk content reference i = segmentAt gbk content own i := by
      rw [segmentAt, segmentAt, if_pos hone, if_pos hone]
    rw [hsame]
    exact ⟨rfl, rfl⟩
  · intro hlong
    obtain ⟨rest, front, back, hcontent, hfront, hoctets⟩ :=
      octets_segmentAt gbk options own (sequenceIds i) i hlong
    refine ⟨own, rest, front, back, ?_, hcontent reference, hfront, hoctets own, hoctets reference⟩
    rw [hcontent own]

theorem template_reuse_agrees_long :
    ∃ submits, (SubmitOptions.new "" "" "" "1").tryBuildSubmits ⟨fun _ => [], fun _ => ""⟩
      (.ofList (List.replicate 141 'a')) 7 = some (.ok submits, 8) := by
  have hlong :
      trySplitContent ⟨fun _ => [], fun _ => ""⟩ (.ofList (List.replicate 141 'a')) 7 = _ :=
    trySplitContent_long _ (by decide +kernel) (by decide +kernel) 7
  have hone : (SubmitOptions.new "" "" "" "1").destTerminalIds.length ≤ 255 := by decide
  obtain ⟨submits, h, -⟩ := template_reuse_agrees 9 (fun _ => 1) hone hlong
  exact ⟨submits, h⟩

end CmppProtocol
