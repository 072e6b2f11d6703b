import CmppProtocol.Connection.Consumed
import CmppProtocol.Encoding.Segments
import CmppProtocol.Udh.Pool

/-! # A call reports what it admitted

The admissions of a call are the first segments of its message under the ids
that it returns. A call that ends gives everything else back: leases, permit and
the share in the UDH lease.
-/

namespace CmppProtocol

open SequenceState

namespace SubmitContentPlan

open Fallible

variable {gbk : Gbk} {plan : SubmitContentPlan} {index : ℕ} {reference : UInt8}
  {segment : SmsSegment}

theorem tryU8_returns {σ : Type} {n : ℕ} {message : String} {s s' : σ} {a : UInt8}
    (h : Returns (ε := Error) (tryU8 n message) s a s') : a = .ofNat n := by
  unfold Returns tryU8 at h
  split_ifs at h
  · cases h
    rfl
  · cases h

/-- The segments of a long message name the reference in their headers. -/
theorem segment_header (hlong : 1 < plan.ranges.length)
    (h : plan.segment gbk index (some reference) () = some (.ok segment, ())) :
    ∃ payload, segment.content =
      [0x05, 0x00, 0x03, reference, .ofNat plan.ranges.length, .ofNat (index + 1)] ++ payload := by
  cases hrange : plan.ranges[index]? with
  | none =>
    simp only [SubmitContentPlan.segment, hrange] at h
    cases h
  | some range =>
    simp only [SubmitContentPlan.segment, hrange, Nat.ne_of_gt hlong, if_false, Option.some_or] at h
    obtain ⟨text, _, _, h⟩ := Returns.of_bind h
    obtain ⟨total, _, htotal, h⟩ := Returns.of_bind h
    obtain ⟨number, _, hnumber, h⟩ := Returns.of_bind h
    cases tryU8_returns htotal
    cases tryU8_returns hnumber
    cases h
    exact ⟨_, rfl⟩

end SubmitContentPlan

/-- The only error of the plan is the one of a message that is too long. -/
theorem prepareSubmitContent_refused {content : String} {counter counter' : UInt32} {error : Error}
    (h : prepareSubmitContent content counter = some (.error error, counter')) :
    ∃ message, error = .config message := by
  by_cases hlong : 255 < (segmentTexts content).length
  · simp only [prepareSubmitContent, totalBytes_eq, segmentCount_eq, Fallible.pure_bind', hlong,
      if_true, Fallible.fail_apply] at h
    cases h
    exact ⟨_, rfl⟩
  · have hpos : 0 < (segmentTexts content).length :=
      List.length_pos_iff.mpr (segmentTexts_ne_nil content)
    rcases Nat.lt_or_ge 1 (segmentTexts content).length with hmany | hone
    · rw [prepareSubmitContent_long hmany (Nat.not_lt.mp hlong)] at h
      cases h
    · rw [prepareSubmitContent_single (by omega)] at h
      cases h

/-- The arguments of the calls, in the order of the calls. -/
def submissions (events : List ConnectionEvent) :
    List (SubmitOptions × String × Option UInt32) :=
  events.filterMap fun
    | .submit options content base => some (options, content, base)
    | _ => none

def ConnectionLog.admissionsOf (log : ConnectionLog) (index : ℕ) : List Admission :=
  log.admissions.filter fun a => a.call = index

namespace SubmitCall

variable {gbk : Gbk} {options : SubmitOptions} {content : String} {base : Option UInt32}
  {call : SubmitCall} {admissions : List Admission}

/-- The frame is the one of the segment, under the id. -/
def Frames (gbk : Gbk) (options : SubmitOptions) (call : SubmitCall) (index sequenceId : ℕ)
    (packet : List UInt8) : Prop :=
  ∃ segment, call.plan.segment gbk index call.udhReference () = some (.ok segment, ()) ∧
    (options.buildSubmitTemplate.applySegment segment).tryEncode (.ofNat sequenceId) () =
      some (.ok packet, ())

/-- What a result says about the ids that were admitted. -/
def Reports (call : SubmitCall) : Except Error (List ℕ) → Prop
  | .ok ids => ids = call.sequenceIds ∧ ids.length = call.segmentCount
  | .error (.partialSubmit ids _) => ids = call.sequenceIds.map .ofNat
  | .error _ => call.sequenceIds = []

/-- A call in its loop: the ids to come follow those that were admitted. -/
structure Underway (options : SubmitOptions) (call : SubmitCall) : Prop where
  reference : 1 < call.segmentCount → call.udhReference.isSome = true
  template : ∀ segment,
    call.template.applySegment segment = options.buildSubmitTemplate.applySegment segment
  manual : ∀ b, call.base = some b →
    call.sequenceIds ++ call.leases.map SequenceLease.sequenceId = batchIds b call.segmentCount
  automatic : call.base = none → call.manualSequenceLeases = []

/-- The call goes on with the leases that it has. -/
theorem Underway.keep (h : call.Underway options) {stage : CallStage}
    {manualSequenceLeases : List SequenceLease}
    (hleases : ({ call with stage, manualSequenceLeases } : SubmitCall).leases = call.leases)
    (hautomatic : call.base = none → manualSequenceLeases = []) :
    Underway options { call with stage, manualSequenceLeases } where
  reference := h.reference
  template := h.template
  manual b hb := by
    rw [hleases]
    exact h.manual b hb
  automatic := hautomatic

def Stands (gbk : Gbk) (options : SubmitOptions) (call : SubmitCall) : Prop :=
  match call.stage with
  | .entered => call.sequenceIds = [] ∧ ∀ segment,
      call.template.applySegment segment = options.buildSubmitTemplate.applySegment segment
  | .looping => call.Underway options ∧ call.sequenceIds.length ≤ call.segmentCount
  | .sending lease | .permitted lease => call.Underway options ∧
      call.sequenceIds.length < call.segmentCount ∧ (call.base ≠ none → lease ≠ none)
  | .encoded lease packet key | .reserved lease packet key => call.Underway options ∧
      call.sequenceIds.length < call.segmentCount ∧ key.sequenceId = lease.sequenceId ∧
      call.Frames gbk options call.sequenceIds.length key.sequenceId packet
  | .failing _ _ | .cancelled => True
  | .returned result => call.Reports result

/-- A call between its arguments and its admissions. -/
structure Told (gbk : Gbk) (options : SubmitOptions) (content : String) (base : Option UInt32)
    (admissions : List Admission) (call : SubmitCall) : Prop where
  base_eq : call.base = base
  planned : (∃ error, call.stage = .returned (.error error)) ∧ admissions = [] ∨
    ∃ counter counter', prepareSubmitContent content counter = some (.ok call.plan, counter')
  segments : admissions.map Admission.segment = List.range call.sequenceIds.length
  sequenceIds : admissions.map Admission.sequenceId = call.sequenceIds
  frames : ∀ a ∈ admissions, call.Frames gbk options a.segment a.sequenceId a.packet
  batch : ∀ b, base = some b → call.sequenceIds = batchIds b call.sequenceIds.length
  reference : call.sequenceIds ≠ [] → 1 < call.segmentCount → call.udhReference.isSome = true
  exposed : call.udhExposed = true → call.sequenceIds ≠ []
  stands : call.Stands gbk options

theorem Told.admissions_nil (h : Told gbk options content base admissions call)
    (hids : call.sequenceIds = []) : admissions = [] :=
  List.map_eq_nil_iff.mp (h.sequenceIds.trans hids)

/-- A step that admits nothing. -/
theorem Told.move {call' : SubmitCall} (h : Told gbk options content base admissions call)
    (hended : call.ended = false) (hbase : call'.base = call.base) (hplan : call'.plan = call.plan)
    (hids : call'.sequenceIds = call.sequenceIds)
    (hreference : call'.udhReference = call.udhReference ∨ call.sequenceIds = [])
    (hexposed : call'.udhExposed = call.udhExposed) (hstands : call'.Stands gbk options) :
    Told gbk options content base admissions call' where
  base_eq := hbase.trans h.base_eq
  planned := by
    rcases h.planned with ⟨⟨error, hrefused⟩, _⟩ | hplanned
    · rw [ended, hrefused] at hended
      cases hended
    · rw [hplan]
      exact Or.inr hplanned
  segments := by
    rw [hids]
    exact h.segments
  sequenceIds := h.sequenceIds.trans hids.symm
  frames a ha := by
    rcases hreference with hreference | hnone
    · rw [Frames, hplan, hreference]
      exact h.frames a ha
    · rw [h.admissions_nil hnone] at ha
      cases ha
  batch b hb := by
    rw [hids]
    exact h.batch b hb
  reference hne hlong := by
    rw [hids] at hne
    rcases hreference with hreference | hnone
    · rw [segmentCount, hplan] at hlong
      rw [hreference]
      exact h.reference hne hlong
    · exact absurd hnone hne
  exposed he := by
    rw [hids]
    exact h.exposed (hexposed ▸ he)
  stands := hstands

theorem prefix_batchIds {b : UInt32} {count : ℕ} {ids rest : List ℕ}
    (h : ids ++ rest = batchIds b count) : ids = batchIds b ids.length := by
  have hlength : ids.length ≤ count := by
    have hlength := congrArg List.length h
    rw [List.length_append, batchIds, List.length_map, List.length_range] at hlength
    omega
  have htake := congrArg (List.take ids.length) h
  rwa [List.take_left', batchIds, ← List.map_take, List.take_range,
    Nat.min_eq_left hlength] at htake
  rfl

end SubmitCall

namespace Connection

variable {gbk : Gbk} {config : ConnectionConfig} {s s' : Connection} {index : ℕ} {call : SubmitCall}
  {options : SubmitOptions} {content : String} {base : Option UInt32}

open SubmitCall

/-- What a step of a call leaves of its own admissions and of those of the others. -/
structure Advanced (gbk : Gbk) (options : SubmitOptions) (content : String) (base : Option UInt32)
    (index : ℕ) (s s' : Connection) : Prop where
  told : ∃ call', s'.calls = s.calls.set index call' ∧
    Told gbk options content base (s'.log.admissionsOf index) call'
  admissions : s'.log.admissions = s.log.admissions ∨ ∃ a, a.call = index ∧
    s'.log.admissions = s.log.admissions ++ [a]

/-- An admission adds the next segment under the next id. -/
theorem told_admitted {lease : SequenceLease} {packet : List UInt8} {key : SubmitAttemptKey}
    (h : Told gbk options content base (s.log.admissionsOf index) call)
    (hstage : call.stage = .reserved lease packet key) (hunderway : call.Underway options)
    (hlt : call.sequenceIds.length < call.segmentCount) (hkey : key.sequenceId = lease.sequenceId)
    (hframes : call.Frames gbk options call.sequenceIds.length key.sequenceId packet)
    (retired : SequenceLease) :
    Told gbk options content base
    ((s.commitSubmit index call retired packet key).log.admissionsOf index)
      { call with
        udhExposed := call.udhReference.isSome
        sequenceIds := call.sequenceIds ++ [key.sequenceId]
        stage := .looping } := by
  have hadmissions : (s.commitSubmit index call retired packet key).log.admissionsOf index =
      s.log.admissionsOf index ++
        [⟨index, call.sequenceIds.length, key.sequenceId, key.submissionId, packet⟩] := by
    change (s.log.admissions ++ [_]).filter _ = _
    rw [List.filter_append, List.filter_cons_of_pos (by simp)]
    rfl
  have hmanual : ∀ b, call.base = some b →
      (call.sequenceIds ++ [key.sequenceId]) ++
        call.manualSequenceLeases.map SequenceLease.sequenceId = batchIds b call.segmentCount := by
    intro b hb
    have hbefore := hunderway.manual b hb
    rw [SubmitCall.leases, SubmitCall.lease, hstage] at hbefore
    rw [hkey, List.append_assoc]
    exact hbefore
  rw [hadmissions]
  refine ⟨h.base_eq, ?_, ?_, ?_, fun a ha => ?_, fun b hb => ?_, fun _ => hunderway.reference, ?_,
    ⟨⟨hunderway.reference, hunderway.template, hmanual, hunderway.automatic⟩, ?_⟩⟩
  · rcases h.planned with ⟨⟨error, hrefused⟩, _⟩ | hplanned
    · rw [hstage] at hrefused
      cases hrefused
    · exact Or.inr hplanned
  · rw [List.map_append, h.segments, List.length_append, List.length_singleton, List.range_succ]
    rfl
  · rw [List.map_append, h.sequenceIds]
    rfl
  · rcases List.mem_append.mp ha with ha | ha
    · exact h.frames a ha
    · rw [List.mem_singleton.mp ha]
      exact hframes
  · exact prefix_batchIds (hmanual b (h.base_eq.trans hb))
  · intro _ hnil
    exact List.cons_ne_nil _ _ (List.append_eq_nil_iff.mp hnil).2
  · rw [List.length_append, List.length_singleton]
    exact hlt

/-- A step of a call that admits nothing. -/
theorem Advanced.stay {call' : SubmitCall} (hcalls : s'.calls = s.calls.set index call')
    (hadmissions : s'.log.admissions = s.log.admissions)
    (htold : Told gbk options content base (s.log.admissionsOf index) call') :
    Advanced gbk options content base index s s' := by
  constructor
  · rw [ConnectionLog.admissionsOf, hadmissions]
    exact ⟨call', hcalls, htold⟩
  · exact Or.inl hadmissions

/-- A call enters its loop with the ids of its batch. -/
theorem told_granted (hledger : Ledger config s.holdings)
    (h : Told gbk options content base (s.log.admissionsOf index) call)
    (hstage : call.stage = .entered) {b : UInt32} {leases : List SequenceLease}
    {sequenceRegistry : SequenceState} (hbase : call.base = some b)
    (hgrant : s.sequenceRegistry.reserveBatch b call.segmentCount = (some leases, sequenceRegistry))
    {udhReference : Option UInt8}
    (hreference : 1 < call.segmentCount → udhReference.isSome = true) :
    Told gbk options content base (s.log.admissionsOf index)
      { call with udhReference, stage := .looping, manualSequenceLeases := leases } := by
  have hstands := h.stands
  rw [Stands, hstage] at hstands
  obtain ⟨_, _, hleases, _⟩ := hledger.holds.grant hgrant
  have hmanual : call.sequenceIds ++ leases.map SequenceLease.sequenceId =
      batchIds b call.segmentCount := by
    rw [hstands.1, hleases, List.map_map]
    exact List.map_id _
  refine h.move (by rw [ended, hstage]) rfl rfl rfl (Or.inr hstands.1) rfl
    ⟨⟨hreference, hstands.2, fun b' hb => ?_, fun hnone => ?_⟩, ?_⟩
  · rw [hbase] at hb
    cases hb
    exact hmanual
  · rw [hbase] at hnone
    cases hnone
  · rw [hstands.1]
    exact Nat.zero_le _

/-- The next segment is put into the template and encoded under the id of the lease. -/
theorem told_encoded (h : Told gbk options content base (s.log.admissionsOf index) call)
    {lease : Option SequenceLease} (hstage : call.stage = .permitted lease) {segment : SmsSegment}
    (hsegment : call.plan.segment gbk call.sequenceIds.length call.udhReference () =
      some (.ok segment, ()))
    {obtained : SequenceLease} {sequenceRegistry : SequenceState}
    (hobtain : obtainLease s.sequenceRegistry lease = (some obtained, sequenceRegistry))
    {packet : List UInt8}
    (hpacket : (call.template.applySegment segment).tryEncode (.ofNat obtained.sequenceId) () =
      some (.ok packet, ())) (submissionId : UInt64) :
    Told gbk options content base (s.log.admissionsOf index)
      { call with
        template := call.template.applySegment segment
        stage := .encoded obtained packet ⟨obtained.sequenceId, submissionId, 1⟩ } := by
  have hstands := h.stands
  rw [Stands, hstage] at hstands
  obtain ⟨hunderway, hlt, hlease⟩ := hstands
  refine h.move (by rw [ended, hstage]) rfl rfl rfl (Or.inl rfl) rfl
    ⟨⟨hunderway.reference, fun later => ?_, fun b hb => ?_, hunderway.automatic⟩, hlt, rfl,
      segment, hsegment, ?_⟩
  · rw [Submit.applySegment_applySegment]
    exact hunderway.template later
  · have hmanual := hunderway.manual b hb
    have hsome : call.base ≠ none := by
      rw [show call.base = some b from hb]
      exact Option.some_ne_none b
    rw [SubmitCall.leases, SubmitCall.lease, hstage] at hmanual
    cases lease with
    | none => exact absurd rfl (hlease hsome)
    | some lease =>
      cases hobtain
      exact hmanual
  · rw [← hunderway.template segment]
    exact hpacket

theorem callStep_advanced (hledger : Ledger config s.holdings) (hcall : s.calls[index]? = some call)
    (h : Told gbk options content base (s.log.admissionsOf index) call)
    (hstep : CallStep gbk s index call s') : Advanced gbk options content base index s s' := by
  have hold := hledger.calls call (List.mem_of_getElem? hcall)
  have hstands := h.stands
  cases hstep with
  | refused udhReference error hstage herror =>
    rw [Stands, hstage] at hstands
    refine Advanced.stay rfl rfl ?_
    refine h.move (by rw [ended, hstage]) rfl rfl rfl (Or.inr hstands.1) rfl ?_
    cases error with
    | partialSubmit ids source => exact absurd rfl (herror ids source)
    | _ => exact hstands.1
  | automatic udhReference hstage hbase hreference =>
    rw [Stands, hstage] at hstands
    refine Advanced.stay rfl rfl ?_
    refine h.move (by rw [ended, hstage]) rfl rfl rfl (Or.inr hstands.1) rfl
      ⟨⟨hreference, hstands.2, fun b hb => ?_, fun _ => hold.clear (Or.inl hstage)⟩, ?_⟩
    · rw [hbase] at hb
      cases hb
    · rw [hstands.1]
      exact Nat.zero_le _
  | granted udhReference b leases registry hstage hbase hgrant hreference =>
    exact .stay rfl rfl (told_granted hledger h hstage hbase hgrant hreference)
  | finished hstage hlength =>
    exact .stay rfl rfl
      (h.move (by rw [ended, hstage]) rfl rfl rfl (Or.inl rfl) rfl ⟨rfl, hlength⟩)
  | nextManual lease leases hstage hlength hbase hleases =>
    rw [Stands, hstage] at hstands
    obtain ⟨hunderway, hle⟩ := hstands
    have hkept : call.leases = lease :: leases := by
      rw [SubmitCall.leases, SubmitCall.lease, hstage, hleases]
      rfl
    exact .stay rfl rfl (h.move (by rw [ended, hstage]) rfl rfl rfl (Or.inl rfl) rfl
      ⟨hunderway.keep hkept.symm fun hnone => absurd hnone hbase,
        Nat.lt_of_le_of_ne hle hlength, fun _ => Option.some_ne_none _⟩)
  | nextAutomatic hstage hlength hbase =>
    rw [Stands, hstage] at hstands
    obtain ⟨hunderway, hle⟩ := hstands
    have hkept : call.leases = call.manualSequenceLeases := by
      rw [SubmitCall.leases, SubmitCall.lease, hstage]
      rfl
    exact .stay rfl rfl (h.move (by rw [ended, hstage]) rfl rfl rfl (Or.inl rfl) rfl
      ⟨hunderway.keep hkept.symm hunderway.automatic,
        Nat.lt_of_le_of_ne hle hlength, fun hne => absurd hbase hne⟩)
  | permitted lease hstage hpermits =>
    rw [Stands, hstage] at hstands
    obtain ⟨hunderway, hlt, hlease⟩ := hstands
    have hkept : call.leases = lease.toList ++ call.manualSequenceLeases := by
      rw [SubmitCall.leases, SubmitCall.lease, hstage]
    exact .stay rfl rfl (h.move (by rw [ended, hstage]) rfl rfl rfl (Or.inl rfl) rfl
      ⟨hunderway.keep hkept.symm hunderway.automatic, hlt, hlease⟩)
  | closed hstage =>
    rw [Stands, hstage] at hstands
    exact .stay rfl rfl (h.move (by rw [ended, hstage]) rfl rfl rfl (Or.inl rfl) rfl hstands.1)
  | cancelled hended => exact .stay rfl rfl (h.move hended rfl rfl rfl (Or.inl rfl) rfl trivial)
  | failed source hended => exact .stay rfl rfl (h.move hended rfl rfl rfl (Or.inl rfl) rfl rfl)
  | exhausted template registry hstage hnext =>
    exact .stay rfl rfl (h.move (by rw [ended, hstage]) rfl rfl rfl (Or.inl rfl) rfl trivial)
  | unencodable template lease obtained registry error hstage hobtain =>
    exact .stay rfl rfl (h.move (by rw [ended, hstage]) rfl rfl rfl (Or.inl rfl) rfl rfl)
  | encoded segment lease obtained registry packet hstage hsegment hobtain hpacket =>
    exact .stay rfl rfl (told_encoded h hstage hsegment hobtain hpacket s.nextSubmissionId)
  | reserved lease packet key hstage =>
    rw [Stands, hstage] at hstands
    obtain ⟨hunderway, hlt, hkey, hframes⟩ := hstands
    have hkept : call.leases = lease :: call.manualSequenceLeases := by
      rw [SubmitCall.leases, SubmitCall.lease, hstage]
      rfl
    exact .stay rfl rfl (h.move (by rw [ended, hstage]) rfl rfl rfl (Or.inl rfl) rfl
      ⟨hunderway.keep hkept.symm hunderway.automatic, hlt, hkey, hframes⟩)
  | retireFailed lease packet key retired registry hstage hopen hretire =>
    exact .stay rfl rfl (h.move (by rw [ended, hstage]) rfl rfl rfl (Or.inl rfl) rfl trivial)
  | admitted lease packet key retired registry hstage hopen hretire =>
    rw [Stands, hstage] at hstands
    obtain ⟨hunderway, hlt, hkey, hframes⟩ := hstands
    exact ⟨⟨_, rfl, told_admitted h hstage hunderway hlt hkey hframes retired⟩,
      Or.inr ⟨_, rfl, rfl⟩⟩
  | failing lease error hstage =>
    rw [finish_eq]
    exact .stay rfl rfl (h.move (by rw [ended, hstage]) rfl rfl rfl (Or.inl rfl) rfl rfl)

/-- Every call is told against its arguments. -/
structure Reported (gbk : Gbk) (events : List ConnectionEvent) (s : Connection) : Prop where
  length_eq : (submissions events).length = s.calls.length
  told : ∀ index options content base call,
    (submissions events)[index]? = some (options, content, base) → s.calls[index]? = some call →
      Told gbk options content base (s.log.admissionsOf index) call
  callers : ∀ a ∈ s.log.admissions, a.call < s.calls.length

theorem submissions_snoc (events : List ConnectionEvent) (event : ConnectionEvent) :
    submissions (events ++ [event]) = submissions events ++ submissions [event] :=
  List.filterMap_append

/-- A step that leaves the calls and the admissions alone. -/
theorem Reported.keep {events : List ConnectionEvent} (h : Reported gbk events s)
    {event : ConnectionEvent} (hnone : submissions [event] = []) (hcalls : s'.calls = s.calls)
    (hadmissions : s'.log.admissions = s.log.admissions) :
    Reported gbk (events ++ [event]) s' := by
  have hsubmissions : submissions (events ++ [event]) = submissions events := by
    rw [submissions_snoc, hnone, List.append_nil]
  refine ⟨?_, fun index options content base call harguments hcall => ?_, ?_⟩
  · rw [hsubmissions, hcalls]
    exact h.length_eq
  · rw [hsubmissions] at harguments
    rw [hcalls] at hcall
    have htold := h.told index options content base call harguments hcall
    rw [ConnectionLog.admissionsOf] at htold ⊢
    rw [hadmissions]
    exact htold
  · rw [hcalls, hadmissions]
    exact h.callers

theorem admissionsOf_of_length_le {log : ConnectionLog} {n : ℕ}
    (h : ∀ a ∈ log.admissions, a.call < n) (hindex : n ≤ index) : log.admissionsOf index = [] := by
  apply List.filter_eq_nil_iff.mpr
  intro a ha hcall
  have hlt := h a ha
  rw [decide_eq_true_eq] at hcall
  omega

variable (gbk) in
/-- A call that has just been made, refused at once or entered. -/
theorem submit_told {s' : Connection} (h : s.submit options content base = some s') :
    s'.log = s.log ∧ ∃ call, s'.calls = s.calls ++ [call] ∧
      Told gbk options content base [] call := by
  have hrefused (plan : SubmitContentPlan) (error : Error)
      (herror : ∀ ids source, error ≠ .partialSubmit ids source) :
      Told gbk options content base [] ⟨base, plan, options.buildSubmitTemplate, none,
        false, [], [], .returned (.error error)⟩ := by
    refine ⟨rfl, Or.inl ⟨⟨error, rfl⟩, rfl⟩, rfl, rfl, by rintro _ ⟨⟩, fun _ _ => rfl,
      fun hne => absurd rfl hne, by rintro ⟨⟩, ?_⟩
    cases error with
    | partialSubmit ids source => exact absurd rfl (herror ids source)
    | _ => exact rfl
  rw [submit] at h
  split_ifs at h
  · cases h
    exact ⟨rfl, _, rfl, hrefused _ _ (by rintro _ _ ⟨⟩)⟩
  · cases h
    exact ⟨rfl, _, rfl, hrefused _ _ (by rintro _ _ ⟨⟩)⟩
  split at h
  · next plan counter hplan =>
    cases h
    exact ⟨rfl, _, rfl, rfl, Or.inr ⟨_, _, hplan⟩, rfl, rfl, by rintro _ ⟨⟩, fun _ _ => rfl,
      fun hne => absurd rfl hne, by rintro ⟨⟩, rfl, fun _ => rfl⟩
  · next error counter hplan =>
    cases h
    obtain ⟨message, rfl⟩ := prepareSubmitContent_refused hplan
    exact ⟨rfl, _, rfl, hrefused _ _ (by rintro _ _ ⟨⟩)⟩
  · cases h

theorem reported_submit {events : List ConnectionEvent} (h : Reported gbk events s)
    (hnext : s.submit options content base = some s') :
    Reported gbk (events ++ [.submit options content base]) s' := by
  obtain ⟨hlog, call, hcalls, htold⟩ := submit_told gbk hnext
  have hsubmissions : submissions (events ++ [.submit options content base]) =
      submissions events ++ [(options, content, base)] := submissions_snoc _ _
  refine ⟨?_, fun index options' content' base' call' harguments hcall => ?_, fun a ha => ?_⟩
  · rw [hsubmissions, hcalls, List.length_append, List.length_append, h.length_eq]
    rfl
  · rw [hsubmissions] at harguments
    rw [hcalls] at hcall
    rw [hlog]
    rcases Nat.lt_or_ge index s.calls.length with hlt | hge
    · rw [List.getElem?_append_left hlt] at hcall
      rw [List.getElem?_append_left (h.length_eq ▸ hlt)] at harguments
      exact h.told index _ _ _ _ harguments hcall
    · obtain rfl : index = s.calls.length := by
        have hlength := (List.getElem?_eq_some_iff.mp hcall).1
        rw [List.length_append, List.length_singleton] at hlength
        omega
      rw [List.getElem?_concat_length] at hcall
      rw [← h.length_eq, List.getElem?_concat_length] at harguments
      cases hcall
      cases harguments
      rw [admissionsOf_of_length_le h.callers le_rfl]
      exact htold
  · rw [hlog] at ha
    rw [hcalls, List.length_append]
    exact (h.callers a ha).trans_le (Nat.le_add_right _ _)

theorem reported_call {events : List ConnectionEvent} (hledger : Ledger config s.holdings)
    (h : Reported gbk events s) (hcall : s.calls[index]? = some call)
    (hstep : CallStep gbk s index call s') {event : CallEvent} :
    Reported gbk (events ++ [.call index event]) s' := by
  have hlt := (List.getElem?_eq_some_iff.mp hcall).1
  have hsubmissions : submissions (events ++ [.call index event]) = submissions events := by
    rw [submissions_snoc]
    exact List.append_nil _
  obtain ⟨⟨options, content, base⟩, harguments⟩ :
      ∃ arguments, (submissions events)[index]? = some arguments :=
    ⟨_, List.getElem?_eq_getElem (h.length_eq ▸ hlt)⟩
  have hadvanced := callStep_advanced hledger hcall (h.told index _ _ _ _ harguments hcall) hstep
  obtain ⟨call', hcalls, htold⟩ := hadvanced.told
  refine ⟨?_, fun j options' content' base' c harguments' hc => ?_, fun a ha => ?_⟩
  · rw [hsubmissions, hcalls, List.length_set]
    exact h.length_eq
  · rw [hsubmissions] at harguments'
    rw [hcalls] at hc
    by_cases hj : index = j
    · subst hj
      rw [List.getElem?_set_self hlt] at hc
      cases hc
      rw [harguments] at harguments'
      cases harguments'
      exact htold
    · rw [List.getElem?_set_ne hj] at hc
      have hothers : s'.log.admissionsOf j = s.log.admissionsOf j := by
        rcases hadvanced.admissions with hsame | ⟨a, ha, happend⟩
        · rw [ConnectionLog.admissionsOf, hsame]
          rfl
        · rw [ConnectionLog.admissionsOf, happend, List.filter_append,
            List.filter_cons_of_neg (by simpa [ha] using hj), List.filter_nil, List.append_nil]
          rfl
      rw [hothers]
      exact h.told j _ _ _ _ harguments' hc
  · rw [hcalls, List.length_set]
    rcases hadvanced.admissions with hsame | ⟨b, hb, happend⟩
    · exact h.callers a (hsame ▸ ha)
    · rw [happend] at ha
      rcases List.mem_append.mp ha with ha | ha
      · exact h.callers a ha
      · rw [List.mem_singleton.mp ha, hb]
        exact hlt

theorem reported_initial (gbk : Gbk) (config : ConnectionConfig) (clock : ℕ) (udhCounter : UInt32) :
    Reported gbk [] (initial config clock udhCounter) where
  length_eq := rfl
  told index _ _ _ _ harguments _ := by
    rw [show submissions [] = [] from rfl, List.getElem?_nil] at harguments
    cases harguments
  callers _ ha := absurd ha List.not_mem_nil

theorem reported_run {clock : ℕ} {udhCounter : UInt32} {events : List ConnectionEvent}
    (hrun : (machine gbk config clock udhCounter).Run events s) : Reported gbk events s := by
  refine (hrun.invariant (I := fun events s => s.Sound config ∧ Reported gbk events s) ?_ ?_).2
  · rintro s rfl
    exact ⟨sound_initial config clock udhCounter, reported_initial gbk config clock udhCounter⟩
  · rintro events s event s' ⟨hsound, h⟩ hnext
    refine ⟨hsound.next hnext, ?_⟩
    cases event with
    | submit options content base => exact reported_submit h hnext
    | call index event =>
      simp only [machine, Machine.ofNext, next] at hnext
      split at hnext
      · next call hcall => exact reported_call hsound.ledger h hcall (callNext_step hnext)
      · cases hnext
    | _ =>
      have howned := next_owned hnext
      exact h.keep rfl (congrArg Owned.calls howned) (congrArg Owned.admissions howned)

end Connection

end CmppProtocol
