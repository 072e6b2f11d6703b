import CmppProtocol.Connection.Reported

/-! # What a call that ends gives back

The segments that were not admitted leave nothing behind: no entry, no frame, no
permit and no reservation, and a UDH lease that no admission has exposed goes
back without a cooldown.
-/

namespace CmppProtocol

open SequenceState SequenceLease

/-- A release that was never exposed only clears the mark of the reference. -/
theorem UdhReferenceLease.visit_unexposed {lease : UdhReferenceLease} (h : lease.exposed = false)
    (horizon now : ℕ) (bucket : UdhReferenceBucket) :
    (lease.release horizon now).visit lease.reference bucket =
      { bucket with active := clearUdhReference bucket.active lease.reference } := by
  simp only [UdhRelease.visit, UdhReferenceLease.release, h, Bool.false_eq_true, if_false]

/-- The lease of the pool that a long message works with. -/
def SubmitCall.udhReferenceLease (call : SubmitCall) (bucketIds : List BucketId) (cooldown : ℕ) :
    Option UdhReferenceLease :=
  call.udhReference.map fun reference => ⟨bucketIds, reference, cooldown, call.udhExposed⟩

namespace Window

variable {config : ConnectionConfig} {w w' : Window}

/-- Only an admission brings an entry into the map. -/
theorem Step.shrinks (hstep : Step config w w') :
    Shrinks w.pending w'.pending ∨ w'.log.admissions ≠ w.log.admissions := by
  cases hstep with
  | admitSubmit admission entry hopen hnew hnone hsub hpacket hstate =>
    exact Or.inr fun h => List.cons_ne_nil _ _ (List.append_right_eq_self.mp h)
  | claim batch rest hline hstatus hheld => exact Or.inl (claimSubmitAttempts_restates batch).2
  | complete batch writtenAt hheld hstatus => exact Or.inl (completeSubmitAttempts_shrinks _ _ _)
  | matchResps responses hemitting => exact Or.inl (matchSubmitResps_shrinks responses)
  | giveUp key keys entry hexpired hattempt hstill => exact Or.inl (shrinks_erase _ _)
  | retry key keys entry hopen hexpired hattempt hstill =>
    exact Or.inl (restates_setState (stillAwaiting_some hstill).1 _).2
  | drain index order hindex horder =>
    exact Or.inl fun q hq => absurd hq OrderedMap.not_mem_empty
  | _ => exact Or.inl (.refl _)

end Window

namespace Connection

variable {gbk : Gbk} {config : ConnectionConfig} {s s' : Connection} {index : ℕ}
  {call call' : SubmitCall}

/-! ## Shares in a UDH lease -/

/-- The entries that share in the UDH lease of a call were admitted by it. -/
def Shared (s : Connection) : Prop :=
  ∀ p ∈ s.pendingSubmits, ∀ i, p.2.udhReferenceLease = some i → ∃ a ∈ s.log.admissions, a.call = i

theorem Shared.shrink (h : s.Shared) (hshrinks : Shrinks s.pendingSubmits s'.pendingSubmits)
    (hadmissions : s'.log.admissions = s.log.admissions) : s'.Shared := by
  intro q hq i hi
  obtain ⟨p, hp, _, _, hshare⟩ := hshrinks q hq
  rw [hadmissions]
  exact h p hp i (hshare.trans hi)

theorem callStep_shared (h : s.Shared) (hstep : CallStep gbk s index call s') : s'.Shared := by
  cases hstep with
  | admitted lease packet key retired registry hstage hopen hretire =>
    intro p hp i hi
    rcases OrderedMap.mem_insert.mp hp with rfl | ⟨hp, _⟩
    · obtain ⟨_, _, rfl⟩ := Option.map_eq_some_iff.mp hi
      exact ⟨_, List.mem_append_right _ (List.mem_singleton_self _), rfl⟩
    · obtain ⟨a, ha, hi⟩ := h p hp i hi
      exact ⟨a, List.mem_append_left _ ha, hi⟩
  | failing lease error hstage =>
    rw [finish_eq]
    exact h
  | _ => exact h

theorem next_shared (hsound : s.Sound config) (h : s.Shared) {event : ConnectionEvent}
    (hnext : next gbk config s event = some s') : s'.Shared := by
  by_cases hcall : ∀ index e, event ≠ .call index e
  · have hadmissions := next_admissions hnext hcall
    refine h.shrink ?_ hadmissions
    rcases (follows_next hsound.wired hsound.ledger hnext).window with hsame | hstep
    · have hpending : s'.pendingSubmits = s.pendingSubmits := congrArg Window.pending hsame
      rw [hpending]
      exact .refl _
    · exact hstep.shrinks.resolve_right fun hne => hne hadmissions
  · push Not at hcall
    obtain ⟨index, e, rfl⟩ := hcall
    simp only [next] at hnext
    split at hnext
    · exact callStep_shared h (callNext_step hnext)
    · cases hnext

theorem shared_run {clock : ℕ} {udhCounter : UInt32} {events : List ConnectionEvent}
    (hrun : (machine gbk config clock udhCounter).Run events s) : s.Shared := by
  refine (hrun.invariant (I := fun _ s => s.Sound config ∧ s.Shared) ?_ ?_).2
  · rintro s rfl
    exact ⟨sound_initial config clock udhCounter, fun p hp => absurd hp OrderedMap.not_mem_empty⟩
  · rintro _ s event s' ⟨hsound, h⟩ hnext
    exact ⟨hsound.next hnext, next_shared hsound h hnext⟩

/-! ## The end of a call -/

/-- The leases that a call gives back: those that it holds, and the automatic one when the step in
which it ends has taken one. They are dropped in the registry that this step goes on with. -/
def Obtained (s s' : Connection) (call : SubmitCall) (leases : List SequenceLease) : Prop :=
  leases = call.leases ∧ s'.sequenceRegistry = dropLeases s.sequenceRegistry leases ∨
  ∃ id sequenceRegistry, call.stage = .permitted none ∧
    s.sequenceRegistry.reserveNext = (some id, sequenceRegistry) ∧
    leases = ⟨id, false, true⟩ :: call.leases ∧
    s'.sequenceRegistry = dropLeases sequenceRegistry leases

/-- A segment that was not admitted leaves nothing behind. -/
structure LeavesNothing (s s' : Connection) (index : ℕ) (call call' : SubmitCall)
    (leases : List SequenceLease) : Prop where
  pending : s'.pendingSubmits = s.pendingSubmits
  queue : s'.submitQueue = s.submitQueue
  permits : s'.windowPermits = s.windowPermits + if call.holdsPermit then 1 else 0
  entry : ∀ l ∈ leases, s'.pendingSubmits.find l.sequenceId = none
  frames : ∀ l ∈ leases, ∀ p ∈ s'.log.enqueued, p.1.sequenceId ≠ l.sequenceId
  reserved : ∀ l ∈ leases, l.sequenceId ∈ s'.sequenceRegistry.reserved ↔
    l.sequenceId ∈ s'.log.retireFailed
  retireFailed : ∀ l ∈ leases, l.sequenceId ∈ s'.log.retireFailed → s'.phase = .closed
  manual : ∀ l ∈ leases, l.manual = true → l.sequenceId ∉ s'.log.retireFailed →
    ((s'.sequenceRegistry.reserveBatch (.ofNat l.sequenceId) 1).1.isSome = true ↔
      s'.sequenceRegistry.inAutomaticPrefix l.sequenceId = false)
  automatic : ∀ l ∈ leases, l.manual = false → l.sequenceId ∈ s'.sequenceRegistry.blocked
  reference : s'.log.admissionsOf index = [] →
    (∀ p ∈ s'.pendingSubmits, p.2.udhReferenceLease ≠ some index) ∧
    ∀ bucketIds cooldown lease, call'.udhReferenceLease bucketIds cooldown = some lease →
      ∀ horizon now bucket, (lease.release horizon now).visit lease.reference bucket =
        { bucket with active := clearUdhReference bucket.active lease.reference }

/-- How a call ends: the registry drops its leases, and its permit is free again. -/
structure Ends (s s' : Connection) (call : SubmitCall) (leases : List SequenceLease) : Prop where
  registry : ∃ sequenceRegistry, Advances s.sequenceRegistry sequenceRegistry ∧
    Keeps s.sequenceRegistry sequenceRegistry ∧ sequenceRegistry.WellFormed ∧
    s'.sequenceRegistry = dropLeases sequenceRegistry leases ∧
    ∀ l ∈ leases, l ∈ call.leases ∨ l.manual = false ∧ l.releaseOnDrop = true ∧
      l.sequenceId ∉ s.sequenceRegistry.blocked ∧ l.sequenceId ∈ sequenceRegistry.blocked
  pending : s'.pendingSubmits = s.pendingSubmits
  queue : s'.submitQueue = s.submitQueue
  permits : s'.windowPermits = s.windowPermits + if call.holdsPermit then 1 else 0
  admissions : s'.log.admissions = s.log.admissions
  enqueued : s'.log.enqueued = s.log.enqueued
  retireFailed : s'.log.retireFailed = s.log.retireFailed

theorem ends_endCall (hledger : Ledger config s.holdings) {stage : CallStage} :
    Ends s (s.endCall index call stage) call call.leases where
  registry := ⟨_, .refl _, .refl _, hledger.holds.wellFormed, rfl, fun _ hl => Or.inl hl⟩
  pending := rfl
  queue := rfl
  permits := rfl
  admissions := rfl
  enqueued := rfl
  retireFailed := rfl

theorem obtainLease_none {registry registry' : SequenceState} {obtained : SequenceLease}
    (h : obtainLease registry none = (some obtained, registry')) :
    ∃ id, registry.reserveNext = (some id, registry') ∧ obtained = ⟨id, false, true⟩ := by
  simp only [obtainLease] at h
  split at h
  · next id registry' hnext =>
    cases h
    exact ⟨id, hnext, rfl⟩
  · cases h

theorem callStep_ends (hledger : Ledger config s.holdings) (hcall : s.calls[index]? = some call)
    (hstep : CallStep gbk s index call s') (hcall' : s'.calls[index]? = some call')
    (hended : call'.ended = true) :
    ∃ leases, Obtained s s' call leases ∧ Ends s s' call leases := by
  have hlt := (List.getElem?_eq_some_iff.mp hcall).1
  have hset {c : SubmitCall} (h : (s.calls.set index c)[index]? = some call') : c = call' := by
    rw [List.getElem?_set_self hlt] at h
    exact Option.some.inj h
  cases hstep with
  | refused udhReference error hstage herror =>
    have hmanual := (hledger.calls call (List.mem_of_getElem? hcall)).clear (Or.inl hstage)
    have hleases : call.leases = [] := by
      rw [SubmitCall.leases, SubmitCall.lease, hstage, hmanual]
      rfl
    have hpermit : call.holdsPermit = false := by rw [SubmitCall.holdsPermit, hstage]
    refine ⟨[], Or.inl ⟨hleases.symm, rfl⟩, ?_, rfl, rfl, ?_, rfl, rfl, rfl⟩
    · exact ⟨_, .refl _, .refl _, hledger.holds.wellFormed, rfl, by rintro _ ⟨⟩⟩
    · rw [hpermit]
      rfl
  | finished hstage hlength => exact ⟨_, Or.inl ⟨rfl, rfl⟩, ends_endCall hledger⟩
  | closed hstage => exact ⟨_, Or.inl ⟨rfl, rfl⟩, ends_endCall hledger⟩
  | cancelled hlive => exact ⟨_, Or.inl ⟨rfl, rfl⟩, ends_endCall hledger⟩
  | failed source hlive => exact ⟨_, Or.inl ⟨rfl, rfl⟩, ends_endCall hledger⟩
  | unencodable template lease obtained registry error hstage hobtain =>
    have hleases : call.leases = lease.toList ++ call.manualSequenceLeases := by
      rw [SubmitCall.leases, SubmitCall.lease, hstage]
    have hpermit : call.holdsPermit = true := by rw [SubmitCall.holdsPermit, hstage]
    refine ⟨obtained :: call.manualSequenceLeases, ?_, ?_⟩
    · cases lease with
      | some lease =>
        cases hobtain
        exact Or.inl ⟨hleases.symm, rfl⟩
      | none =>
        obtain ⟨id, hnext, rfl⟩ := obtainLease_none hobtain
        exact Or.inr ⟨id, registry, hstage, hnext, by rw [hleases]; rfl, rfl⟩
    · have hadvances := obtainLease_advances hledger.holds hobtain
      refine ⟨⟨registry, hadvances, ?_⟩, rfl, rfl, ?_, rfl, rfl, rfl⟩
      · cases lease with
        | some lease =>
          cases hobtain
          exact ⟨.refl _, hledger.holds.wellFormed, rfl, fun l hl => Or.inl (hleases ▸ hl)⟩
        | none =>
          obtain ⟨id, hnext, rfl⟩ := obtainLease_none hobtain
          obtain ⟨hholds, hkeeps, hnew, hblocked⟩ := hledger.holds.issue hnext
          refine ⟨hkeeps, hholds.wellFormed, rfl, fun l hl => ?_⟩
          rcases List.mem_cons.mp hl with rfl | hl
          · exact Or.inr ⟨rfl, rfl, hnew, hblocked⟩
          · exact Or.inl (hleases ▸ hl)
      · rw [hpermit]
        rfl
  | failing lease error hstage =>
    rw [finish_eq]
    refine ⟨_, Or.inl ⟨rfl, rfl⟩, ?_, rfl, rfl, rfl, rfl, rfl, rfl⟩
    exact ⟨_, .refl _, .refl _, hledger.holds.wellFormed, rfl, fun _ hl => Or.inl hl⟩
  | _ =>
    obtain rfl := hset hcall'
    cases hended

theorem callNext_failing {event : CallEvent} {lease : Option SequenceLease} {error : Error}
    (hstage : call.stage = .failing lease error) (h : s.callNext gbk index call event = some s') :
    s'.phase = .closed := by
  cases event with
  | fail =>
    simp only [callNext, hstage] at h
    cases h
    rw [finish_eq]
    rfl
  | notOpen =>
    simp only [callNext, hstage] at h
    split_ifs at h
  | _ =>
    simp only [callNext, hstage] at h
    cases h

/-- An id that is neither blocked in the table nor reserved can be reserved unless the cursor has
passed it. -/
theorem reserveBatch_one {registry : SequenceState} (h : registry.WellFormed) {id : ℕ}
    (hle : id ≤ u32Max) (hreserved : id ∉ registry.reserved)
    (hblocked : id ∈ registry.blocked → id ∈ registry.automaticPrefix) :
    (registry.reserveBatch (.ofNat id) 1).1.isSome = true ↔
      registry.inAutomaticPrefix id = false := by
  have hids : batchIds (.ofNat id) 1 = [id] := by
    have hlt : id < 2 ^ 32 := Nat.lt_succ_of_le hle
    simp [batchIds, wrappingAdd, UInt32.toNat_ofNat_of_lt' hlt,
      Nat.mod_eq_of_lt (Nat.lt_succ_of_le hle)]
  have hfree : retiredSequenceContains registry.retired id = false := by
    rw [Bool.eq_false_iff, ne_eq, retiredSequenceContains_iff h.canonical]
    intro hcovered
    have hpast : registry.inAutomaticPrefix id = true := hblocked (Or.inr hcovered)
    rw [h.retired_disjoint id hcovered] at hpast
    cases hpast
  simp only [reserveBatch, hids]
  cases hpast : registry.inAutomaticPrefix id <;> simp [hpast, hreserved, hfree]

/-- Nothing happens under an id that was never admitted. -/
theorem Sound.unused (h : s.Sound config) {x : ℕ} (hx : x ∉ s.admittedIds) :
    (s.window.life x).Unused := by
  rcases h.lives x with hunused | ⟨a, n, hid, hadmitted⟩
  · exact hunused
  · have hmem : a ∈ (s.window.life x).admissions := by
      rw [hadmitted.admissions]
      exact List.mem_singleton_self a
    exact absurd (List.mem_map.mpr ⟨a, (List.mem_filter.mp hmem).1, hid⟩) hx

theorem ends_leavesNothing {leases : List SequenceLease} {event : CallEvent}
    (hsound : s.Sound config)
    (hsound' : s'.Sound config) (hconsumed : s'.Consumed) (hshared : s'.Shared)
    (hcall : s.calls[index]? = some call) (hnext : s.callNext gbk index call event = some s')
    (hends : Ends s s' call leases)
    (hexposed : s'.log.admissionsOf index = [] → call'.udhExposed = false) :
    LeavesNothing s s' index call call' leases := by
  have hmem := List.mem_of_getElem? hcall
  have hold := hsound.ledger.calls call hmem
  obtain ⟨registry, _, hkeeps, hwf, hregistry, hsource⟩ := hends.registry
  obtain ⟨reserved, hdropped⟩ := registry_dropLeases registry leases
  have hblocked : s'.sequenceRegistry.blocked = registry.blocked := by
    rw [hregistry, hdropped]
    rfl
  have hfresh : ∀ l ∈ leases, l.sequenceId ∉ s'.admittedIds := by
    intro l hl
    rw [admittedIds, hends.admissions]
    rcases hsource l hl with hl | ⟨_, _, hnew, _⟩
    · exact hold.fresh l hl
    · exact fun hm => hnew (hsound.ledger.blocked _ hm)
  -- A lease that does not give up its id belongs to a retire that has failed.
  have hkept : ∀ l ∈ leases, l.sequenceId ∈ s'.sequenceRegistry.reserved →
      l.sequenceId ∈ s'.log.retireFailed ∧ ∃ error, call.stage = .failing (some l) error := by
    intro l hl hm
    rw [hregistry] at hm
    have hheld := (mem_reserved_dropLeases.mp hm).2 l hl
    rcases hsource l hl with hl | ⟨_, hr, _⟩
    · rcases hold.releasable l hl with hr | hfailed
      · exact absurd rfl (hheld hr)
      · rw [hends.retireFailed]
        exact hfailed
    · exact absurd rfl (hheld hr)
  have hfailed : ∀ x ∈ s'.log.retireFailed, x ∈ s'.sequenceRegistry.reserved := fun x hx =>
    hsound'.ledger.holds.mem_iff.mpr (Multiset.mem_add.mpr (Or.inr (Multiset.mem_coe.mpr hx)))
  refine ⟨hends.pending, hends.queue, hends.permits, fun l hl => ?_, fun l hl p hp hx => ?_,
    fun l hl => ⟨fun hm => (hkept l hl hm).1, hfailed _⟩, fun l hl hm => ?_,
    fun l hl hmanual hnot => ?_, fun l hl hmanual => ?_, fun hnone => ⟨fun p hp hi => ?_, ?_⟩⟩
  · exact (hsound'.unused (hfresh l hl)).entry
  · have hqueued : p ∈ (s'.window.life l.sequenceId).enqueued :=
      List.mem_filter.mpr ⟨hp, decide_eq_true hx⟩
    rw [(hsound'.unused (hfresh l hl)).enqueued] at hqueued
    cases hqueued
  · obtain ⟨_, error, hstage⟩ := hkept l hl (hfailed _ hm)
    exact callNext_failing hstage hnext
  · have hr : l.releaseOnDrop = true ∧ l ∈ call.leases := by
      rcases hsource l hl with hl | ⟨hauto, _⟩
      · rcases hold.releasable l hl with hr | ⟨hm, _⟩
        · exact ⟨hr, hl⟩
        · rw [hends.retireFailed] at hnot
          exact absurd hm hnot
      · rw [hmanual] at hauto
        cases hauto
    refine reserveBatch_one hsound'.ledger.holds.wellFormed
      (lease_le_u32Max hsound.ledger hmem hr.2 hr.1) (fun hm => hnot (hkept l hl hm).1) fun hb => ?_
    exact (hconsumed _ hb).resolve_left (hfresh l hl)
  · rw [hblocked]
    rcases hsource l hl with hl | ⟨_, _, _, hnew⟩
    · exact hkeeps.blocked (hold.automatic l hl hmanual)
    · exact hnew
  · obtain ⟨a, ha, hcaller⟩ := hshared p hp index hi
    have hown : a ∈ s'.log.admissionsOf index := List.mem_filter.mpr ⟨ha, decide_eq_true hcaller⟩
    rw [hnone] at hown
    cases hown
  · intro bucketIds cooldown lease hlease horizon now bucket
    obtain ⟨reference, _, rfl⟩ := Option.map_eq_some_iff.mp hlease
    exact UdhReferenceLease.visit_unexposed (hexposed hnone) horizon now bucket

/-! ## What a call tells its caller -/

/-- What the caller of `submit` may rely on. -/
structure Faithful (gbk : Gbk) (s : Connection) (index : ℕ) (options : SubmitOptions)
    (content : String) (base : Option UInt32) (call : SubmitCall) : Prop where
  planned : (∃ error, call.stage = .returned (.error error)) ∧ s.log.admissionsOf index = [] ∨
    ∃ counter counter', prepareSubmitContent content counter = some (.ok call.plan, counter')
  segments : (s.log.admissionsOf index).map Admission.segment = List.range call.sequenceIds.length
  sequenceIds : (s.log.admissionsOf index).map Admission.sequenceId = call.sequenceIds
  frames : ∀ a ∈ s.log.admissionsOf index, call.Frames gbk options a.segment a.sequenceId a.packet
  header : 1 < call.segmentCount → ∀ a ∈ s.log.admissionsOf index, ∃ reference segment payload,
    call.udhReference = some reference ∧
    call.plan.segment gbk a.segment (some reference) () = some (.ok segment, ()) ∧
    segment.content = [0x05, 0x00, 0x03, reference, .ofNat call.segmentCount,
      .ofNat (a.segment + 1)] ++ payload
  manual : ∀ b, base = some b → call.sequenceIds = batchIds b call.sequenceIds.length
  ok : ∀ ids, call.stage = .returned (.ok ids) →
    ids = call.sequenceIds ∧ ids.length = call.segmentCount
  partialSubmit : ∀ ids source, call.stage = .returned (.error (.partialSubmit ids source)) →
    ids.map UInt32.toNat = call.sequenceIds
  error : ∀ error, call.stage = .returned (.error error) →
    (∀ ids source, error ≠ .partialSubmit ids source) → s.log.admissionsOf index = []

theorem faithful_of_told {options : SubmitOptions} {content : String} {base : Option UInt32}
    (hledger : Ledger config s.holdings)
    (h : SubmitCall.Told gbk options content base (s.log.admissionsOf index) call) :
    Faithful gbk s index options content base call where
  planned := h.planned
  segments := h.segments
  sequenceIds := h.sequenceIds
  frames := h.frames
  header hlong a ha := by
    have hne : call.sequenceIds ≠ [] := by
      intro hnil
      rw [h.admissions_nil hnil] at ha
      cases ha
    obtain ⟨reference, hreference⟩ := Option.isSome_iff_exists.mp (h.reference hne hlong)
    obtain ⟨segment, hsegment, _⟩ := h.frames a ha
    rw [hreference] at hsegment
    obtain ⟨payload, hcontent⟩ := SubmitContentPlan.segment_header hlong hsegment
    exact ⟨reference, segment, payload, hreference, hsegment, hcontent⟩
  manual := h.batch
  ok ids hstage := by
    have hstands := h.stands
    rw [SubmitCall.Stands, hstage] at hstands
    exact hstands
  partialSubmit ids source hstage := by
    have hstands := h.stands
    rw [SubmitCall.Stands, hstage] at hstands
    have hids : ids = call.sequenceIds.map .ofNat := hstands
    rw [hids, List.map_map]
    refine (List.map_congr_left fun x hx => ?_).trans (List.map_id _)
    rw [← h.sequenceIds] at hx
    obtain ⟨a, ha, rfl⟩ := List.mem_map.mp hx
    have hadmitted : a.sequenceId ∈ s.holdings.admitted :=
      List.mem_map_of_mem (List.mem_filter.mp ha).1
    have hle := hledger.holds.wellFormed.blocked_le (hledger.blocked _ hadmitted)
    exact UInt32.toNat_ofNat_of_lt' (Nat.lt_succ_of_le hle)
  error error hstage hnot := by
    have hstands := h.stands
    rw [SubmitCall.Stands, hstage] at hstands
    cases error with
    | partialSubmit ids source => exact absurd rfl (hnot ids source)
    | _ => exact h.admissions_nil hstands

/-- A call reports exactly the segments that it got admitted; and a call that ends without a
segment leaves nothing of it behind. -/
theorem submit_reports_admissions {clock : ℕ} {udhCounter : UInt32} {events : List ConnectionEvent}
    (hrun : (machine gbk config clock udhCounter).Run events s) :
    (∀ index options content base call,
      (submissions events)[index]? = some (options, content, base) → s.calls[index]? = some call →
        Faithful gbk s index options content base call) ∧
    (∀ index event s' call call', next gbk config s (.call index event) = some s' →
      s.calls[index]? = some call → s'.calls[index]? = some call' → call'.ended = true →
        ∃ leases, Obtained s s' call leases ∧ LeavesNothing s s' index call call' leases) := by
  have hsound := sound_run hrun
  refine ⟨fun index options content base call harguments hcall =>
    faithful_of_told hsound.ledger ((reported_run hrun).told index _ _ _ _ harguments hcall), ?_⟩
  intro index event s' call call' hnext hcall hcall' hended
  have hrun' := hrun.snoc hnext
  have hreported := reported_run hrun'
  have hstep : s.callNext gbk index call event = some s' := by
    simp only [next, hcall] at hnext
    exact hnext
  obtain ⟨leases, hobtained, hends⟩ :=
    callStep_ends hsound.ledger hcall (callNext_step hstep) hcall' hended
  refine ⟨leases, hobtained, ends_leavesNothing hsound (sound_run hrun') (consumed_run hrun')
    (shared_run hrun') hcall hstep hends fun hnone => ?_⟩
  have hlt : index < (submissions (events ++ [.call index event])).length := by
    rw [hreported.length_eq]
    exact (List.getElem?_eq_some_iff.mp hcall').1
  have htold := hreported.told index _ _ _ _ (List.getElem?_eq_getElem hlt) hcall'
  rw [hnone] at htold
  refine Bool.eq_false_iff.mpr fun hexposed => htold.exposed hexposed ?_
  exact htold.sequenceIds.symm

/-- A call with an id of its own gets as far as its frame when the connection ends. -/
def abandonOne : List ConnectionEvent :=
  [.submit (.new "SMS" "901234" "1065" "13800000000") "hello" (some 7), .call 0 (.prepare none),
    .call 0 .nextSegment, .call 0 .acquirePermit, .call 0 .encode, .finish]

theorem submit_reports_admissions_abandoned : ∃ s s' call call' leases,
    (machine asciiGbk smallConfig 0 0).Run abandonOne s ∧
      next asciiGbk smallConfig s (.call 0 .notOpen) = some s' ∧
      call.leases.map SequenceLease.sequenceId = [7] ∧ Obtained s s' call leases ∧
      LeavesNothing s s' 0 call call' leases := by
  have hexec : (Machine.exec (next asciiGbk smallConfig) (initial smallConfig 0 0) abandonOne).map
      (fun s => (s.calls.map fun c => c.leases.map SequenceLease.sequenceId,
        (next asciiGbk smallConfig s (.call 0 .notOpen)).map
          fun s' => s'.calls.map SubmitCall.ended)) =
      some ([[7]], some [true]) := by decide +kernel
  obtain ⟨s, hrun, hview⟩ := Machine.exists_run_of_exec _ hexec
  obtain ⟨hcalls, hstep⟩ := Prod.mk.inj hview
  obtain ⟨s', hnext, hcalls'⟩ := Option.map_eq_some_iff.mp hstep
  obtain ⟨call, hcall, hids⟩ := List.map_eq_singleton_iff.mp hcalls
  obtain ⟨call', hcall', hended⟩ := List.map_eq_singleton_iff.mp hcalls'
  obtain ⟨leases, hobtained, hleaves⟩ := (submit_reports_admissions hrun).2 0 .notOpen s' call call'
    hnext (by rw [hcall]; rfl) (by rw [hcall']; rfl) hended
  exact ⟨s, s', call, call', leases, hrun, hnext, hids, hobtained, hleaves⟩

end Connection

end CmppProtocol
