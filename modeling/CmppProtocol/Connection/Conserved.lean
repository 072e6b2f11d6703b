import CmppProtocol.Connection.Covered
import CmppProtocol.Connection.Owners

/-! # What is held is given back

Permits and leases are counted in every state; when the connection has ended
and everybody has returned, nothing is held any more but the ids that could not
be retired.
-/

namespace CmppProtocol

namespace CloserStage

/-- The id of the TERMINATE that the driver of the close has on its hands. -/
def terminateSequence : CloserStage → Option ℕ
  | .leased id => some id
  | .awaitingTerminate id => some id
  | .handshakeOver id => some id
  | .forgetting id => some id
  | _ => none

end CloserStage

namespace Window

variable {config : ConnectionConfig} {w w' : Window}

/-- An admission finds no entry under its id. -/
theorem Step.admitted (hstep : Step config w w') {a : Admission} (ha : a ∈ w'.log.admissions) :
    a ∈ w.log.admissions ∨ w.pending.find a.sequenceId = none := by
  cases hstep with
  | admitSubmit admission entry hopen hnew hnone hsub hpacket hstate =>
    rcases List.mem_append.mp ha with ha | ha
    · exact Or.inl ha
    · rw [List.mem_singleton.mp ha]
      exact Or.inr hnone
  | _ => exact Or.inl ha

end Window

namespace Connection

variable {gbk : Gbk} {config : ConnectionConfig} {s s' : Connection}

/-- The pending TERMINATE is the one of the driver, and after the sweep no heartbeat is pending. -/
structure Leaving (s : Connection) : Prop where
  terminate : ∀ lease, s.pendingTerminate = some lease →
    s.closer.terminateSequence = some lease.sequenceId
  heartbeats : .swept ∈ s.cleanups → s.heartbeatPending.size = 0

/-- A step that leaves the pending TERMINATE alone and adds no heartbeat. -/
theorem Leaving.keep (h : s.Leaving) (hterminate : s'.pendingTerminate = s.pendingTerminate)
    (hcloser : s'.closer = s.closer) (hcleanups : s'.cleanups = s.cleanups)
    (hheartbeats : s'.heartbeatPending.size ≤ s.heartbeatPending.size) : s'.Leaving where
  terminate lease hlease := by
    rw [hcloser]
    exact h.terminate lease (hterminate.symm.trans hlease)
  heartbeats hswept := by
    have hzero := h.heartbeats (hcleanups ▸ hswept)
    omega

theorem leaving_writerMove (h : s.Leaving) {event : WriterEvent} (hmove : WriterMove s event s') :
    s'.Leaving := by
  cases hmove with
  | screened outbound isSubmit heartbeatPending hstage hmarker hsize =>
    exact h.keep rfl rfl rfl hsize.le
  | stale outbound isSubmit heartbeatPending hstage hkey hsize => exact h.keep rfl rfl rfl hsize.le
  | publish outbound rest heartbeatPending peerWritten localWritten hstage hsize =>
    exact h.keep rfl rfl rfl hsize.le
  | giveUp hstage =>
    rw [finish_eq]
    exact h.keep rfl rfl rfl le_rfl
  | _ => exact h.keep rfl rfl rfl le_rfl

theorem leaving_readerNext (h : s.Leaving) {event : ReaderEvent}
    (hnext : s.readerNext event = some s') : s'.Leaving := by
  cases event with
  | terminate sequenceId =>
    simp only [readerNext] at hnext
    split_ifs at hnext
    cases hnext
    obtain ⟨_, _, _, heq⟩ :=
      ({ s with peerTerminateSeen := true } : Connection).beginClosing_eq false
    rw [heq]
    exact h.keep rfl rfl rfl le_rfl
  | activeTestResp sequenceId =>
    simp only [readerNext] at hnext
    split_ifs at hnext
    cases hnext
    exact h.keep rfl rfl rfl OrderedMap.size_erase_le
  | terminateResp sequenceId =>
    simp only [readerNext] at hnext
    split_ifs at hnext
    · cases hnext
      exact ⟨by rintro _ ⟨⟩, h.heartbeats⟩
    · cases hnext
      exact h
  | _ =>
    simp only [readerNext] at hnext
    repeat' split at hnext
    all_goals cases hnext
    all_goals exact h.keep rfl rfl rfl le_rfl

theorem leaving_heartbeatNext (h : s.Leaving) (hswept : .swept ∈ s.cleanups → s.phase ≠ .opened)
    {event : HeartbeatEvent} (hnext : s.heartbeatNext event = some s') : s'.Leaving := by
  cases event with
  | tick =>
    simp only [heartbeatNext] at hnext
    split_ifs at hnext
    · split at hnext
      · cases hnext
        rw [finish_eq]
        exact h.keep rfl rfl rfl le_rfl
      · cases hnext
        exact h.keep rfl rfl rfl le_rfl
    · cases hnext
      exact h
  | enqueue =>
    simp only [heartbeatNext] at hnext
    split at hnext
    · split_ifs at hnext with hphase hsize
      · cases hnext
        exact h.keep rfl rfl rfl le_rfl
      · cases hnext
        exact h.keep rfl rfl rfl le_rfl
      · cases hnext
        exact ⟨h.terminate, fun hmem => absurd (not_not.mp hphase) (hswept hmem)⟩
    · cases hnext
  | notOpen =>
    simp only [heartbeatNext] at hnext
    repeat' split at hnext
    all_goals cases hnext
    all_goals exact h.keep rfl rfl rfl le_rfl

theorem leaving_timeoutNext (h : s.Leaving) {event : TimeoutEvent}
    (hnext : s.timeoutNext config event = some s') : s'.Leaving := by
  cases event with
  | giveUpHeartbeat =>
    simp only [timeoutNext] at hnext
    repeat' split at hnext
    all_goals cases hnext
    · exact h.keep rfl rfl rfl le_rfl
    · exact h.keep rfl rfl rfl OrderedMap.size_erase_le
  | retryHeartbeat =>
    simp only [timeoutNext] at hnext
    repeat' split at hnext
    all_goals cases hnext
    · exact h.keep rfl rfl rfl le_rfl
    · exact h.keep rfl rfl rfl le_rfl
    · exact h.keep rfl rfl rfl OrderedMap.size_set.le
  | teardown =>
    simp only [timeoutNext] at hnext
    split at hnext
    all_goals cases hnext
    all_goals rw [finish_eq]
    all_goals exact h.keep rfl rfl rfl le_rfl
  | giveUpSubmit sent =>
    simp only [timeoutNext, giveUpSubmit] at hnext
    repeat' split at hnext
    all_goals cases hnext
    all_goals exact h.keep rfl rfl rfl le_rfl
  | retrySubmit =>
    simp only [timeoutNext, retrySubmit] at hnext
    repeat' split at hnext
    all_goals cases hnext
    all_goals exact h.keep rfl rfl rfl le_rfl
  | _ =>
    simp only [timeoutNext] at hnext
    repeat' split at hnext
    all_goals cases hnext
    all_goals exact h.keep rfl rfl rfl le_rfl

/-- The driver goes on to another stage and leaves the pending TERMINATE alone. -/
theorem Leaving.go (h : s.Leaving) (hterminate : s'.pendingTerminate = s.pendingTerminate)
    (hcleanups : s'.cleanups = s.cleanups) (hheartbeats : s'.heartbeatPending = s.heartbeatPending)
    (hcloser : s.closer.terminateSequence = none ∨
      s'.closer.terminateSequence = s.closer.terminateSequence) : s'.Leaving where
  terminate lease hlease := by
    have hsequence := h.terminate lease (hterminate.symm.trans hlease)
    rcases hcloser with hnone | hsame
    · rw [hnone] at hsequence
      cases hsequence
    · exact hsame.trans hsequence
  heartbeats hswept := by
    rw [hheartbeats]
    exact h.heartbeats (hcleanups ▸ hswept)

theorem leaving_closerNext (h : s.Leaving) {event : CloserEvent}
    (hnext : s.closerNext event = some s') : s'.Leaving := by
  cases event with
  | close =>
    simp only [closerNext] at hnext
    split_ifs at hnext with hcloser
    obtain ⟨_, _, _, heq⟩ := s.beginClosing_eq true
    split at hnext
    all_goals next hresult =>
      rw [hresult] at heq
      cases heq
      cases hnext
      exact h.go rfl rfl rfl (Or.inl (by rw [hcloser]; rfl))
  | sendMarker | markerAnswered =>
    simp only [closerNext] at hnext
    split_ifs at hnext with hcloser
    cases hnext
    exact h.go rfl rfl rfl (Or.inl (by rw [hcloser.1]; rfl))
  | markerGivenUp =>
    simp only [closerNext] at hnext
    split_ifs at hnext with hcloser
    cases hnext
    rcases hcloser with hcloser | hcloser
    · exact h.go rfl rfl rfl (Or.inl (by rw [hcloser]; rfl))
    · exact h.go rfl rfl rfl (Or.inl (by rw [hcloser]; rfl))
  | clearDrain =>
    simp only [closerNext] at hnext
    split_ifs at hnext with hcloser
    cases hnext
    exact h.go rfl rfl rfl (Or.inl (by rw [hcloser]; rfl))
  | leaseTerminate =>
    simp only [closerNext] at hnext
    split_ifs at hnext with hcloser
    split at hnext
    · cases hnext
      rw [finish_eq]
      exact h.go rfl rfl rfl (Or.inl (by rw [hcloser]; rfl))
    · next id sequenceRegistry _ =>
      cases hnext
      refine ⟨fun lease hlease => ?_, h.heartbeats⟩
      cases hlease
      rfl
  | sendTerminate =>
    simp only [closerNext] at hnext
    split at hnext
    · next id hcloser =>
      split_ifs at hnext
      cases hnext
      exact h.go rfl rfl rfl (Or.inr (by rw [hcloser]; rfl))
    · cases hnext
  | handshakeOver =>
    simp only [closerNext] at hnext
    split at hnext
    · next id hcloser =>
      cases hnext
      exact h.go rfl rfl rfl (Or.inr (by rw [hcloser]; rfl))
    · next id hcloser =>
      cases hnext
      exact h.go rfl rfl rfl (Or.inr (by rw [hcloser]; rfl))
    · cases hnext
  | finish =>
    simp only [closerNext] at hnext
    split at hnext
    · next id hcloser =>
      cases hnext
      rw [finish_eq]
      exact h.go rfl rfl rfl (Or.inr (by rw [hcloser]; rfl))
    · cases hnext
  | forget =>
    simp only [closerNext] at hnext
    split at hnext
    · next id hcloser =>
      split_ifs at hnext with hid
      · cases hnext
        exact ⟨by rintro _ ⟨⟩, h.heartbeats⟩
      · cases hnext
        refine ⟨fun lease hlease => absurd ?_ hid, h.heartbeats⟩
        have hsequence := h.terminate lease hlease
        rw [hcloser] at hsequence
        change s.pendingTerminate = some lease at hlease
        rw [hlease]
        exact hsequence.symm
    · cases hnext

theorem leaving_cleanupNext (h : s.Leaving) {index : ℕ} {event : CleanupEvent}
    (hnext : s.cleanupNext index event = some s') : s'.Leaving := by
  have hset {cleanups : List CleanupStage} {stage : CleanupStage} (hmem : .swept ∈ cleanups)
      (hcleanups : cleanups = s.cleanups.set index stage) (hstage : stage ≠ .swept) :
      .swept ∈ s.cleanups := by
    rw [hcleanups] at hmem
    exact (List.mem_or_eq_of_mem_set hmem).resolve_right fun heq => hstage heq.symm
  cases event with
  | start =>
    simp only [cleanupNext] at hnext
    split_ifs at hnext
    cases hnext
    refine ⟨h.terminate, fun hmem => h.heartbeats ?_⟩
    rcases List.mem_append.mp hmem with hmem | hmem
    · exact hmem
    · cases List.mem_singleton.mp hmem
  | sweep =>
    simp only [cleanupNext] at hnext
    split at hnext
    · cases hnext
      exact ⟨by rintro _ ⟨⟩, fun _ => rfl⟩
    · cases hnext
  | drain order =>
    simp only [cleanupNext] at hnext
    split at hnext
    · split_ifs at hnext
      cases hnext
      exact ⟨h.terminate, fun hmem => h.heartbeats (hset hmem rfl (by rintro ⟨⟩))⟩
    · cases hnext
  | sendDropped sent =>
    simp only [cleanupNext] at hnext
    split at hnext
    · cases hnext
      exact ⟨h.terminate, fun hmem => h.heartbeats (hset hmem rfl (by rintro ⟨⟩))⟩
    · cases hnext
  | abort =>
    simp only [cleanupNext] at hnext
    split at hnext
    · cases hnext
      exact ⟨h.terminate, fun hmem => h.heartbeats (hset hmem rfl (by rintro ⟨⟩))⟩
    · cases hnext

theorem leaving_next (h : s.Leaving) (hswept : .swept ∈ s.cleanups → s.phase ≠ .opened)
    {event : ConnectionEvent} (hnext : next gbk config s event = some s') : s'.Leaving := by
  cases event with
  | clock duration =>
    cases hnext
    exact h.keep rfl rfl rfl le_rfl
  | udhCounter counter =>
    cases hnext
    exact h.keep rfl rfl rfl le_rfl
  | submit options content base =>
    simp only [next, submit] at hnext
    repeat' split at hnext
    all_goals cases hnext
    all_goals exact h.keep rfl rfl rfl le_rfl
  | call index event =>
    simp only [next] at hnext
    split at hnext
    · cases callNext_step hnext with
      | failing lease error hstage =>
        rw [finish_eq]
        exact h.keep rfl rfl rfl le_rfl
      | _ => exact h.keep rfl rfl rfl le_rfl
    · cases hnext
  | writer event => exact leaving_writerMove h (writerNext_move hnext)
  | reader event => exact leaving_readerNext h hnext
  | heartbeat event => exact leaving_heartbeatNext h hswept hnext
  | timeout event => exact leaving_timeoutNext h hnext
  | closer event => exact leaving_closerNext h hnext
  | overloadClose =>
    cases hnext
    obtain ⟨_, _, _, heq⟩ := s.beginClosing_eq false
    rw [heq]
    exact h.keep rfl rfl rfl le_rfl
  | finish =>
    cases hnext
    rw [finish_eq]
    exact h.keep rfl rfl rfl le_rfl
  | finishStores =>
    simp only [next] at hnext
    split_ifs at hnext
    cases hnext
    refine ⟨h.terminate, fun hmem => h.heartbeats ?_⟩
    rcases List.mem_append.mp hmem with hmem | hmem
    · exact hmem
    · cases List.mem_singleton.mp hmem
  | cleanup index event => exact leaving_cleanupNext h hnext

theorem Sound.swept_unopened (h : s.Sound config) (hswept : .swept ∈ s.cleanups) :
    s.phase ≠ .opened := by
  have hclosed : s.phase = .closed := h.tallied.closed (List.ne_nil_of_mem hswept)
  rw [hclosed]
  exact nofun

theorem leaving_run {clock : ℕ} {udhCounter : UInt32} {events : List ConnectionEvent}
    (hrun : (machine gbk config clock udhCounter).Run events s) : s.Leaving := by
  have hinv := hrun.invariant (I := fun _ s => s.Sound config ∧ s.Leaving)
    (fun s hs => by
      obtain rfl : s = initial config clock udhCounter := hs
      exact ⟨sound_initial config clock udhCounter, (fun _ h => by cases h),
        fun h => absurd h List.not_mem_nil⟩)
    fun _ _ _ _ ⟨hsound, hleaving⟩ hnext =>
      ⟨hsound.next hnext, leaving_next hleaving hsound.swept_unopened hnext⟩
  exact hinv.2

/-- The permits that are not free. -/
def submitsInFlight (config : ConnectionConfig) (s : Connection) : ℕ :=
  config.windowSize - s.windowPermits

/-- The connection is closed, a cleanup is complete, and the calls, the heartbeat task and the
driver of a close have returned. -/
structure Finished (s : Connection) : Prop where
  closed : s.phase = .closed
  swept : .swept ∈ s.cleanups
  calls : ∀ call ∈ s.calls, call.ended = true
  heartbeat : s.heartbeat = .stopped
  closer : s.closer = .idle ∨ s.closer = .ended

/-- Permits are conserved, and the claimed frames have their entries until the map is drained. -/
structure Conserved (config : ConnectionConfig) (s : Connection) : Prop where
  permits : s.windowPermits + s.pendingSubmits.size + s.calls.countP SubmitCall.holdsPermit =
    config.windowSize
  bounded : s.pendingSubmits.size ≤ config.windowSize
  claimed : (∀ stage ∈ s.cleanups, stage = .starting) → ∀ outbound ∈ s.inBatch,
    ∀ key, outbound.submitAttempt = some key →
      ∃ entry, s.pendingSubmits.find key.sequenceId = some entry ∧
        entry.submissionId = key.submissionId

theorem Sound.conserved (h : s.Sound config) : s.Conserved config where
  permits := h.ledger.permits
  bounded := by
    have hpermits : s.windowPermits + s.pendingSubmits.size +
      s.calls.countP SubmitCall.holdsPermit = config.windowSize := h.ledger.permits
    omega
  claimed := by
    intro hstarting outbound hmem key hkey
    have hheld : outbound ∈ (s.window.life key.sequenceId).held := by
      have hin : outbound ∈ s.window.held := by
        simp only [window, Writer.held, inBatch] at hmem ⊢
        split_ifs at hmem ⊢
        · refine List.mem_filter.mpr ⟨hmem, ?_⟩
          rw [Outbound.isSubmit, hkey]
          rfl
        · cases hmem
      refine List.mem_filter.mpr ⟨hin, ?_⟩
      rw [Outbound.carries, hkey]
      exact decide_eq_true rfl
    rcases h.lives key.sequenceId with hlife | ⟨a, n, hx, hlife⟩
    · rw [hlife.held] at hheld
      cases hheld
    have hframe : key.submissionId = a.submissionId := by
      rcases hlife.held with hnil | ⟨hone, _, _⟩
      · rw [hnil] at hheld
        cases hheld
      · rw [hone, List.mem_singleton] at hheld
        rw [hheld, Admission.frame_submitAttempt] at hkey
        rw [← Option.some.inj hkey]
        rfl
    cases hfind : s.pendingSubmits.find key.sequenceId with
    | some entry =>
      obtain ⟨hsub, _⟩ := hlife.entry entry hfind
      exact ⟨entry, rfl, hsub.trans hframe.symm⟩
    | none =>
      have hswept : Window.swept s.cleanups = true :=
        hlife.torn (List.ne_nil_of_mem hheld) hfind
      obtain ⟨stage, hstage, hne⟩ := List.any_eq_true.mp hswept
      exact absurd (hstarting stage hstage) (of_decide_eq_true hne)

theorem leases_of_ended {call : SubmitCall} {registry : SequenceState} {admitted failed : List ℕ}
    (h : call.Holding registry admitted failed) (hended : call.ended = true) :
    call.leases = [] := by
  rw [SubmitCall.leases, h.clear (Or.inr hended), List.append_nil]
  cases hstage : call.stage with
  | returned result =>
    rw [SubmitCall.lease, hstage]
    rfl
  | cancelled =>
    rw [SubmitCall.lease, hstage]
    rfl
  | _ =>
    rw [SubmitCall.ended, hstage] at hended
    cases hended

theorem not_holdsPermit_of_ended {call : SubmitCall} (hended : call.ended = true) :
    call.holdsPermit = false := by
  cases hstage : call.stage with
  | returned result => rw [SubmitCall.holdsPermit, hstage]
  | cancelled => rw [SubmitCall.holdsPermit, hstage]
  | _ =>
    rw [SubmitCall.ended, hstage] at hended
    cases hended

theorem Leaving.terminate_none (h : s.Leaving) (hcloser : s.closer = .idle ∨ s.closer = .ended) :
    s.pendingTerminate = none := by
  rw [Option.eq_none_iff_forall_ne_some]
  intro lease hlease
  have hsequence := h.terminate lease hlease
  rcases hcloser with hcloser | hcloser
  · rw [hcloser] at hsequence
    cases hsequence
  · rw [hcloser] at hsequence
    cases hsequence

/-- Nobody holds a lease any more. -/
theorem Sound.no_leases (h : s.Sound config) (hleaving : s.Leaving) (hfinished : s.Finished) :
    s.holdings.leases = [] := by
  have hcalls : s.calls.flatMap SubmitCall.leases = [] := by
    rw [List.flatMap_eq_nil_iff]
    exact fun call hcall => leases_of_ended (h.ledger.calls call hcall) (hfinished.calls call hcall)
  have hpending : s.pendingSubmits.entries = [] :=
    List.eq_nil_iff_forall_not_mem.mpr (h.tallied.empty
      (List.any_eq_true.mpr ⟨.swept, hfinished.swept, rfl⟩))
  have hheartbeats : s.heartbeatPending.entries = [] :=
    List.length_eq_zero_iff.mp (hleaving.heartbeats hfinished.swept)
  have hothers : s.heartbeat.lease.toList ++ s.pendingTerminate.toList = [] := by
    rw [hleaving.terminate_none hfinished.closer, hfinished.heartbeat]
    rfl
  simp only [Holdings.leases, Holdings.pendingLeases, Holdings.heartbeatLeases, holdings, hcalls,
    hpending, hheartbeats, hothers, List.map_nil, List.append_nil]

theorem Sound.finished (h : s.Sound config) (hleaving : s.Leaving) (hfinished : s.Finished) :
    s.pendingSubmits.size = 0 ∧ s.submitsInFlight config = 0 ∧
      ∀ x ∈ s.sequenceRegistry.reserved, x ∈ s.log.retireFailed := by
  have hempty : s.pendingSubmits.entries = [] :=
    List.eq_nil_iff_forall_not_mem.mpr (h.tallied.empty
      (List.any_eq_true.mpr ⟨.swept, hfinished.swept, rfl⟩))
  have hsize : s.pendingSubmits.size = 0 := by rw [OrderedMap.size, hempty, List.length_nil]
  have hcalls : s.calls.countP SubmitCall.holdsPermit = 0 := by
    rw [List.countP_eq_zero]
    intro call hcall
    rw [not_holdsPermit_of_ended (hfinished.calls call hcall)]
    exact Bool.false_ne_true
  have hpermits := h.conserved.permits
  refine ⟨hsize, ?_, fun x hx => ?_⟩
  · rw [submitsInFlight]
    omega
  · have hholds := h.ledger.holds
    rw [h.no_leases hleaving hfinished, SequenceLease.held_nil, zero_add] at hholds
    exact Multiset.mem_coe.mp (hholds.mem_iff.mp hx)

theorem Sound.admitted_next (h : s.Sound config) {event : ConnectionEvent}
    (hnext : Connection.next gbk config s event = some s') {a : Admission}
    (ha : a ∈ s'.log.admissions) :
    a ∈ s.log.admissions ∨ s.pendingSubmits.find a.sequenceId = none := by
  rcases (follows_next h.wired h.ledger hnext).window with hsame | hstep
  · have hadmissions : s'.log.admissions = s.log.admissions :=
      congrArg (fun w : Window => w.log.admissions) hsame
    exact Or.inl (hadmissions ▸ ha)
  · exact hstep.admitted ha

/-- Permits are conserved in every state, an admission finds no entry under its id, the claimed
frames belong to entries until the map is drained, and in the end nothing is held but the ids whose
retire failed. -/
theorem window_and_leases_conserved {clock : ℕ} {udhCounter : UInt32}
    {events : List ConnectionEvent} (hrun : (machine gbk config clock udhCounter).Run events s) :
    s.Conserved config ∧
    (∀ event s', next gbk config s event = some s' → ∀ a ∈ s'.log.admissions,
      a ∈ s.log.admissions ∨ s.pendingSubmits.find a.sequenceId = none) ∧
    (s.Finished → s.pendingSubmits.size = 0 ∧ s.submitsInFlight config = 0 ∧
      ∀ x ∈ s.sequenceRegistry.reserved, x ∈ s.log.retireFailed) := by
  have hsound := sound_run hrun
  exact ⟨hsound.conserved, fun _ _ hnext _ ha => hsound.admitted_next hnext ha,
    hsound.finished (leaving_run hrun)⟩

/-- The connection ends with one SUBMIT in the window. -/
def endOne : List ConnectionEvent :=
  admitOne ++ [.call 0 .nextSegment, .finish, .finishStores, .cleanup 0 (.drain [2]),
    .cleanup 0 (.sendDropped true), .cleanup 0 .sweep, .heartbeat .notOpen]

theorem window_and_leases_conserved_finished : ∃ events s,
    (machine asciiGbk smallConfig 0 0).Run events s ∧ s.log.drained = [2] ∧ s.Finished ∧
      s.Conserved smallConfig ∧ s.pendingSubmits.size = 0 ∧ s.submitsInFlight smallConfig = 0 := by
  have hexec : (Machine.exec (next asciiGbk smallConfig) (initial smallConfig 0 0) endOne).map
      (fun s => ((s.log.drained, s.phase), (s.cleanups, s.calls.all SubmitCall.ended), s.heartbeat,
        s.closer)) = some (([2], .closed), ([.swept], true), .stopped, .idle) := by decide +kernel
  obtain ⟨s, hrun, hview⟩ := Machine.exists_run_of_exec _ hexec
  simp only [Prod.mk.injEq] at hview
  obtain ⟨⟨hdrained, hclosed⟩, ⟨hcleanups, hcalls⟩, hheartbeat, hcloser⟩ := hview
  have hfinished : s.Finished :=
    ⟨hclosed, hcleanups ▸ List.mem_singleton_self _, List.all_eq_true.mp hcalls, hheartbeat,
      Or.inl hcloser⟩
  obtain ⟨hconserved, _, hend⟩ := window_and_leases_conserved hrun
  obtain ⟨hsize, hflight, _⟩ := hend hfinished
  exact ⟨_, s, hrun, hdrained, hfinished, hconserved, hsize, hflight⟩

/-- While the writer sends a claimed frame the cleanup drains its entry. -/
theorem claimed_without_entry : ∃ events s outbound key,
    (machine asciiGbk smallConfig 0 0).Run events s ∧ outbound ∈ s.inBatch ∧
      outbound.submitAttempt = some key ∧ s.pendingSubmits.find key.sequenceId = none := by
  have hexec : (Machine.exec (next asciiGbk smallConfig) (initial smallConfig 0 0) (admitOne ++
      List.replicate 11 (.writer .advance) ++
        [.finish, .finishStores, .cleanup 0 (.drain [2])])).map
        (fun s => (s.inBatch.map Outbound.submitAttempt, (s.pendingSubmits.find 2).isNone)) =
      some ([some ⟨2, 1, 1⟩], true) := by decide +kernel
  obtain ⟨s, hrun, hview⟩ := Machine.exists_run_of_exec _ hexec
  obtain ⟨hbatch, hnone⟩ := Prod.mk.inj hview
  have hmem : some ⟨2, 1, 1⟩ ∈ s.inBatch.map Outbound.submitAttempt := by
    rw [hbatch]
    exact List.mem_singleton_self _
  obtain ⟨outbound, hin, hkey⟩ := List.mem_map.mp hmem
  exact ⟨_, s, outbound, ⟨2, 1, 1⟩, hrun, hin, hkey, Option.isNone_iff_eq_none.mp hnone⟩

end Connection

end CmppProtocol
