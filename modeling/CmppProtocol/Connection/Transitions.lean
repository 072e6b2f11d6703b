import CmppProtocol.Connection.Step

/-! # What a submit call can do

Each way in which a call of `submit` can move is a constructor, with the guards
that it has passed. `finish` touches the phase and its own marks only.
-/

namespace CmppProtocol

namespace Connection

variable {gbk : Gbk} {s s' : Connection} {index : ℕ} {call : SubmitCall}

theorem finish_eq (s : Connection) : s.finish = { s with
    phase := .closed
    finishing := s.finishing || s.phase ≠ .closed
    log := { s.log with drainCut := s.log.drainCut || s.phase ≠ .closed } } := by
  rw [finish]
  split_ifs with hclosed
  · simp [← hclosed]
  · simp [hclosed]

theorem beginClosing_eq (s : Connection) (drainSubmits : Bool) :
    ∃ phase drainSubmitsOnClose drainCut, (s.beginClosing drainSubmits).2 =
      { s with phase, drainSubmitsOnClose, log := { s.log with drainCut } } := by
  rw [beginClosing]
  split
  · exact ⟨_, _, _, rfl⟩
  · split_ifs
    · exact ⟨_, _, _, rfl⟩
    · exact ⟨_, _, _, rfl⟩
  · exact ⟨_, _, _, rfl⟩

theorem controlQueue_finish (s : Connection) : s.finish.controlQueue = s.controlQueue := by
  rw [finish_eq]

theorem controlQueue_beginClosing (s : Connection) (drainSubmits : Bool) :
    (s.beginClosing drainSubmits).2.controlQueue = s.controlQueue := by
  obtain ⟨_, _, _, heq⟩ := s.beginClosing_eq drainSubmits
  rw [heq]

inductive CallStep (gbk : Gbk) (s : Connection) (index : ℕ) (call : SubmitCall) :
    Connection → Prop
  | refused (udhReference : Option UInt8) (error : Error) :
    call.stage = .entered → (∀ ids source, error ≠ .partialSubmit ids source) →
    CallStep gbk s index call
      (s.setCall index { call with udhReference, stage := .returned (.error error) })
  | automatic (udhReference : Option UInt8) :
    call.stage = .entered → call.base = none →
    (1 < call.segmentCount → udhReference.isSome = true) →
    CallStep gbk s index call (s.setCall index { call with udhReference, stage := .looping })
  | granted (udhReference : Option UInt8) (base : UInt32) (leases : List SequenceLease)
      (sequenceRegistry : SequenceState) :
    call.stage = .entered → call.base = some base →
    s.sequenceRegistry.reserveBatch base call.segmentCount = (some leases, sequenceRegistry) →
    (1 < call.segmentCount → udhReference.isSome = true) →
    CallStep gbk s index call (({ s with sequenceRegistry } : Connection).setCall index
      { call with udhReference, stage := .looping, manualSequenceLeases := leases })
  | finished :
    call.stage = .looping → call.sequenceIds.length = call.segmentCount →
    CallStep gbk s index call (s.endCall index call (.returned (.ok call.sequenceIds)))
  | nextManual (lease : SequenceLease) (leases : List SequenceLease) :
    call.stage = .looping → call.sequenceIds.length ≠ call.segmentCount →
    call.base ≠ none → call.manualSequenceLeases = lease :: leases →
    CallStep gbk s index call (s.setCall index
      { call with manualSequenceLeases := leases, stage := .sending (some lease) })
  | nextAutomatic :
    call.stage = .looping → call.sequenceIds.length ≠ call.segmentCount → call.base = none →
    CallStep gbk s index call (s.setCall index { call with stage := .sending none })
  | permitted (lease : Option SequenceLease) :
    call.stage = .sending lease → 0 < s.windowPermits →
    CallStep gbk s index call
      (({ s with windowPermits := s.windowPermits - 1 } : Connection).setCall
      index { call with stage := .permitted lease })
  | closed :
    call.stage = .entered →
    CallStep gbk s index call (s.endCall index call (.returned (.error .closed)))
  | cancelled :
    call.ended = false →
    CallStep gbk s index call (s.endCall index call .cancelled)
  | failed (source : Error) :
    call.ended = false →
    CallStep gbk s index call (s.failCall index call source)
  | exhausted (template : Submit) (sequenceRegistry : SequenceState) :
    call.stage = .permitted none → s.sequenceRegistry.reserveNext = (none, sequenceRegistry) →
    CallStep gbk s index call (({ s with sequenceRegistry } : Connection).setCall index
      { call with template, stage := .failing none .channelClosed })
  | unencodable (template : Submit) (lease : Option SequenceLease) (obtained : SequenceLease)
      (sequenceRegistry : SequenceState) (error : Error) :
    call.stage = .permitted lease →
    obtainLease s.sequenceRegistry lease = (some obtained, sequenceRegistry) →
    CallStep gbk s index call ({ s with sequenceRegistry }.failCall index
      { call with template, stage := .permitted (some obtained) } error)
  | encoded (segment : SmsSegment) (lease : Option SequenceLease) (obtained : SequenceLease)
      (sequenceRegistry : SequenceState) (packet : List UInt8) :
    call.stage = .permitted lease →
    call.plan.segment gbk call.sequenceIds.length call.udhReference () =
      some (.ok segment, ()) →
    obtainLease s.sequenceRegistry lease = (some obtained, sequenceRegistry) →
    (call.template.applySegment segment).tryEncode (.ofNat obtained.sequenceId) () =
      some (.ok packet, ()) →
    CallStep gbk s index call
      (({ s with
        sequenceRegistry
        nextSubmissionId := s.nextSubmissionId + 1 } : Connection).setCall
        index { call with
          template := call.template.applySegment segment
          stage := .encoded obtained packet ⟨obtained.sequenceId, s.nextSubmissionId, 1⟩ })
  | reserved (lease : SequenceLease) (packet : List UInt8) (key : SubmitAttemptKey) :
    call.stage = .encoded lease packet key →
    CallStep gbk s index call (s.setCall index { call with stage := .reserved lease packet key })
  | retireFailed (lease : SequenceLease) (packet : List UInt8) (key : SubmitAttemptKey)
      (retired : SequenceLease) (sequenceRegistry : SequenceState) :
    call.stage = .reserved lease packet key → s.phase = .opened →
    retireManual s.sequenceRegistry lease = (false, retired, sequenceRegistry) →
    CallStep gbk s index call (({ s with
      sequenceRegistry
      log := { s.log with retireFailed := s.log.retireFailed ++ [retired.sequenceId] } } :
        Connection).setCall index { call with stage := .failing (some retired) .channelClosed })
  | admitted (lease : SequenceLease) (packet : List UInt8) (key : SubmitAttemptKey)
      (retired : SequenceLease) (sequenceRegistry : SequenceState) :
    call.stage = .reserved lease packet key → s.phase = .opened →
    retireManual s.sequenceRegistry lease = (true, retired, sequenceRegistry) →
    CallStep gbk s index call
      (({ s with sequenceRegistry } : Connection).commitSubmit index call retired packet key)
  | failing (lease : Option SequenceLease) (error : Error) :
    call.stage = .failing lease error →
    CallStep gbk s index call (s.finish.failCall index call error)

theorem prepareCall_step {udhReference : Option UInt8} (hstage : call.stage = .entered) :
    CallStep gbk s index call (s.prepareCall index call udhReference) := by
  simp only [prepareCall]
  split_ifs with hplan hlease hlong
  · exact .refused call.udhReference _ hstage (by simp)
  · exact .refused call.udhReference _ hstage (by simp)
  · have hsome : udhReference.isSome = true :=
      Option.isSome_iff_ne_none.mpr fun hnone => hlease ⟨hlong, hnone⟩
    split
    · next hbase => exact .automatic _ hstage hbase fun _ => hsome
    · next base hbase =>
      split
      · next leases registry hgrant =>
        exact .granted _ base leases registry hstage hbase hgrant fun _ => hsome
      · exact .refused _ _ hstage (by simp)
  · split
    · next hbase => exact .automatic _ hstage hbase fun h => absurd h hlong
    · next base hbase =>
      split
      · next leases registry hgrant =>
        exact .granted _ base leases registry hstage hbase hgrant fun h => absurd h hlong
      · exact .refused _ _ hstage (by simp)

theorem encodeCall_step {lease : Option SequenceLease} (hstage : call.stage = .permitted lease)
    (h : s.encodeCall gbk index call lease = some s') : CallStep gbk s index call s' := by
  have hended : call.ended = false := by rw [SubmitCall.ended, hstage]
  rw [encodeCall] at h
  split at h
  · cases h
  · cases h
    exact .failed _ hended
  next segment _ hsegment =>
  dsimp only at h
  split at h
  · next registry hobtain =>
    cases h
    cases lease with
    | some lease => cases hobtain
    | none =>
      simp only [obtainLease] at hobtain
      split at hobtain
      · cases hobtain
      · next hnext =>
        cases hobtain
        exact .exhausted _ _ hstage hnext
  next obtained registry hobtain =>
  split at h
  · cases h
  · cases h
    exact .unencodable _ lease obtained registry _ hstage hobtain
  · next packet _ hpacket =>
    cases h
    exact .encoded segment lease obtained registry packet hstage hsegment hobtain hpacket

theorem admitCall_step {lease : SequenceLease} {packet : List UInt8} {key : SubmitAttemptKey}
    (hstage : call.stage = .reserved lease packet key) :
    CallStep gbk s index call (s.admitCall index call lease packet key) := by
  rw [admitCall]
  split_ifs with hopen
  · exact .failed _ (by rw [SubmitCall.ended, hstage])
  split
  · next retired registry hretire =>
    exact .retireFailed lease packet key retired registry hstage (not_not.mp hopen) hretire
  · next retired registry hretire =>
    exact .admitted lease packet key retired registry hstage (not_not.mp hopen) hretire

theorem callNext_step {event : CallEvent} (h : s.callNext gbk index call event = some s') :
    CallStep gbk s index call s' := by
  cases event with
  | prepare udhReference =>
    simp only [callNext] at h
    split at h
    · next hstage =>
      cases h
      exact prepareCall_step hstage
    · cases h
  | nextSegment =>
    simp only [callNext] at h
    split at h
    · next hstage =>
      have hended : call.ended = false := by rw [SubmitCall.ended, hstage]
      split_ifs at h with hlen
      · cases h
        exact .finished hstage hlen
      split at h
      · next lease leases hbase hleases =>
        cases h
        exact .nextManual lease leases hstage hlen
          (by rw [hbase]; exact Option.some_ne_none _) hleases
      · cases h
        exact .failed _ hended
      · next hbase =>
        cases h
        exact .nextAutomatic hstage hlen hbase
    · cases h
  | acquirePermit =>
    simp only [callNext] at h
    split at h
    · next lease hstage =>
      split_ifs at h with hpermit
      cases h
      exact .permitted lease hstage hpermit.1
    · cases h
  | notOpen =>
    rw [callNext] at h
    split at h
    · cases h
    split at h
    · next hstage =>
      split_ifs at h
      cases h
      exact .closed hstage
    · next hstage =>
      cases h
      exact .failed _ (by rw [SubmitCall.ended, hstage])
    · next hstage =>
      cases h
      exact .failed _ (by rw [SubmitCall.ended, hstage])
    · cases h
  | encode =>
    simp only [callNext] at h
    split at h
    · next lease hstage => exact encodeCall_step hstage h
    · cases h
  | reserveSlot =>
    simp only [callNext] at h
    split at h
    · next lease packet key hstage =>
      cases h
      exact .reserved lease packet key hstage
    · cases h
  | admitSubmit =>
    simp only [callNext] at h
    split at h
    · next lease packet key hstage =>
      cases h
      exact admitCall_step hstage
    · cases h
  | fail =>
    simp only [callNext] at h
    split at h
    · next lease error hstage =>
      cases h
      exact .failing lease error hstage
    · cases h
  | cancel =>
    simp only [callNext] at h
    split at h
    · next hstage =>
      cases h
      exact .cancelled (by rw [SubmitCall.ended, hstage])
    · next hstage =>
      cases h
      exact .cancelled (by rw [SubmitCall.ended, hstage])
    · next hstage =>
      cases h
      exact .cancelled (by rw [SubmitCall.ended, hstage])
    · cases h

end Connection

end CmppProtocol
