import CmppProtocol.Connection.Simulation

/-! # What one task owns

The calls and the stages of the background tasks: each of them is changed only
by the steps of its own task.
-/

namespace CmppProtocol

structure Owned where
  calls : List SubmitCall
  admissions : List Admission
  writer : Writer
  signalled : List WrittenTx
  handed : List Outbound
  answered : Bool
  reader : Reader
  heartbeat : HeartbeatStage
  timeout : TimeoutStage
  closer : CloserStage
  cleanups : List CleanupStage

/-- The part of the writer: what it carries and what it has done. -/
def Owned.written (o : Owned) (s : Connection) : Owned :=
  { o with
    writer := s.writer
    signalled := s.signalled
    handed := s.log.handed
    answered := s.peerTerminateResponseWritten }

namespace Connection

variable {gbk : Gbk} {config : ConnectionConfig} {s s' : Connection}

def owned (s : Connection) : Owned where
  calls := s.calls
  admissions := s.log.admissions
  writer := s.writer
  signalled := s.signalled
  handed := s.log.handed
  answered := s.peerTerminateResponseWritten
  reader := s.reader
  heartbeat := s.heartbeat
  timeout := s.timeout
  closer := s.closer
  cleanups := s.cleanups

@[simp] theorem finish_owned (s : Connection) : s.finish.owned = s.owned := by
  rw [finish_eq]
  rfl

@[simp] theorem beginClosing_owned (s : Connection) (drainSubmits : Bool) :
    (s.beginClosing drainSubmits).2.owned = s.owned := by
  obtain ⟨_, _, _, heq⟩ := s.beginClosing_eq drainSubmits
  rw [heq]
  rfl

theorem callNext_owned {index : ℕ} {call : SubmitCall} {event : CallEvent}
    (h : s.callNext gbk index call event = some s') :
    s'.owned = { s.owned with calls := s'.calls, admissions := s'.log.admissions } := by
  cases callNext_step h with
  | failing lease error hstage =>
    rw [finish_eq]
    rfl
  | _ => rfl

theorem submit_owned {options : SubmitOptions} {content : String} {base : Option UInt32}
    (h : s.submit options content base = some s') :
    s'.owned = { s.owned with calls := s'.calls } := by
  rw [submit] at h
  split_ifs at h
  · cases h
    rfl
  · cases h
    rfl
  split at h
  · cases h
    rfl
  · cases h
    rfl
  · cases h

theorem receive_owned {fromSubmit : Bool} (h : s.receive fromSubmit = some s') :
    s'.owned = s.owned.written s' := by
  rw [receive] at h
  split at h
  · split at h
    · cases h
    · cases h
      rfl
  · split at h
    · cases h
    · cases h
      rfl

theorem receiveOr_owned {received : Option Connection} {stage : WriterStage}
    (hreceived : ∀ t, received = some t → ∃ first, s.receive first = some t) :
    (received.getD (s.setStage stage)).owned =
      s.owned.written (received.getD (s.setStage stage)) := by
  cases hreceive : received with
  | none => rfl
  | some t =>
    obtain ⟨first, ht⟩ := hreceived t hreceive
    exact receive_owned ht

theorem screen_owned (s : Connection) (outbound : Outbound) (isSubmit : Bool) :
    (s.screen outbound isSubmit).owned =
      s.owned.written (s.screen outbound isSubmit) := by
  rw [screen]
  split_ifs
  · rfl
  · rfl
  split
  · rfl
  · next key _ =>
    obtain ⟨heartbeatPending, heq⟩ := (s.countBurst isSubmit).claimHeartbeatAttempt_eq key
    cases hclaim : (s.countBurst isSubmit).claimHeartbeatAttempt key with
    | mk claimed t =>
      rw [hclaim] at heq
      cases heq
      cases claimed with
      | true => rfl
      | false => rfl

theorem push_owned (s : Connection) (outbound : Outbound) : (s.push config outbound).owned =
    s.owned.written (s.push config outbound) := by
  rw [push]
  split_ifs
  · rfl
  split
  · split_ifs <;> rfl
  · rfl

theorem writerAdvance_owned (h : s.writerAdvance config = some s') :
    s'.owned = s.owned.written s' := by
  rw [writerAdvance] at h
  split at h
  · split_ifs at h
    · cases h
      rfl
    · cases h
      rfl
  · cases h
    exact receiveOr_owned fun t ht => ⟨_, ht⟩
  · cases h
    exact receiveOr_owned receive_of_ite
  · cases h
    exact screen_owned s _ _
  · split_ifs at h
    · cases h
      rfl
    · cases h
      rfl
  · cases h
    exact push_owned s _
  · split_ifs at h
    · cases h
      rfl
    · cases h
      rfl
  · cases h
    exact receiveOr_owned fun t ht => ⟨_, ht⟩
  · cases h
    exact receiveOr_owned receive_of_ite
  · cases h
    rfl
  · split_ifs at h
    · cases h
      rfl
    · cases h
      rfl
  · cases h
  · split at h
    · cases h
      rfl
    · cases h
  · cases h
    rfl
  · next outbound rest _ =>
    split at h
    · next writtenAt _ =>
      cases h
      obtain ⟨_, heq⟩ := s.publishFrame_eq outbound writtenAt rest
      rw [heq]
      rfl
    · cases h
  · cases h
    rfl
  · cases h
    rfl
  · cases h
    rfl
  · cases h
    rw [finish_eq]
    rfl
  · cases h

theorem writerNext_owned {event : WriterEvent} (h : s.writerNext config event = some s') :
    s'.owned = s.owned.written s' := by
  cases event with
  | advance => exact writerAdvance_owned h
  | closed =>
    simp only [writerNext] at h
    split_ifs at h
    split at h
    all_goals cases h
    all_goals rfl
  | _ =>
    simp only [writerNext] at h
    split at h
    all_goals cases h
    all_goals rfl

theorem setReader_owned (s : Connection) (stage : ReaderStage) : (s.setReader stage).owned =
    { s.owned with reader := (s.setReader stage).reader } := rfl

theorem readerNext_owned {event : ReaderEvent} (h : s.readerNext event = some s') :
    s'.owned = { s.owned with reader := s'.reader } := by
  cases event with
  | terminate sequenceId =>
    simp only [readerNext] at h
    split_ifs at h
    cases h
    rw [setReader_owned, beginClosing_owned]
    rfl
  | _ =>
    simp only [readerNext] at h
    repeat' split at h
    all_goals cases h
    all_goals rfl

theorem heartbeatNext_owned {event : HeartbeatEvent} (h : s.heartbeatNext event = some s') :
    s'.owned = { s.owned with heartbeat := s'.heartbeat } := by
  cases event with
  | tick =>
    simp only [heartbeatNext] at h
    split_ifs at h
    · split at h
      · cases h
        rw [finish_eq]
        rfl
      · cases h
        rfl
    · cases h
      rfl
  | _ =>
    simp only [heartbeatNext] at h
    repeat' split at h
    all_goals cases h
    all_goals rfl

theorem giveUpSubmit_owned (s : Connection) (now : ℕ) (key : SubmitAttemptKey)
    (keys : List SubmitAttemptKey) (sent : Bool) : (s.giveUpSubmit now key keys sent).owned =
      { s.owned with timeout := (s.giveUpSubmit now key keys sent).timeout } := by
  rw [giveUpSubmit]
  split
  · rfl
  · split_ifs <;> rfl

theorem retrySubmit_owned (s : Connection) (now : ℕ) (key : SubmitAttemptKey)
    (keys : List SubmitAttemptKey) : (s.retrySubmit now key keys).owned =
      { s.owned with timeout := (s.retrySubmit now key keys).timeout } := by
  rw [retrySubmit]
  split
  · rfl
  · split_ifs <;> rfl

theorem timeoutNext_owned {event : TimeoutEvent} (h : s.timeoutNext config event = some s') :
    s'.owned = { s.owned with timeout := s'.timeout } := by
  cases event with
  | teardown =>
    simp only [timeoutNext] at h
    split at h
    all_goals cases h
    all_goals rw [finish_eq]
    all_goals rfl
  | giveUpSubmit sent =>
    simp only [timeoutNext] at h
    split at h
    · split_ifs at h
      cases h
      exact giveUpSubmit_owned s _ _ _ _
    · cases h
  | retrySubmit =>
    simp only [timeoutNext] at h
    split at h
    · cases h
      exact retrySubmit_owned s _ _ _
    · cases h
  | _ =>
    simp only [timeoutNext] at h
    repeat' split at h
    all_goals cases h
    all_goals rfl

theorem closerNext_owned {event : CloserEvent} (h : s.closerNext event = some s') :
    s'.owned = { s.owned with closer := s'.closer } := by
  cases event with
  | close =>
    simp only [closerNext] at h
    split_ifs at h
    have hclosing := s.beginClosing_owned true
    cases hresult : s.beginClosing true with
    | mk won t =>
      rw [hresult] at h hclosing
      cases won with
      | true =>
        cases h
        exact congrArg (fun o : Owned => { o with closer := .marking }) hclosing
      | false =>
        cases h
        exact congrArg (fun o : Owned => { o with closer := .ended }) hclosing
  | leaseTerminate =>
    simp only [closerNext] at h
    split_ifs at h
    split at h
    · cases h
      rw [finish_eq]
      rfl
    · cases h
      rfl
  | finish =>
    simp only [closerNext] at h
    split at h
    · cases h
      rw [finish_eq]
      rfl
    · cases h
  | _ =>
    simp only [closerNext] at h
    repeat' split at h
    all_goals cases h
    all_goals rfl

theorem cleanupNext_owned {index : ℕ} {event : CleanupEvent}
    (h : s.cleanupNext index event = some s') :
    s'.owned = { s.owned with cleanups := s'.cleanups } := by
  cases event with
  | _ =>
    simp only [cleanupNext] at h
    repeat' split at h
    all_goals cases h
    all_goals rfl

/-- A step changes what its own task owns, and nothing else of it. -/
theorem next_owned {event : ConnectionEvent} (h : next gbk config s event = some s') :
    s'.owned = match event with
      | .submit _ _ _ => { s.owned with calls := s'.calls }
      | .call _ _ => { s.owned with calls := s'.calls, admissions := s'.log.admissions }
      | .writer _ => s.owned.written s'
      | .reader _ => { s.owned with reader := s'.reader }
      | .heartbeat _ => { s.owned with heartbeat := s'.heartbeat }
      | .timeout _ => { s.owned with timeout := s'.timeout }
      | .closer _ => { s.owned with closer := s'.closer }
      | .finishStores | .cleanup _ _ => { s.owned with cleanups := s'.cleanups }
      | .clock _ | .udhCounter _ | .overloadClose | .finish => s.owned := by
  cases event with
  | clock duration =>
    cases h
    rfl
  | udhCounter counter =>
    cases h
    rfl
  | submit options content base => exact submit_owned h
  | call index event =>
    simp only [next] at h
    split at h
    · exact callNext_owned h
    · cases h
  | writer event => exact writerNext_owned h
  | reader event => exact readerNext_owned h
  | heartbeat event => exact heartbeatNext_owned h
  | timeout event => exact timeoutNext_owned h
  | closer event => exact closerNext_owned h
  | overloadClose =>
    cases h
    exact beginClosing_owned s false
  | finish =>
    cases h
    exact finish_owned s
  | finishStores =>
    simp only [next] at h
    split_ifs at h
    cases h
    rfl
  | cleanup index event => exact cleanupNext_owned h

end Connection

end CmppProtocol
