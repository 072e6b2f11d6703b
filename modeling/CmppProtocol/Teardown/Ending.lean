import CmppProtocol.Events.Shown
import CmppProtocol.Teardown.Graceful
import CmppProtocol.Teardown.Once

/-! # How a local close ends

A call of `finish` without a reason wins while no other call brings one. After
the answer to TERMINATE only the end of the file is taken for the end of the
handshake; a connection error or a write that fails brings its reason.
-/

namespace CmppProtocol

/-- The reason that a call of `finish` brings. -/
def FinishStage.reason : FinishStage → Option Error
  | .called reason | .unterminated reason | .resolved reason => reason
  | _ => none

namespace Teardown

variable {eventSpoolCapacity capacity : ℕ} {s s' : Teardown eventSpoolCapacity capacity}

/-- The flags that give every call of `finish` a reason. -/
def Marked (s : Teardown eventSpoolCapacity capacity) : Prop :=
  s.peerTerminateSeen = true ∨ s.spool.eventOverflowed = true

/-- No reason has won or can win, and no event says that the connection is gone. -/
structure Calm (s : Teardown eventSpoolCapacity capacity) : Prop where
  calls : s.phase = .closed ∨ ∀ stage ∈ s.finishes, stage.reason = none
  holder : ∀ holder, s.reasonLock = some holder → holder.reason = none
  winners : ∀ winner ∈ s.winners, winner.2 = none
  reason : s.terminalReason = none
  shown : s.spool.Shows fun event => event.isDisconnected = false

theorem Calm.setFinish (h : s.Calm) {call : ℕ} {stage : FinishStage}
    (hstage : s.phase = .closed ∨ stage.reason = none) : (s.setFinish call stage).Calm := by
  refine ⟨?_, h.holder, h.winners, h.reason, h.shown⟩
  rcases h.calls with hclosed | hcalls
  · exact Or.inl hclosed
  · refine hstage.imp_right fun hstage other hother => ?_
    rcases List.mem_or_eq_of_mem_set hother with hmem | rfl
    · exact hcalls other hmem
    · exact hstage

theorem Calm.of_stage (h : s.Calm) {call : ℕ} {stage : FinishStage}
    (hstage : s.finishes[call]? = some stage) : s.phase = .closed ∨ stage.reason = none :=
  h.calls.imp_right fun hcalls => hcalls stage (List.mem_of_getElem? hstage)

theorem Calm.resolve (h : s.Calm) (hmarked : ¬ s.Marked) {call : ℕ}
    (hnext : s.resolve call = some s') : s'.Calm := by
  unfold Teardown.resolve at hnext
  split at hnext
  · next reason hstage =>
    cases hnext
    rw [if_neg fun hpeer => hmarked (Or.inl hpeer)]
    have hreason := h.of_stage hstage
    exact h.setFinish hreason
  · next reason hstage =>
    cases hnext
    rw [if_neg fun hover => hmarked (Or.inr hover)]
    have hreason := h.of_stage hstage
    exact h.setFinish hreason
  · cases hnext

theorem Calm.lockReason (h : s.Calm) {call : ℕ} (hnext : s.lockReason call = some s') :
    s'.Calm := by
  unfold Teardown.lockReason at hnext
  split at hnext
  · next reason hstage =>
    split_ifs at hnext with hfree hclosed
    · cases hnext
      exact h.setFinish (Or.inl hclosed)
    · cases hnext
      have hset : (s.setFinish call .locked).Calm := h.setFinish (Or.inr rfl)
      have hreason : reason = none := (h.of_stage hstage).resolve_left hclosed
      refine ⟨hset.calls, ?_, hset.winners, hreason, hset.shown⟩
      rintro _ ⟨⟩
      exact hreason
  · cases hnext

theorem Calm.underReasonNext (h : s.Calm) (hnext : s.underReasonNext = some s') : s'.Calm := by
  have hholder := h.holder
  unfold Teardown.underReasonNext at hnext
  split at hnext
  · next call reason hlock =>
    split_ifs at hnext
    cases hnext
    have hreason := hholder _ hlock
    refine ⟨h.calls, ?_, h.winners, h.reason, h.shown⟩
    rintro _ ⟨⟩
    exact hreason
  · next call reason hlock =>
    cases hnext
    split_ifs
    · have hset : (s.setFinish call .ended).Calm := h.setFinish (Or.inr rfl)
      exact ⟨hset.calls, by rintro _ ⟨⟩, hset.winners, hset.reason, hset.shown⟩
    · have hreason := hholder _ hlock
      refine ⟨Or.inl rfl, ?_, ?_, h.reason, h.shown.congr rfl rfl rfl rfl rfl rfl⟩
      · rintro _ ⟨⟩
        exact hreason
      · rw [List.forall_mem_append]
        exact ⟨h.winners, List.forall_mem_singleton.mpr hreason⟩
  · next call reason hlock =>
    cases hnext
    have hreason := hholder _ hlock
    refine ⟨h.calls, ?_, h.winners, h.reason, h.shown⟩
    rintro _ ⟨⟩
    exact hreason
  · next call reason hlock =>
    cases hnext
    have hreason := hholder _ hlock
    refine ⟨h.calls, ?_, h.winners, h.reason, h.shown⟩
    rintro _ ⟨⟩
    exact hreason
  · next call reason hlock =>
    cases hnext
    have hset : (s.setFinish call .won).Calm := h.setFinish (Or.inr rfl)
    exact ⟨hset.calls, by rintro _ ⟨⟩, hset.winners, hset.reason, hset.shown⟩
  · cases hnext

theorem Calm.afterWin (h : s.Calm) {call : ℕ} (hnext : s.afterWin call = some s') : s'.Calm := by
  unfold Teardown.afterWin at hnext
  split at hnext
  · cases hnext
    have hset : (s.setFinish call .cleared).Calm := h.setFinish (Or.inr rfl)
    exact ⟨hset.calls, hset.holder, hset.winners, hset.reason, hset.shown⟩
  · cases hnext
    have hset : (s.setFinish call .ended).Calm := h.setFinish (Or.inr rfl)
    exact ⟨hset.calls, hset.holder, hset.winners, hset.reason,
      hset.shown.congr rfl rfl rfl rfl rfl rfl⟩
  · cases hnext

/-- A phase that is not closed may change, as it does in a call of `begin_closing`. -/
theorem Calm.setPhase (h : s.Calm) {phase phaseTx : ConnectionPhase}
    {owner : Option AdmissionOwner} {drain : Bool} (hclosed : s.phase ≠ .closed) :
    Calm { s with
      phase, phaseTx, submitAdmission := owner, drainSubmitsOnClose := drain } :=
  ⟨Or.inr (h.calls.resolve_left hclosed), h.holder, h.winners, h.reason, h.shown⟩

theorem Calm.setAdmission (h : s.Calm) {phaseTx : ConnectionPhase} {owner : Option AdmissionOwner}
    {drain : Bool} :
    Calm { s with phaseTx, submitAdmission := owner, drainSubmitsOnClose := drain } :=
  ⟨h.calls, h.holder, h.winners, h.reason, h.shown⟩

theorem Calm.setSpool (h : s.Calm) {spool : EventSpool eventSpoolCapacity capacity}
    (hspool : spool.Shows fun event => event.isDisconnected = false) : Calm { s with spool } :=
  ⟨h.calls, h.holder, h.winners, h.reason, hspool⟩

theorem Calm.beginClosing (h : s.Calm) (drainSubmits : Bool) :
    (s.beginClosing drainSubmits).Calm := by
  unfold Teardown.beginClosing
  split
  · exact h.setAdmission
  · split_ifs
    · exact h
    · exact h.setAdmission
  · exact h

theorem Calm.closingNext (hinv : s.Inv) (h : s.Calm) (hnext : s.closingNext = some s') :
    s'.Calm := by
  have howned := hinv.owned
  unfold Owned at howned
  unfold Teardown.closingNext at hnext
  split at hnext
  · cases hnext
    exact h.setAdmission
  · next hlock =>
    cases hnext
    rw [hlock] at howned
    exact h.setPhase (by rw [howned.1]; rintro ⟨⟩)
  · cases hnext
    exact h.setAdmission
  · cases hnext
    exact h.setAdmission
  · cases hnext

theorem Calm.lockAdmission (h : s.Calm) {owner : AdmissionOwner}
    (hnext : s.lockAdmission owner = some s') : s'.Calm := by
  unfold Teardown.lockAdmission at hnext
  split_ifs at hnext
  · cases hnext
    exact h.setAdmission
  · cases hnext
    exact h

theorem Calm.leave (h : s.Calm) (hnext : s.leave = some s') : s'.Calm := by
  unfold Teardown.leave at hnext
  split at hnext
  · cases hnext
    exact h.setAdmission
  · cases hnext
    exact h.setAdmission
  · cases hnext
    exact h.setAdmission
  · cases hnext

/-- A call of `finish` that brings a reason comes too late. -/
theorem Calm.finish (h : s.Calm) {reason : Option Error}
    (hfinish : ∀ error, reason = some error → s.phase = .closed) :
    Calm { s with finishes := s.finishes ++ [.called reason] } := by
  refine ⟨?_, h.holder, h.winners, h.reason, h.shown⟩
  cases reason with
  | some error => exact Or.inl (hfinish error rfl)
  | none =>
    refine h.calls.imp_right fun hcalls => ?_
    rw [List.forall_mem_append]
    exact ⟨hcalls, List.forall_mem_singleton.mpr rfl⟩

theorem Calm.takeReason (h : s.Calm) (hnext : s.takeReason = some s') : s'.Calm := by
  unfold Teardown.takeReason at hnext
  split_ifs at hnext
  cases hnext
  have hreason : (EventSpoolItem.terminal s.terminalReason).Shows
      fun event => event.isDisconnected = false := by
    rw [h.reason]
    rintro _ ⟨⟩
  exact ⟨h.calls, h.holder, h.winners, rfl, h.shown.takeReason hreason⟩

theorem Calm.next (hinv : s.Inv) (h : s.Calm) (hmarked : ¬ s.Marked) {event : TeardownStep}
    (hordinary : event.isOrdinary = true)
    (hfinish : ∀ error, event = .finish (some error) → s.phase = .closed)
    (hnext : s.next event = some s') : s'.Calm := by
  cases event with
  | peerTerminate =>
    cases hnext
    exact ⟨h.calls, h.holder, h.winners, h.reason, h.shown⟩
  | beginClosing drainSubmits =>
    simp only [Teardown.next] at hnext
    split_ifs at hnext
    cases hnext
    exact h.beginClosing drainSubmits
  | closing => exact h.closingNext hinv hnext
  | clearDrain =>
    cases hnext
    exact h.setAdmission
  | lockSubmit => exact h.lockAdmission hnext
  | insertSubmit sequenceId =>
    simp only [Teardown.next, Teardown.insertSubmit] at hnext
    split_ifs at hnext
    cases hnext
    exact ⟨h.calls, h.holder, h.winners, h.reason, h.shown.congr rfl rfl rfl rfl rfl rfl⟩
  | lockHeartbeat => exact h.lockAdmission hnext
  | insertHeartbeat sequenceId =>
    simp only [Teardown.next, Teardown.insertHeartbeat] at hnext
    split_ifs at hnext
    cases hnext
    exact ⟨h.calls, h.holder, h.winners, h.reason, h.shown⟩
  | lockClaim =>
    simp only [Teardown.next] at hnext
    split_ifs at hnext
    cases hnext
    exact h.setAdmission
  | leave => exact h.leave hnext
  | settleSubmit sequenceId =>
    cases hnext
    exact h.setSpool (h.shown.congr rfl rfl rfl rfl rfl rfl)
  | settleHeartbeat sequenceId =>
    cases hnext
    exact ⟨h.calls, h.holder, h.winners, h.reason, h.shown⟩
  | finish reason =>
    cases hnext
    exact h.finish fun error heq => hfinish error (congrArg TeardownStep.finish heq)
  | resolve call => exact h.resolve hmarked hnext
  | lockReason call => exact h.lockReason hnext
  | underReason => exact h.underReasonNext hnext
  | afterWin call => exact h.afterWin hnext
  | fallback =>
    simp only [Teardown.next] at hnext
    split_ifs at hnext
    cases hnext
    exact h.setSpool (h.shown.congr rfl rfl rfl rfl rfl rfl)
  | sweep index =>
    simp only [Teardown.next, Teardown.sweep] at hnext
    split_ifs at hnext
    cases hnext
    exact ⟨h.calls, h.holder, h.winners, h.reason, h.shown⟩
  | cleanup index event =>
    simp only [Teardown.next, Teardown.cleanupNext] at hnext
    split_ifs at hnext
    obtain ⟨spool, hspool, rfl⟩ := Option.map_eq_some_iff.mp hnext
    exact h.setSpool (h.shown.cleanupNext (fun _ => rfl) hspool)
  | takeReason => exact h.takeReason hnext
  | spool event =>
    simp only [Teardown.next] at hnext
    split_ifs at hnext with hshared
    obtain ⟨spool, hspool, rfl⟩ := Option.map_eq_some_iff.mp hnext
    refine h.setSpool (h.shown.next (fun _ => rfl) ?_ hspool)
    cases event with
    | emitEvent event => exact Bool.eq_false_of_not_eq_true' hordinary
    | publish ticket event => exact Bool.eq_false_of_not_eq_true' hordinary
    | takeReason reason => cases hshared
    | _ => exact trivial

theorem Marked.beginClosing (h : s.Marked) (drainSubmits : Bool) :
    (s.beginClosing drainSubmits).Marked := by
  unfold Teardown.beginClosing
  split
  · exact h
  · split_ifs
    · exact h
    · exact h
  · exact h

theorem Marked.closingNext (h : s.Marked) (hnext : s.closingNext = some s') : s'.Marked := by
  unfold Teardown.closingNext at hnext
  split at hnext
  · cases hnext
    exact h
  · cases hnext
    exact h
  · cases hnext
    exact h
  · cases hnext
    exact h
  · cases hnext

theorem Marked.lockAdmission (h : s.Marked) {owner : AdmissionOwner}
    (hnext : s.lockAdmission owner = some s') : s'.Marked := by
  unfold Teardown.lockAdmission at hnext
  split_ifs at hnext
  · cases hnext
    exact h
  · cases hnext
    exact h

theorem Marked.leave (h : s.Marked) (hnext : s.leave = some s') : s'.Marked := by
  unfold Teardown.leave at hnext
  split at hnext
  · cases hnext
    exact h
  · cases hnext
    exact h
  · cases hnext
    exact h
  · cases hnext

theorem Marked.resolve (h : s.Marked) {call : ℕ} (hnext : s.resolve call = some s') :
    s'.Marked := by
  unfold Teardown.resolve at hnext
  split at hnext
  · cases hnext
    exact h
  · cases hnext
    exact h
  · cases hnext

theorem Marked.lockReason (h : s.Marked) {call : ℕ} (hnext : s.lockReason call = some s') :
    s'.Marked := by
  unfold Teardown.lockReason at hnext
  split at hnext
  · split_ifs at hnext
    · cases hnext
      exact h
    · cases hnext
      exact h
  · cases hnext

theorem Marked.underReasonNext (h : s.Marked) (hnext : s.underReasonNext = some s') :
    s'.Marked := by
  unfold Teardown.underReasonNext at hnext
  split at hnext
  · split_ifs at hnext
    cases hnext
    exact h
  · cases hnext
    split_ifs
    · exact h
    · exact h
  · cases hnext
    exact h
  · cases hnext
    exact h
  · cases hnext
    exact h
  · cases hnext

theorem Marked.afterWin (h : s.Marked) {call : ℕ} (hnext : s.afterWin call = some s') :
    s'.Marked := by
  unfold Teardown.afterWin at hnext
  split at hnext
  · cases hnext
    exact h
  · cases hnext
    exact h
  · cases hnext

theorem Marked.next (hinv : s.Inv) (h : s.Marked) {event : TeardownStep}
    (hnext : s.next event = some s') : s'.Marked := by
  cases event with
  | peerTerminate =>
    cases hnext
    exact Or.inl rfl
  | beginClosing drainSubmits =>
    simp only [Teardown.next] at hnext
    split_ifs at hnext
    cases hnext
    exact h.beginClosing drainSubmits
  | closing => exact h.closingNext hnext
  | lockSubmit => exact h.lockAdmission hnext
  | lockHeartbeat => exact h.lockAdmission hnext
  | leave => exact h.leave hnext
  | resolve call => exact h.resolve hnext
  | lockReason call => exact h.lockReason hnext
  | underReason => exact h.underReasonNext hnext
  | afterWin call => exact h.afterWin hnext
  | cleanup index event =>
    simp only [Teardown.next, Teardown.cleanupNext] at hnext
    split_ifs at hnext
    obtain ⟨spool, hspool, rfl⟩ := Option.map_eq_some_iff.mp hnext
    exact h.imp_right (EventSpool.cleans_cleanupNext hspool).overflowed
  | spool event =>
    simp only [Teardown.next] at hnext
    split_ifs at hnext with hshared
    obtain ⟨spool, hspool, rfl⟩ := Option.map_eq_some_iff.mp hnext
    exact h.imp_right (EventSpool.carries_next hinv.held hshared hspool).overflowed
  | clearDrain | settleSubmit sequenceId | settleHeartbeat sequenceId | finish reason =>
    cases hnext
    exact h
  | _ =>
    simp only [Teardown.next, Teardown.insertSubmit, Teardown.insertHeartbeat, Teardown.sweep,
      Teardown.takeReason] at hnext
    split_ifs at hnext
    cases hnext
    exact h

end Teardown

namespace Graceful

variable {eventSpoolCapacity capacity : ℕ} {s s' : Graceful eventSpoolCapacity capacity}

/-- The step of the teardown below a step. -/
def below (s : Graceful eventSpoolCapacity capacity) : GracefulEvent → Option TeardownStep
  | .close => some (.beginClosing true)
  | .sequenceExhausted => some (.finish (some .channelClosed))
  | .terminate => some .clearDrain
  | .finish =>
    some (.finish (if s.teardown.peerTerminateSeen then some .terminated else none))
  | .readerFails failure =>
    if failure = .eof ∧ s.localTerminateAcked then none else some (.finish (some failure.reason))
  | .writerFails failure => some (.finish (some failure.reason))
  | .teardown event => some event
  | _ => none

theorem next_below {event : GracefulEvent} (hnext : s.next event = some s') :
    (s.below event = none ∧ s'.teardown = s.teardown) ∨
    ∃ step, s.below event = some step ∧ step.isOrdinary = true ∧
      s.teardown.next step = some s'.teardown := by
  cases event with
  | close =>
    simp only [next] at hnext
    split_ifs at hnext with hclose
    cases hnext
    exact Or.inr ⟨_, rfl, rfl, if_pos hclose.2.1⟩
  | readerFails failure =>
    simp only [next, readerFails] at hnext
    split_ifs at hnext with hrunning heof
    · cases hnext
      exact Or.inl ⟨if_pos heof, rfl⟩
    · cases hnext
      exact Or.inr ⟨_, if_neg heof, rfl, rfl⟩
  | teardown event =>
    simp only [next] at hnext
    split_ifs at hnext with hordinary
    obtain ⟨teardown, hteardown, rfl⟩ := Option.map_eq_some_iff.mp hnext
    exact Or.inr ⟨event, rfl, hordinary, hteardown⟩
  | finish =>
    simp only [next] at hnext
    split at hnext
    · cases hnext
      exact Or.inr ⟨_, rfl, rfl, rfl⟩
    · cases hnext
  | sequenceExhausted | terminate | writerFails failure =>
    simp only [next] at hnext
    split_ifs at hnext
    cases hnext
    exact Or.inr ⟨_, rfl, rfl, rfl⟩
  | _ =>
    simp only [next] at hnext
    split_ifs at hnext
    cases hnext
    exact Or.inl ⟨rfl, rfl⟩

/-- The reader cannot take an answer to TERMINATE any more. -/
def Unanswered (s : Graceful eventSpoolCapacity capacity) : Prop :=
  s.localTerminateAcked = false ∧
    (s.readerRunning = false ∨ s.closer = .ended ∧ s.pendingTerminate = false)

theorem Unanswered.next (h : s.Unanswered) {event : GracefulEvent}
    (hnext : s.next event = some s') : s'.Unanswered := by
  obtain ⟨hacked, hrest⟩ := h
  cases event with
  | terminateResp =>
    simp only [Graceful.next] at hnext
    split_ifs at hnext with hguard
    rcases hrest with hstopped | ⟨_, hnone⟩
    · cases hstopped.symm.trans hguard.1
    · cases hnone.symm.trans hguard.2
  | readerFails failure =>
    simp only [Graceful.next, readerFails] at hnext
    split_ifs at hnext
    · cases hnext
      exact ⟨hacked, Or.inl rfl⟩
    · cases hnext
      exact ⟨hacked, Or.inl rfl⟩
  | readerReturns =>
    simp only [Graceful.next] at hnext
    split_ifs at hnext
    cases hnext
    exact ⟨hacked, Or.inl rfl⟩
  | dropTerminate =>
    simp only [Graceful.next] at hnext
    split_ifs at hnext
    cases hnext
    exact ⟨hacked, hrest.imp_right fun hended => ⟨hended.1, rfl⟩⟩
  | writerClosed | writerFails failure =>
    simp only [Graceful.next] at hnext
    split_ifs at hnext
    cases hnext
    exact ⟨hacked, hrest⟩
  | teardown event =>
    simp only [Graceful.next] at hnext
    split_ifs at hnext
    obtain ⟨teardown, _, rfl⟩ := Option.map_eq_some_iff.mp hnext
    exact ⟨hacked, hrest⟩
  | close =>
    simp only [Graceful.next] at hnext
    split_ifs at hnext with hclose
    cases hnext
    refine ⟨hacked, hrest.imp_right fun hended => ?_⟩
    cases hclose.1.symm.trans hended.1
  | finish =>
    simp only [Graceful.next] at hnext
    split at hnext
    · cases hnext
      exact ⟨hacked, hrest.imp_right fun hended => ⟨rfl, hended.2⟩⟩
    · cases hnext
  | _ =>
    simp only [Graceful.next] at hnext
    split_ifs at hnext with hstage
    cases hnext
    refine ⟨hacked, hrest.imp_right fun hended => ?_⟩
    cases hstage.symm.trans hended.1

/-- A reason that comes now is too late, or a flag goes before it. -/
def isOver (s : Graceful eventSpoolCapacity capacity) : Bool :=
  s.teardown.phase = .closed || s.teardown.peerTerminateSeen || s.teardown.spool.eventOverflowed

/-- While the connection is not closed no write fails, no other task brings a reason, and after the
answer to TERMINATE the reader sees nothing worse than the end of the file. -/
def isPeaceful (s : Graceful eventSpoolCapacity capacity) : GracefulEvent → Bool
  | .readerFails failure => failure = .eof || !s.localTerminateAcked || s.isOver
  | .writerFails _ | .teardown (.finish (some _)) => s.isOver
  | _ => true

/-- The answer to the local TERMINATE was processed, and neither flag is set: no reason has won, and
no event says that the connection is gone. -/
def EndsNormally (s : Graceful eventSpoolCapacity capacity) : Prop :=
  s.localTerminateAcked = true → s.teardown.peerTerminateSeen = false →
    s.teardown.spool.eventOverflowed = false →
    (∀ winner ∈ s.teardown.winners, winner.2 = none) ∧
    ∀ event ∈ s.teardown.spool.stream.events.sent, event.isDisconnected = false

structure Inv (s : Graceful eventSpoolCapacity capacity) : Prop where
  teardown : s.teardown.Inv
  early : s.closer = .idle ∨ s.closer = .submitting →
    s.pendingTerminate = false ∧ s.localTerminateAcked = false
  calm : s.teardown.Marked ∨ s.Unanswered ∨ s.teardown.Calm

theorem Inv.early_next (h : s.Inv) {event : GracefulEvent} (hnext : s.next event = some s')
    (hstage : s'.closer = .idle ∨ s'.closer = .submitting) :
    s'.pendingTerminate = false ∧ s'.localTerminateAcked = false := by
  cases event with
  | close =>
    simp only [Graceful.next] at hnext
    split_ifs at hnext with hclose
    cases hnext
    exact h.early (Or.inl hclose.1)
  | terminateResp =>
    simp only [Graceful.next] at hnext
    split_ifs at hnext with hguard
    cases hnext
    cases (h.early hstage).1.symm.trans hguard.2
  | dropTerminate =>
    simp only [Graceful.next] at hnext
    split_ifs at hnext
    cases hnext
    exact ⟨rfl, (h.early hstage).2⟩
  | finish =>
    simp only [Graceful.next] at hnext
    split at hnext
    · cases hnext
      obtain ⟨⟨⟩⟩ | ⟨⟨⟩⟩ := hstage
    · cases hnext
  | sequenceExhausted | terminate | handshakeOver | ticketsDrained =>
    simp only [Graceful.next] at hnext
    split_ifs at hnext
    cases hnext
    obtain ⟨⟨⟩⟩ | ⟨⟨⟩⟩ := hstage
  | readerFails failure =>
    simp only [Graceful.next, readerFails] at hnext
    split_ifs at hnext
    · cases hnext
      exact h.early hstage
    · cases hnext
      exact h.early hstage
  | teardown event =>
    simp only [Graceful.next] at hnext
    split_ifs at hnext
    obtain ⟨teardown, _, rfl⟩ := Option.map_eq_some_iff.mp hnext
    exact h.early hstage
  | _ =>
    simp only [Graceful.next] at hnext
    split_ifs at hnext
    cases hnext
    exact h.early hstage

/-- A reason that a peaceful step brings does not count, or there is no answer to come. -/
theorem Inv.finish_peaceful (h : s.Inv) {event : GracefulEvent}
    (hpeaceful : s.isPeaceful event = true) (hnext : s.next event = some s') {error : Error}
    (hbelow : s.below event = some (.finish (some error))) :
    s.teardown.phase = .closed ∨ s.teardown.Marked ∨ s'.Unanswered := by
  have hover (hover : s.isOver = true) :
      s.teardown.phase = .closed ∨ s.teardown.Marked ∨ s'.Unanswered := by
    unfold isOver at hover
    rcases Bool.or_eq_true_iff.mp hover with hover | hmarked
    · rcases Bool.or_eq_true_iff.mp hover with hclosed | hpeer
      · exact Or.inl (of_decide_eq_true hclosed)
      · exact Or.inr (Or.inl (Or.inl hpeer))
    · exact Or.inr (Or.inl (Or.inr hmarked))
  cases event with
  | close => cases hbelow
  | terminate => cases hbelow
  | sequenceExhausted =>
    simp only [Graceful.next] at hnext
    split_ifs at hnext with hstage
    cases hnext
    obtain ⟨hpending, hacked⟩ := h.early (Or.inr hstage)
    exact Or.inr (Or.inr ⟨hacked, Or.inr ⟨rfl, hpending⟩⟩)
  | finish =>
    simp only [below] at hbelow
    split_ifs at hbelow with hpeer
    · exact Or.inr (Or.inl (Or.inl hpeer))
    · cases hbelow
  | readerFails failure =>
    simp only [below] at hbelow
    split_ifs at hbelow with heof
    have hunacked (hacked : s.localTerminateAcked = false) : s'.Unanswered := by
      simp only [Graceful.next, readerFails, if_neg heof] at hnext
      split_ifs at hnext
      cases hnext
      exact ⟨hacked, Or.inl rfl⟩
    simp only [isPeaceful, Bool.or_eq_true, decide_eq_true_eq, Bool.not_eq_true'] at hpeaceful
    rcases hpeaceful with (hfailure | hacked) | hover'
    · refine Or.inr (Or.inr (hunacked (Bool.eq_false_of_not_eq_true fun hacked => ?_)))
      exact heof ⟨hfailure, hacked⟩
    · exact Or.inr (Or.inr (hunacked hacked))
    · exact hover hover'
  | writerFails failure => exact hover hpeaceful
  | teardown event =>
    obtain rfl := Option.some.inj hbelow
    exact hover hpeaceful
  | _ => cases hbelow

theorem Inv.next (h : s.Inv) {event : GracefulEvent} (hpeaceful : s.isPeaceful event = true)
    (hnext : s.next event = some s') : s'.Inv := by
  rcases next_below hnext with ⟨hnone, hsame⟩ | ⟨step, hbelow, hordinary, hstep⟩
  · refine ⟨hsame ▸ h.teardown, h.early_next hnext, ?_⟩
    rw [hsame]
    exact h.calm.imp_right fun hrest => hrest.imp_left fun hunanswered => hunanswered.next hnext
  · refine ⟨h.teardown.next hstep, h.early_next hnext, ?_⟩
    by_cases hmarked : s.teardown.Marked
    · exact Or.inl (hmarked.next h.teardown hstep)
    · by_cases hunanswered : s'.Unanswered
      · exact Or.inr (Or.inl hunanswered)
      · rcases h.calm.resolve_left hmarked with hearlier | hcalm
        · exact absurd (hearlier.next hnext) hunanswered
        · refine Or.inr (Or.inr (hcalm.next h.teardown hmarked hordinary ?_ hstep))
          rintro error rfl
          exact (h.finish_peaceful hpeaceful hnext hbelow).resolve_right fun hrest =>
            hrest.elim hmarked hunanswered

theorem Inv.initial : (initial eventSpoolCapacity capacity).Inv := by
  refine ⟨.initial, fun _ => ⟨rfl, rfl⟩, Or.inr (Or.inr ?_)⟩
  exact ⟨Or.inr (List.forall_mem_nil _), by rintro _ ⟨⟩, List.forall_mem_nil _, rfl, .initial⟩

theorem Inv.endsNormally (h : s.Inv) : s.EndsNormally := by
  intro hacked hpeer hover
  have hmarked : ¬ s.teardown.Marked := by
    rintro (hset | hset)
    · cases hpeer.symm.trans hset
    · cases hover.symm.trans hset
  have hunanswered : ¬ s.Unanswered := fun hnone => by cases hnone.1.symm.trans hacked
  have hcalm := (h.calm.resolve_left hmarked).resolve_left hunanswered
  exact ⟨hcalm.winners, hcalm.shown.stream.sent⟩

/-- A local close whose TERMINATE was answered ends the events without a reason, in every run in
which nothing worse than the end of the file is seen before the connection is closed. -/
theorem ends_normally {history : List GracefulEvent}
    (hrun : ((machine eventSpoolCapacity capacity).restrict fun s event =>
      s.isPeaceful event = true).Run history s) : s.EndsNormally := by
  have hinv : s.Inv := by
    refine hrun.invariant (I := fun _ s => s.Inv) ?_ ?_
    · rintro s rfl
      exact .initial
    · rintro _ s event s' h ⟨hnext, hpeaceful⟩
      exact h.next hpeaceful hnext
  exact hinv.endsNormally

/-- The peer answers, closes the socket, and the events end without a reason. -/
theorem ends_normally_answered : ∃ history s,
    ((machine 2 2).restrict fun s event => s.isPeaceful event = true).Run history s ∧
    s.localTerminateAcked = true ∧ s.teardown.winners = [(0, none)] ∧
    s.teardown.spool.stream.stage = .exited ∧
    ∀ event ∈ s.teardown.spool.stream.events.sent, event.isDisconnected = false := by
  have hexec : (Machine.exec (fun s event => if isPeaceful s event then next s event else none)
      (initial 2 2) ([.close] ++ List.replicate 4 (.teardown .closing) ++
        [.teardown (.spool .beginEventDrain), .terminate, .terminateResp, .readerFails .eof,
          .handshakeOver, .teardown (.spool .sealIfIdle), .ticketsDrained, .finish,
          .teardown (.resolve 0), .teardown (.resolve 0), .teardown (.lockReason 0)] ++
        List.replicate 5 (.teardown .underReason) ++
        [.teardown (.afterWin 0), .teardown (.afterWin 0), .writerClosed,
          .teardown (.cleanup 0 (.drain [])), .teardown (.sweep 0),
          .teardown (.cleanup 0 .closeSpool), .teardown .takeReason,
          .teardown (.spool .sendTerminal), .teardown (.spool (.dispatcher .advance))])).map
        (fun s => (s.localTerminateAcked, s.teardown.winners, s.teardown.spool.stream.stage,
          decide (s.teardown.peerTerminateSeen = false ∧
            s.teardown.spool.eventOverflowed = false))) =
      some (true, [(0, none)], .exited, true) := by decide +kernel
  obtain ⟨s, hrun, hview⟩ := Machine.exists_run_restrict_of_exec _ hexec
  obtain ⟨hacked, hview⟩ := Prod.mk.inj hview
  obtain ⟨hwinners, hview⟩ := Prod.mk.inj hview
  obtain ⟨hstage, hflags⟩ := Prod.mk.inj hview
  obtain ⟨hpeer, hover⟩ := of_decide_eq_true hflags
  exact ⟨_, s, hrun, hacked, hwinners, hstage, (ends_normally hrun hacked hpeer hover).2⟩

/-- The peer answers and resets the connection while the driver waits for the tickets. -/
theorem reset_wins : ∃ history s, (machine 2 2).Run history s ∧ s.closer = .finishing ∧
    s.localTerminateAcked = true ∧ s.teardown.peerTerminateSeen = false ∧
    s.teardown.spool.eventOverflowed = false ∧
    s.teardown.winners = [(0, some (.io "reset"))] ∧
    s.teardown.spool.stream.events.sent = [.disconnected (.io "reset")] := by
  have hexec : (Machine.exec next (initial 2 2) ([.close] ++
        List.replicate 4 (.teardown .closing) ++
        [.teardown (.spool .beginEventDrain), .terminate, .terminateResp,
          .readerFails (.readError "reset"), .handshakeOver, .teardown (.spool .sealIfIdle),
          .ticketsDrained, .teardown (.resolve 0), .teardown (.resolve 0),
          .teardown (.lockReason 0)] ++ List.replicate 5 (.teardown .underReason) ++
        [.teardown (.afterWin 0), .teardown (.afterWin 0),
          .teardown (.cleanup 0 (.drain [])), .teardown (.sweep 0),
          .teardown (.cleanup 0 .closeSpool), .teardown .takeReason,
          .teardown (.spool .sendTerminal), .teardown (.spool (.dispatcher .advance))])).map
        (fun s => (s.teardown.winners, s.teardown.spool.stream.events.sent,
          decide (s.closer = .finishing ∧ s.localTerminateAcked = true ∧
            s.teardown.peerTerminateSeen = false ∧ s.teardown.spool.eventOverflowed = false))) =
      some ([(0, some (.io "reset"))], [.disconnected (.io "reset")], true) := by decide +kernel
  obtain ⟨s, hrun, hview⟩ := Machine.exists_run_of_exec _ hexec
  obtain ⟨hwinners, hview⟩ := Prod.mk.inj hview
  obtain ⟨hsent, hflags⟩ := Prod.mk.inj hview
  obtain ⟨hcloser, hacked, hpeer, hover⟩ := of_decide_eq_true hflags
  exact ⟨_, s, hrun, hcloser, hacked, hpeer, hover, hwinners, hsent⟩

end Graceful

end CmppProtocol
