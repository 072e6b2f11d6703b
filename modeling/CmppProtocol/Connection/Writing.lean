import CmppProtocol.Connection.Simulation

/-! # What the writer can do

Each way in which the writer can move is a constructor, with the guards that it
has passed and the state that it leaves.
-/

namespace CmppProtocol

namespace WriterStage

/-- The permission with which the writer asks the queues. -/
def asks : WriterStage → Option Bool
  | .selecting canSendSubmit => some canSendSubmit
  | .selectingSecond canSendSubmit => some canSendSubmit
  | .picking canSubmitNow => some canSubmitNow
  | .pickingSecond canSubmitNow => some canSubmitNow
  | _ => none

end WriterStage

namespace Connection

variable {config : ConnectionConfig} {s s' : Connection}

inductive WriterMove (s : Connection) : WriterEvent → Connection → Prop
  | stop (event : WriterEvent) :
    s.phase = .closed → WriterMove s event (s.setStage .stopped)
  | top (canSendSubmit : Bool) :
    s.writer.stage = .selecting canSendSubmit ∨ s.writer.stage = .selectingSecond canSendSubmit →
    WriterMove s .phaseChanged (s.setStage .top)
  | select : s.writer.stage = .top → WriterMove s .advance (s.setStage (.selecting s.canSendSubmit))
  | second (canSendSubmit : Bool) :
    s.writer.stage = .selecting canSendSubmit → s.receive (s.submitFirst canSendSubmit) = none →
    WriterMove s .advance (s.setStage (.selectingSecond canSendSubmit))
  | again (canSendSubmit : Bool) :
    s.writer.stage = .selectingSecond canSendSubmit →
    (canSendSubmit = true → s.receive (!s.submitFirst canSendSubmit) = none) →
    WriterMove s .advance (s.setStage (.selecting canSendSubmit))
  | pickSecond (canSubmitNow : Bool) :
    s.writer.stage = .picking canSubmitNow →
    WriterMove s .advance (s.setStage (.pickingSecond canSubmitNow))
  | takeSubmit (allowed : Bool) (outbound : Outbound) (submitQueue : List Outbound) :
    s.writer.stage.asks = some allowed → s.submitQueue = outbound :: submitQueue →
    WriterMove s .advance (({ s with submitQueue } : Connection).setStage (.received outbound true))
  | takeControl (allowed : Bool) (outbound : Outbound) (controlQueue : List Outbound) :
    s.writer.stage.asks = some allowed → s.controlQueue = outbound :: controlQueue →
    WriterMove s .advance
      (({ s with controlQueue } : Connection).setStage (.received outbound false))
  | marker (outbound : Outbound) (isSubmit : Bool) :
    s.writer.stage = .received outbound isSubmit → outbound.submitDrainMarker = true →
    WriterMove s .advance { s.countBurst isSubmit with
      writer := { (s.countBurst isSubmit).writer with
        stage := .assembled, pendingMarker := some outbound } }
  | fail (writer : Writer) (outbound : Outbound) :
    s.writer.stage.hand = some outbound → writer.status = s.writer.status →
    writer.batch = s.writer.batch → writer.stage = .failing →
    WriterMove s .advance { s with writer }
  | screened (outbound : Outbound) (isSubmit : Bool)
      (heartbeatPending : OrderedMap ℕ PendingHeartbeat) :
    s.writer.stage = .received outbound isSubmit → outbound.submitDrainMarker = false →
    heartbeatPending.size = s.heartbeatPending.size →
    WriterMove s .advance (({ s.countBurst isSubmit with heartbeatPending } : Connection).setStage
      (.screened outbound))
  | stale (outbound : Outbound) (isSubmit : Bool)
      (heartbeatPending : OrderedMap ℕ PendingHeartbeat) :
    s.writer.stage = .received outbound isSubmit → outbound.heartbeatAttempt ≠ none →
    heartbeatPending.size = s.heartbeatPending.size →
    WriterMove s .advance (({ s.countBurst isSubmit with heartbeatPending } : Connection).setStage
      .harvesting)
  | skip (outbound : Outbound) :
    s.writer.stage = .screened outbound → outbound.openOnly = true → s.phase ≠ .opened →
    WriterMove s .advance (s.setStage .harvesting)
  | admitOutbound (outbound : Outbound) :
    s.writer.stage = .screened outbound → WriterMove s .advance (s.setStage (.admitted outbound))
  | cancel (outbound : Outbound) :
    s.writer.stage = .admitted outbound → outbound.cancelAfterPeerTerminate = true →
    WriterMove s .advance (s.setStage .harvesting)
  | push (outbound : Outbound) :
    s.writer.stage = .admitted outbound →
    WriterMove s .advance { s with writer := { s.writer with
      stage := .harvesting
      batch := s.writer.batch ++ [outbound]
      batchBytes := s.writer.batchBytes + outbound.packet.length } }
  | pick :
    s.writer.stage = .harvesting → WriterMove s .advance (s.setStage (.picking s.canSendSubmit))
  | assemble :
    s.writer.stage = .harvesting ∨ (∃ allowed, s.writer.stage = .pickingSecond allowed) →
    WriterMove s .advance (s.setStage .assembled)
  | claim : s.writer.stage = .assembled → WriterMove s .advance s.claimBatch
  | dropBatch : s.writer.stage = .claimed → s.writer.batch = [] → WriterMove s .advance s.afterBatch
  | hand :
    s.writer.stage = .claimed →
    WriterMove s .advance { s with
      writer := { s.writer with stage := .writing, status := .handed }
      log := { s.log with handed := s.log.handed ++ s.writer.batch } }
  | written :
    s.writer.stage = .writing →
    WriterMove s .written { s with
      writer := { s.writer with stage := .wrote, status := .written s.clock }
      log := { s.log with
        written := s.log.written ++ s.writer.batch.map fun outbound => (outbound, s.clock) } }
  | failWrite : s.writer.stage = .writing → WriterMove s .failed (s.setStage .failing)
  | complete (writtenAt : ℕ) :
    s.writer.stage = .wrote → s.writer.status = .written writtenAt →
    WriterMove s .advance { s.setPending (completeSubmitAttempts writtenAt s.pendingSubmits
        (s.writer.batch.filterMap Outbound.submitAttempt)) with
      writer := { s.writer with
        stage := .publishing s.writer.batch, status := .completed writtenAt } }
  | endBatch : s.writer.stage = .publishing [] → WriterMove s .advance s.afterBatch
  | publish (outbound : Outbound) (rest : List Outbound)
      (heartbeatPending : OrderedMap ℕ PendingHeartbeat)
      (peerTerminateResponseWritten terminateWritten : Bool) :
    s.writer.stage = .publishing (outbound :: rest) →
    heartbeatPending.size = s.heartbeatPending.size →
    WriterMove s .advance (({ s with
      heartbeatPending, peerTerminateResponseWritten, terminateWritten } : Connection).setStage
        (.signalling outbound.writtenTx rest))
  | signal (writtenTx : Option WrittenTx) (rest : List Outbound) :
    s.writer.stage = .signalling writtenTx rest →
    WriterMove s .advance (({ s with signalled := s.signalled ++ writtenTx.toList } :
      Connection).setStage (.publishing rest))
  | answer :
    s.writer.stage = .answering →
    WriterMove s .advance (({ s with drainSubmitsOnClose := false } : Connection).setStage
      .signallingMarker)
  | signalMarker :
    s.writer.stage = .signallingMarker →
    WriterMove s .advance { s with
      writer := { s.writer with stage := .top, pendingMarker := none }
      signalled := s.signalled ++ (s.writer.pendingMarker.bind Outbound.writtenTx).toList }
  | giveUp : s.writer.stage = .failing → WriterMove s .advance (s.finish.setStage .stopped)

theorem claimHeartbeatAttempt_size (s : Connection) (key : HeartbeatAttemptKey) :
    (s.claimHeartbeatAttempt key).2.heartbeatPending.size = s.heartbeatPending.size := by
  rw [claimHeartbeatAttempt]
  split_ifs
  · rfl
  split
  · split_ifs
    · exact OrderedMap.size_set
    · rfl
  · rfl

theorem completeHeartbeatAttempt_size (s : Connection) (key : HeartbeatAttemptKey) (writtenAt : ℕ) :
    (s.completeHeartbeatAttempt key writtenAt).heartbeatPending.size =
      s.heartbeatPending.size := by
  rw [completeHeartbeatAttempt]
  split
  · split_ifs
    · exact OrderedMap.size_set
    · rfl
  · rfl

theorem publishFrame_size (s : Connection) (outbound : Outbound) (writtenAt : ℕ)
    (rest : List Outbound) :
    (s.publishFrame outbound writtenAt rest).heartbeatPending.size = s.heartbeatPending.size := by
  cases hattempt : outbound.heartbeatAttempt with
  | none =>
    rw [publishFrame, hattempt]
    rfl
  | some key =>
    rw [publishFrame, hattempt]
    exact s.completeHeartbeatAttempt_size key writtenAt

theorem receive_move {fromSubmit allowed : Bool} (hasks : s.writer.stage.asks = some allowed)
    (h : s.receive fromSubmit = some s') : WriterMove s .advance s' := by
  rw [receive] at h
  split at h
  · split at h
    · cases h
    · next outbound submitQueue hqueue =>
      cases h
      exact .takeSubmit allowed outbound submitQueue hasks hqueue
  · split at h
    · cases h
    · next outbound controlQueue hqueue =>
      cases h
      exact .takeControl allowed outbound controlQueue hasks hqueue

theorem screen_move {outbound : Outbound} {isSubmit : Bool}
    (hstage : s.writer.stage = .received outbound isSubmit) :
    WriterMove s .advance (s.screen outbound isSubmit) := by
  have hhand : s.writer.stage.hand = some outbound := by
    rw [hstage]
    rfl
  rw [screen]
  split_ifs with hmarker hfail
  · exact .marker outbound isSubmit hstage hmarker
  · exact .fail _ outbound hhand rfl rfl rfl
  have hmarker : outbound.submitDrainMarker = false := Bool.eq_false_of_not_eq_true hmarker
  split
  · exact .screened outbound isSubmit s.heartbeatPending hstage hmarker rfl
  · next key hkey =>
    have hsize := (s.countBurst isSubmit).claimHeartbeatAttempt_size key
    obtain ⟨heartbeatPending, heq⟩ := (s.countBurst isSubmit).claimHeartbeatAttempt_eq key
    cases hclaim : (s.countBurst isSubmit).claimHeartbeatAttempt key with
    | mk claimed t =>
      rw [hclaim] at heq hsize
      cases heq
      cases claimed with
      | true => exact .screened outbound isSubmit heartbeatPending hstage hmarker hsize
      | false =>
        exact .stale outbound isSubmit heartbeatPending hstage (by rw [hkey]; rintro ⟨⟩) hsize

theorem push_move {outbound : Outbound} (hstage : s.writer.stage = .admitted outbound) :
    WriterMove s .advance (s.push config outbound) := by
  rw [push]
  split_ifs with hcancel
  · exact .cancel outbound hstage hcancel.1
  split
  · split_ifs
    · exact .fail _ outbound (by rw [hstage]; rfl) rfl rfl rfl
    · exact .push outbound hstage
  · exact .push outbound hstage

theorem writerAdvance_move (h : s.writerAdvance config = some s') : WriterMove s .advance s' := by
  rw [writerAdvance] at h
  split at h
  · next hstage =>
    split_ifs at h with hphase
    · cases h
      exact .stop .advance hphase
    · cases h
      exact .select hstage
  · next canSendSubmit hstage =>
    cases h
    cases hreceive : s.receive (s.submitFirst canSendSubmit) with
    | none => exact .second canSendSubmit hstage hreceive
    | some t => exact receive_move (by rw [hstage]; rfl) hreceive
  · next canSendSubmit hstage =>
    cases h
    cases hreceive :
        (if canSendSubmit then s.receive (!s.submitFirst canSendSubmit) else none) with
    | none =>
      refine .again canSendSubmit hstage fun hallowed => ?_
      rw [if_pos hallowed] at hreceive
      exact hreceive
    | some t =>
      obtain ⟨first, ht⟩ := receive_of_ite t hreceive
      exact receive_move (by rw [hstage]; rfl) ht
  · next outbound isSubmit hstage =>
    cases h
    exact screen_move hstage
  · next outbound hstage =>
    split_ifs at h with hskip
    · cases h
      exact .skip outbound hstage hskip.1 hskip.2
    · cases h
      exact .admitOutbound outbound hstage
  · next outbound hstage =>
    cases h
    exact push_move hstage
  · next hstage =>
    split_ifs at h
    · cases h
      exact .assemble (Or.inl hstage)
    · cases h
      exact .pick hstage
  · next canSubmitNow hstage =>
    cases h
    cases hreceive : s.receive (s.submitFirst canSubmitNow) with
    | none => exact .pickSecond canSubmitNow hstage
    | some t => exact receive_move (by rw [hstage]; rfl) hreceive
  · next canSubmitNow hstage =>
    cases h
    cases hreceive :
        (if canSubmitNow then s.receive (!s.submitFirst canSubmitNow) else none) with
    | none => exact .assemble (Or.inr ⟨canSubmitNow, hstage⟩)
    | some t =>
      obtain ⟨first, ht⟩ := receive_of_ite t hreceive
      exact receive_move (by rw [hstage]; rfl) ht
  · next hstage =>
    cases h
    exact .claim hstage
  · next hstage =>
    split_ifs at h with hbatch
    · cases h
      exact .dropBatch hstage hbatch
    · cases h
      exact .hand hstage
  · cases h
  · next hstage =>
    split at h
    · next writtenAt hstatus =>
      cases h
      exact .complete writtenAt hstage hstatus
    · cases h
  · next hstage =>
    cases h
    exact .endBatch hstage
  · next outbound rest hstage =>
    split at h
    · next writtenAt _ =>
      cases h
      have hsize := s.publishFrame_size outbound writtenAt rest
      obtain ⟨_, heq⟩ := s.publishFrame_eq outbound writtenAt rest
      rw [heq] at hsize ⊢
      exact .publish outbound rest _ _ _ hstage hsize
    · cases h
  · next writtenTx rest hstage =>
    cases h
    exact .signal writtenTx rest hstage
  · next hstage =>
    cases h
    exact .answer hstage
  · next hstage =>
    cases h
    exact .signalMarker hstage
  · next hstage =>
    cases h
    exact .giveUp hstage
  · cases h

/-- Every step of the writer is one of its moves. -/
theorem writerNext_move {event : WriterEvent} (h : s.writerNext config event = some s') :
    WriterMove s event s' := by
  cases event with
  | advance => exact writerAdvance_move h
  | phaseChanged =>
    simp only [writerNext] at h
    split at h
    · next canSendSubmit hstage =>
      cases h
      exact .top canSendSubmit (Or.inl hstage)
    · next canSendSubmit hstage =>
      cases h
      exact .top canSendSubmit (Or.inr hstage)
    · cases h
  | written =>
    simp only [writerNext] at h
    split at h
    · next hstage =>
      cases h
      exact .written hstage
    · cases h
  | failed =>
    simp only [writerNext] at h
    split at h
    · next hstage =>
      cases h
      exact .failWrite hstage
    · cases h
  | closed =>
    simp only [writerNext] at h
    split_ifs at h with hphase
    have hclosed := not_not.mp hphase
    split at h
    all_goals cases h
    all_goals exact .stop .closed hclosed

end Connection

end CmppProtocol
