import CmppProtocol.Connection.Dispatch
import CmppProtocol.Connection.Reported
import CmppProtocol.Connection.Requests
import CmppProtocol.Submit.Reuse
import CmppProtocol.Wire.Partial

/-! # What goes out

The octets on the socket are those of frames, and the other side reads just these
frames. The responses answer the requests that were read, in their order.
-/

namespace CmppProtocol

namespace Outbound

/-- A frame that answers one of the peer. -/
def isAnswer (outbound : Outbound) : Bool :=
  outbound.submitAttempt.isNone && outbound.heartbeatAttempt.isNone &&
    !outbound.submitDrainMarker && !outbound.writtenFlag

theorem IsQueued.not_isAnswer {outbound : Outbound} (h : outbound.IsQueued) :
    outbound.isAnswer = false := by
  rcases h with ⟨packet, key, rfl⟩ | rfl
  · rfl
  · rfl

end Outbound

namespace Connection

variable {gbk : Gbk} {config : ConnectionConfig} {s s' : Connection}

/-! ## Frames that pass the writer -/

/-- The frames on the socket and those on their way to it, in their order. -/
def traffic (s : Connection) : List Outbound := s.log.handed ++ s.underway

variable (p : Outbound → Bool)

theorem traffic_release (hhanded : s'.log.handed = s.log.handed)
    (hcontrol : s'.controlQueue = s.controlQueue) (hbatch : s'.writer.batch = s.writer.batch)
    (hstatus : s'.writer.status = s.writer.status)
    (hhand : s'.writer.stage.hand = none ∨ s'.writer.stage.hand = s.writer.stage.hand) :
    (s'.traffic.filter p).Sublist (s.traffic.filter p) := by
  apply List.Sublist.filter
  rw [traffic, hhanded]
  exact (underway_release hcontrol hbatch hstatus hhand).append_left _

theorem traffic_afterBatch (s : Connection) :
    (s.afterBatch.traffic.filter p).Sublist (s.traffic.filter p) := by
  apply List.Sublist.filter
  rw [traffic, underway_afterBatch, traffic, underway]
  refine List.Sublist.append_left ?_ _
  exact (List.sublist_append_right _ _).trans (List.sublist_append_right _ _)

theorem underway_batch (hw : s.Wired config)
    (hstage : s.writer.stage = .assembled ∨ s.writer.stage = .claimed) :
    s.underway = s.writer.batch ++ s.controlQueue := by
  have hstaged := hw.writer.stage
  rw [Writer.Staged] at hstaged
  rcases hstage with hstage | hstage
  · rw [hstage] at hstaged
    rw [underway, unhanded, hstaged, hstage]
    rfl
  · rw [hstage] at hstaged
    rw [underway, unhanded, hstaged, hstage]
    rfl

theorem traffic_takeSubmit (s : Connection) (outbound : Outbound) (submitQueue : List Outbound) :
    (({ s with submitQueue } : Connection).setStage (.received outbound true)).traffic =
      s.log.handed ++ (unhanded s.writer ++ outbound :: s.controlQueue) := rfl

/-- The writer takes SUBMITs out of their queue, drops frames and keeps the order of the others. -/
theorem traffic_writerMove (hw : s.Wired config) {event : WriterEvent}
    (hmove : WriterMove s event s')
    (hqueued : ∀ o : Outbound, o.IsQueued → p o = false) :
    (s'.traffic.filter p).Sublist (s.traffic.filter p) := by
  have hstaged := hw.writer.stage
  rw [Writer.Staged] at hstaged
  cases hmove with
  | takeSubmit allowed outbound submitQueue hasks hqueue =>
    have hout := hqueued outbound (hw.submits outbound (hqueue ▸ List.mem_cons_self))
    rw [traffic_takeSubmit, traffic, underway_of_asks hasks]
    simp only [List.filter_append, List.filter_cons, hout, Bool.false_eq_true, if_false]
    exact List.Sublist.refl _
  | takeControl allowed outbound controlQueue hasks hqueue =>
    rw [traffic, traffic, underway_of_asks hasks, hqueue]
    exact List.Sublist.refl _
  | push outbound hstage =>
    rw [hstage] at hstaged
    simp only [traffic, underway, unhanded, hstaged.1, hstage]
    rw [List.append_assoc]
    exact List.Sublist.refl _
  | claim hstage =>
    apply List.Sublist.filter
    have hsub : (claimSubmitAttempts s.canSendSubmit s.pendingSubmits s.writer.batch).2.Sublist
        s.writer.batch := by
      rw [claimSubmitAttempts_eq]
      exact Compaction.sweep_sublist _ _
    rw [traffic, traffic, underway_batch hw (Or.inl hstage)]
    exact (hsub.append_right _).append_left _
  | hand hstage =>
    apply List.Sublist.filter
    rw [traffic, traffic, underway_batch hw (Or.inr hstage), ← List.append_assoc]
    exact List.Sublist.refl _
  | written hstage =>
    rw [hstage] at hstaged
    apply List.Sublist.filter
    rw [traffic, traffic, underway, underway, unhanded, unhanded, hstaged, hstage]
    exact List.Sublist.refl _
  | complete writtenAt hstage hstatus =>
    apply List.Sublist.filter
    rw [traffic, traffic, underway, underway, unhanded, unhanded, hstatus, hstage]
    exact List.Sublist.refl _
  | dropBatch hstage hbatch => exact traffic_afterBatch p s
  | endBatch hstage => exact traffic_afterBatch p s
  | giveUp hstage =>
    rw [finish_eq]
    exact traffic_release p rfl rfl rfl rfl (Or.inl rfl)
  | fail writer outbound hhand hstatus hbatch hfailing =>
    exact traffic_release p rfl rfl hbatch hstatus (Or.inl (by rw [hfailing]; rfl))
  | admitOutbound outbound hstage =>
    exact traffic_release p rfl rfl rfl rfl (Or.inr (by rw [hstage]; rfl))
  | screened outbound isSubmit heartbeatPending hstage hmarker hsize =>
    exact traffic_release p rfl rfl rfl rfl (Or.inr (by rw [hstage]; rfl))
  | _ => exact traffic_release p rfl rfl rfl rfl (Or.inl rfl)

/-- The writer lets go of a frame that does not count. -/
theorem traffic_drop (hhanded : s'.log.handed = s.log.handed)
    (hcontrol : s'.controlQueue = s.controlQueue) (hbatch : s'.writer.batch = s.writer.batch)
    (hstatus : s'.writer.status = s.writer.status) (hnone : s'.writer.stage.hand = none)
    (hhand : ∀ o, s.writer.stage.hand = some o → p o = false) :
    s'.traffic.filter p = s.traffic.filter p := by
  have hunhanded : unhanded s'.writer = unhanded s.writer := by
    rw [unhanded, unhanded, hstatus, hbatch]
  rw [traffic, traffic, underway, underway, hhanded, hcontrol, hunhanded, hnone]
  cases hold : s.writer.stage.hand with
  | none => rfl
  | some o =>
    simp only [List.filter_append, Option.toList_none, Option.toList_some, List.filter_cons,
      hhand o hold, Bool.false_eq_true, if_false]

theorem isAnswer_claimed (allowed : Bool) (o : Outbound) (h : o.isAnswer = true)
    (pending : PendingSubmits) : (claimFrame allowed pending o).1 = true := by
  cases hkey : o.submitAttempt with
  | none => simp only [claimFrame, hkey]
  | some key => simp [Outbound.isAnswer, hkey] at h

theorem Known.not_isAnswer {o : Outbound} (h : Known o)
    (hskipped : o.openOnly = true ∨ o.cancelAfterPeerTerminate = true) : o.isAnswer = false := by
  rcases h with h | hqueued
  · cases h with
    | heartbeat packet key => rfl
    | localTerminate packet => rfl
    | _ => exact hskipped.elim Bool.noConfusion Bool.noConfusion
  · exact hqueued.not_isAnswer

/-- A step between stages without a frame in the hand. -/
theorem answers_idle (hhanded : s'.log.handed = s.log.handed)
    (hcontrol : s'.controlQueue = s.controlQueue) (hbatch : s'.writer.batch = s.writer.batch)
    (hstatus : s'.writer.status = s.writer.status) (hnone : s'.writer.stage.hand = none)
    (hold : s.writer.stage.hand = none) :
    s'.traffic.filter Outbound.isAnswer = s.traffic.filter Outbound.isAnswer := by
  apply traffic_drop _ hhanded hcontrol hbatch hstatus hnone
  intro o ho
  rw [hold] at ho
  cases ho

/-- The writer lets go of a frame that is not an answer. -/
theorem answers_letGo {outbound : Outbound} (hhanded : s'.log.handed = s.log.handed)
    (hcontrol : s'.controlQueue = s.controlQueue) (hbatch : s'.writer.batch = s.writer.batch)
    (hstatus : s'.writer.status = s.writer.status) (hnone : s'.writer.stage.hand = none)
    (hold : s.writer.stage.hand = some outbound) (hnot : outbound.isAnswer = false) :
    s'.traffic.filter Outbound.isAnswer = s.traffic.filter Outbound.isAnswer := by
  apply traffic_drop _ hhanded hcontrol hbatch hstatus hnone
  intro o ho
  rw [hold] at ho
  cases ho
  exact hnot

theorem known_hand (hknown : s.Bears Known) {outbound : Outbound}
    (hhand : s.writer.stage.hand = some outbound) : Known outbound := by
  apply hknown outbound
  apply List.mem_append_right
  rw [underway, hhand]
  exact List.mem_append_right _ (List.mem_append_left _ (List.mem_singleton_self outbound))

/-- The claims keep every answer in the batch. -/
theorem answers_claim (hw : s.Wired config) (hstage : s.writer.stage = .assembled) :
    s.claimBatch.traffic.filter Outbound.isAnswer = s.traffic.filter Outbound.isAnswer := by
  have hkept : (claimSubmitAttempts s.canSendSubmit s.pendingSubmits s.writer.batch).2.filter
      Outbound.isAnswer = s.writer.batch.filter Outbound.isAnswer := by
    rw [claimSubmitAttempts_eq]
    exact Compaction.filter_sweep (isAnswer_claimed _) _ _
  have hnew : s.claimBatch.traffic = s.log.handed ++
      ((claimSubmitAttempts s.canSendSubmit s.pendingSubmits s.writer.batch).2 ++
        s.controlQueue) := rfl
  rw [hnew, traffic, underway_batch hw (Or.inl hstage)]
  simp only [List.filter_append, hkept]

/-- A batch that is over has no frame left to answer with. -/
theorem answers_afterBatch (hunhanded : unhanded s.writer = [])
    (hhand : s.writer.stage.hand = none) :
    s.afterBatch.traffic.filter Outbound.isAnswer = s.traffic.filter Outbound.isAnswer := by
  rw [traffic, underway_afterBatch, traffic, underway, hunhanded, hhand]
  rfl

/-- A writer that does not fail loses no response. -/
theorem answers_writerMove (hw : s.Wired config) (hknown : s.Bears Known) {event : WriterEvent}
    (hmove : WriterMove s event s') (hfailing : s'.writer.stage ≠ .failing)
    (hstopped : s'.writer.stage ≠ .stopped) :
    s'.traffic.filter Outbound.isAnswer = s.traffic.filter Outbound.isAnswer := by
  have hstaged := hw.writer.stage
  rw [Writer.Staged] at hstaged
  cases hmove with
  | stop event hclosed => exact absurd rfl hstopped
  | giveUp hstage => exact absurd rfl hstopped
  | failWrite hstage => exact absurd rfl hfailing
  | fail writer outbound hhand hstatus hbatch hfails => exact absurd hfails hfailing
  | top allowed hstage =>
    refine answers_idle rfl rfl rfl rfl rfl ?_
    rcases hstage with hstage | hstage
    · rw [hstage]; rfl
    · rw [hstage]; rfl
  | assemble hstage =>
    refine answers_idle rfl rfl rfl rfl rfl ?_
    rcases hstage with hstage | ⟨allowed, hstage⟩
    · rw [hstage]; rfl
    · rw [hstage]; rfl
  | select hstage | second _ hstage | again _ hstage | pickSecond _ hstage | pick hstage
    | publish _ _ _ _ _ hstage | signal _ _ hstage | answer hstage | signalMarker hstage =>
    exact answers_idle rfl rfl rfl rfl rfl (congrArg WriterStage.hand hstage)
  | marker outbound isSubmit hstage hmarker =>
    refine answers_letGo rfl rfl rfl rfl rfl (congrArg WriterStage.hand hstage) ?_
    simp [Outbound.isAnswer, hmarker]
  | stale outbound isSubmit heartbeatPending hstage hkey hsize =>
    refine answers_letGo rfl rfl rfl rfl rfl (congrArg WriterStage.hand hstage) ?_
    simp [Outbound.isAnswer, Option.isNone_iff_eq_none, hkey]
  | skip outbound hstage hopenOnly hphase =>
    have hold : s.writer.stage.hand = some outbound := congrArg WriterStage.hand hstage
    have hnot : outbound.isAnswer = false :=
      (known_hand hknown hold).not_isAnswer (Or.inl hopenOnly)
    exact answers_letGo rfl rfl rfl rfl rfl hold hnot
  | cancel outbound hstage hcancel =>
    have hold : s.writer.stage.hand = some outbound := congrArg WriterStage.hand hstage
    have hnot : outbound.isAnswer = false :=
      (known_hand hknown hold).not_isAnswer (Or.inr hcancel)
    exact answers_letGo rfl rfl rfl rfl rfl hold hnot
  | screened outbound isSubmit heartbeatPending hstage hmarker hsize =>
    rw [traffic, traffic, underway, underway, hstage]
    rfl
  | admitOutbound outbound hstage =>
    rw [traffic, traffic, underway, underway, hstage]
    rfl
  | takeSubmit allowed outbound submitQueue hasks hqueue =>
    have hout := (hw.submits outbound (hqueue ▸ List.mem_cons_self)).not_isAnswer
    rw [traffic_takeSubmit, traffic, underway_of_asks hasks]
    simp only [List.filter_append, List.filter_cons, hout, Bool.false_eq_true, if_false]
  | takeControl allowed outbound controlQueue hasks hqueue =>
    rw [traffic, traffic, underway_of_asks hasks, hqueue]
    rfl
  | push outbound hstage =>
    rw [hstage] at hstaged
    simp only [traffic, underway, unhanded, hstaged.1, hstage]
    rw [List.append_assoc]
    rfl
  | claim hstage => exact answers_claim hw hstage
  | hand hstage =>
    rw [traffic, traffic, underway_batch hw (Or.inr hstage), ← List.append_assoc]
    rfl
  | written hstage =>
    rw [hstage] at hstaged
    rw [traffic, traffic, underway, underway, unhanded, unhanded, hstaged, hstage]
    rfl
  | complete writtenAt hstage hstatus =>
    rw [traffic, traffic, underway, underway, unhanded, unhanded, hstatus, hstage]
    rfl
  | dropBatch hstage hbatch =>
    rw [hstage] at hstaged
    apply answers_afterBatch
    · rw [unhanded, hstaged, hbatch]
    · rw [hstage]; rfl
  | endBatch hstage =>
    rw [hstage] at hstaged
    obtain ⟨⟨writtenAt, hstatus⟩, _⟩ := hstaged
    apply answers_afterBatch
    · rw [unhanded, hstatus]
    · rw [hstage]; rfl

/-! ## What the tasks say -/

/-- A task but the writer puts a frame behind the control queue. -/
inductive Voices (s : Connection) : ConnectionEvent → Outbound → Frame → Prop
  | activeTest (lease : SequenceLease) (key : HeartbeatAttemptKey) :
    s.heartbeat = .prepared lease key →
    Voices s (.heartbeat .enqueue)
      (.heartbeat (encodePdu .activeTest (.ofNat key.sequenceId)) key)
      ⟨.ofNat key.sequenceId, .activeTest⟩
  | retry (now : ℕ) (key : HeartbeatAttemptKey) (entry : PendingHeartbeat) :
    s.timeout = .heartbeatSlot now key → s.heartbeatAwaiting key = some entry →
    Voices s (.timeout .retryHeartbeat)
      (.heartbeat (encodePdu .activeTest (.ofNat key.sequenceId))
        { key with attempt := key.attempt + 1 })
      ⟨.ofNat key.sequenceId, .activeTest⟩
  | terminate (id : ℕ) :
    s.closer = .leased id →
    Voices s (.closer .sendTerminate) (.localTerminate (encodePdu .terminate (.ofNat id)))
      ⟨.ofNat id, .terminate⟩
  | activeTestResp (sequenceId : UInt32) :
    s.flushed = true →
    Voices s (.reader (.activeTest sequenceId)) (.plain (encodePdu .activeTestResp sequenceId))
      ⟨sequenceId, .activeTestResp⟩
  | deliverResp (sequenceId : UInt32) (deliver : Deliver) (ticket : ℕ) :
    s.flushed = true →
    Voices s (.reader (.deliver sequenceId deliver ticket))
      (.afterWrite (encodePdu (.deliverResp ⟨deliver.msgId, 0⟩) sequenceId) s.clock ticket
        (.deliver deliver))
      ⟨sequenceId, .deliverResp ⟨deliver.msgId, 0⟩⟩
  | terminateResp (sequenceId : UInt32) :
    s.reader.stage = .answeringTerminate sequenceId →
    Voices s (.reader .answerTerminate)
      (.peerTerminateResponse (encodePdu .terminateResp sequenceId))
      ⟨sequenceId, .terminateResp⟩

variable {event : ConnectionEvent} {o : Outbound} {f : Frame}

theorem Voices.fits (h : Voices s event o f) : ¬ f.pdu.Oversized := by
  cases h with
  | _ => exact id

theorem Voices.packet (h : Voices s event o f) : o.packet = f.octets := by
  have hpacket : o.packet = encodePdu f.pdu f.sequenceId := by
    cases h with
    | _ => rfl
  rw [hpacket, encodePdu_octets h.fits]

/-- The step leaves the control queue alone, or one frame is said. -/
def Adds (s : Connection) (event : ConnectionEvent) (s' : Connection) : Prop :=
  s'.controlQueue = s.controlQueue ∨
    ∃ o f, Voices s event o f ∧ s'.controlQueue = s.controlQueue ++ [o]

theorem adds_readerNext {event : ReaderEvent} (hnext : s.readerNext event = some s') :
    s.Adds (.reader event) s' := by
  cases event with
  | activeTest sequenceId =>
    simp only [readerNext] at hnext
    split_ifs at hnext with hflushed
    cases hnext
    exact Or.inr ⟨_, _, .activeTestResp sequenceId hflushed, rfl⟩
  | deliver sequenceId deliver ticket =>
    simp only [readerNext] at hnext
    split_ifs at hnext with hflushed
    cases hnext
    exact Or.inr ⟨_, _, .deliverResp sequenceId deliver ticket hflushed, rfl⟩
  | terminate sequenceId =>
    simp only [readerNext] at hnext
    split_ifs at hnext
    cases hnext
    exact Or.inl (controlQueue_beginClosing _ _)
  | answerTerminate =>
    simp only [readerNext] at hnext
    split at hnext
    · next sequenceId hstage =>
      split_ifs at hnext
      cases hnext
      exact Or.inr ⟨_, _, .terminateResp sequenceId hstage, rfl⟩
    · cases hnext
  | _ =>
    simp only [readerNext] at hnext
    repeat' split at hnext
    all_goals cases hnext
    all_goals exact Or.inl rfl

theorem adds_heartbeatNext {event : HeartbeatEvent} (hnext : s.heartbeatNext event = some s') :
    s.Adds (.heartbeat event) s' := by
  cases event with
  | tick =>
    simp only [heartbeatNext] at hnext
    repeat' split at hnext
    all_goals cases hnext
    · exact Or.inl (controlQueue_finish s)
    · exact Or.inl rfl
    · exact Or.inl rfl
  | enqueue =>
    simp only [heartbeatNext] at hnext
    split at hnext
    · next lease key hstage =>
      split_ifs at hnext
      · cases hnext
        exact Or.inl rfl
      · cases hnext
        exact Or.inl rfl
      · cases hnext
        exact Or.inr ⟨_, _, .activeTest lease key hstage, rfl⟩
    · cases hnext
  | notOpen =>
    simp only [heartbeatNext] at hnext
    repeat' split at hnext
    all_goals cases hnext
    all_goals exact Or.inl rfl

theorem adds_timeoutNext {event : TimeoutEvent} (hnext : s.timeoutNext config event = some s') :
    s.Adds (.timeout event) s' := by
  cases event with
  | retryHeartbeat =>
    simp only [timeoutNext] at hnext
    split at hnext
    · next now key hstage =>
      split at hnext
      · cases hnext
        exact Or.inl rfl
      · next entry hawaiting =>
        split_ifs at hnext
        · cases hnext
          exact Or.inl rfl
        · cases hnext
          exact Or.inr ⟨_, _, .retry now key entry hstage hawaiting, rfl⟩
    · cases hnext
  | teardown =>
    simp only [timeoutNext] at hnext
    split at hnext
    all_goals cases hnext
    all_goals exact Or.inl (controlQueue_finish s)
  | giveUpSubmit sent =>
    simp only [timeoutNext, giveUpSubmit] at hnext
    repeat' split at hnext
    all_goals cases hnext
    all_goals exact Or.inl rfl
  | retrySubmit =>
    simp only [timeoutNext, retrySubmit] at hnext
    repeat' split at hnext
    all_goals cases hnext
    all_goals exact Or.inl rfl
  | _ =>
    simp only [timeoutNext] at hnext
    repeat' split at hnext
    all_goals cases hnext
    all_goals exact Or.inl rfl

theorem adds_closerNext {event : CloserEvent} (hnext : s.closerNext event = some s') :
    s.Adds (.closer event) s' := by
  cases event with
  | sendTerminate =>
    simp only [closerNext] at hnext
    split at hnext
    · next id hstage =>
      split_ifs at hnext
      cases hnext
      exact Or.inr ⟨_, _, .terminate id hstage, rfl⟩
    · cases hnext
  | close =>
    simp only [closerNext] at hnext
    split_ifs at hnext
    have hcontrol := controlQueue_beginClosing s true
    split at hnext
    all_goals next hresult =>
      rw [hresult] at hcontrol
      cases hnext
      exact Or.inl hcontrol
  | leaseTerminate =>
    simp only [closerNext] at hnext
    repeat' split at hnext
    all_goals cases hnext
    · exact Or.inl (controlQueue_finish s)
    · exact Or.inl rfl
  | finish =>
    simp only [closerNext] at hnext
    split at hnext
    all_goals cases hnext
    exact Or.inl (controlQueue_finish s)
  | _ =>
    simp only [closerNext] at hnext
    repeat' split at hnext
    all_goals cases hnext
    all_goals exact Or.inl rfl

theorem adds_next (hwriter : ∀ e, event ≠ .writer e) (hnext : next gbk config s event = some s') :
    s.Adds event s' := by
  cases event with
  | clock duration =>
    cases hnext
    exact Or.inl rfl
  | udhCounter counter =>
    cases hnext
    exact Or.inl rfl
  | submit options content base =>
    rw [next, submit] at hnext
    repeat' split at hnext
    all_goals cases hnext
    all_goals exact Or.inl rfl
  | call index event =>
    simp only [next] at hnext
    split at hnext
    · cases callNext_step hnext with
      | failing lease error hstage => exact Or.inl (controlQueue_finish s)
      | _ => exact Or.inl rfl
    · cases hnext
  | writer event => exact absurd rfl (hwriter event)
  | reader event => exact adds_readerNext hnext
  | heartbeat event => exact adds_heartbeatNext hnext
  | timeout event => exact adds_timeoutNext hnext
  | closer event => exact adds_closerNext hnext
  | overloadClose =>
    cases hnext
    exact Or.inl (controlQueue_beginClosing s false)
  | finish =>
    cases hnext
    exact Or.inl (controlQueue_finish s)
  | finishStores =>
    simp only [next] at hnext
    split_ifs at hnext
    cases hnext
    exact Or.inl rfl
  | cleanup index event => exact Or.inl (quiet_cleanupNext hnext).2

/-! ## Answers -/

/-- The response to a frame that was read. -/
def answerTo : ConnectionEvent → Option Frame
  | .reader (.activeTest sequenceId) => some ⟨sequenceId, .activeTestResp⟩
  | .reader (.deliver sequenceId deliver _) => some ⟨sequenceId, .deliverResp ⟨deliver.msgId, 0⟩⟩
  | .reader (.terminate sequenceId) => some ⟨sequenceId, .terminateResp⟩
  | _ => none

/-- The response that the reader has not queued yet. -/
def owed : ReaderStage → List Frame
  | .answeringTerminate sequenceId => [⟨sequenceId, .terminateResp⟩]
  | _ => []

/-- The writer has not failed, and the reader goes on. -/
structure Alive (s : Connection) : Prop where
  writing : s.writer.stage ≠ .failing ∧ s.writer.stage ≠ .stopped
  reading : s.reader.stage ≠ .stopped

/-- The responses under way are among those to the frames read, in their order, and they are just
these while both tasks go on. -/
def Answering (events : List ConnectionEvent) (s : Connection) : Prop :=
  ∃ answered, answered ++ owed s.reader.stage = events.filterMap answerTo ∧
    ((s.traffic.filter Outbound.isAnswer).map Outbound.packet).Sublist
      (answered.map Frame.octets) ∧
    (s.Alive → (s.traffic.filter Outbound.isAnswer).map Outbound.packet =
      answered.map Frame.octets)

variable {events : List ConnectionEvent}

/-- Nothing is answered, and a response that is owed may be given up with the reader. -/
theorem Answering.pass (h : Answering events s)
    (htraffic : (s'.traffic.filter Outbound.isAnswer).Sublist (s.traffic.filter Outbound.isAnswer))
    (hexact : s'.Alive → s.Alive ∧
      s'.traffic.filter Outbound.isAnswer = s.traffic.filter Outbound.isAnswer)
    (hevent : answerTo event = none)
    (howed : owed s'.reader.stage = owed s.reader.stage ∨ s'.reader.stage = .stopped) :
    Answering (events ++ [event]) s' := by
  obtain ⟨answered, hall, hsub, hsame⟩ := h
  have hevents : (events ++ [event]).filterMap answerTo = events.filterMap answerTo := by
    rw [List.filterMap_append, List.filterMap_cons_none hevent, List.filterMap_nil, List.append_nil]
  rw [Answering, hevents]
  have hsub' := (htraffic.map Outbound.packet).trans hsub
  rcases howed with howed | hstopped
  · refine ⟨answered, howed.symm ▸ hall, hsub', fun halive => ?_⟩
    obtain ⟨halive, heq⟩ := hexact halive
    rw [heq, hsame halive]
  · refine ⟨answered ++ owed s.reader.stage, ?_, ?_, fun halive => absurd hstopped halive.reading⟩
    · rw [hstopped, hall]
      exact List.append_nil _
    · rw [List.map_append]
      exact hsub'.trans (List.sublist_append_left _ _)

theorem traffic_queue (hwriter : s'.writer = s.writer) (hhanded : s'.log.handed = s.log.handed)
    (hcontrol : s'.controlQueue = s.controlQueue ++ [o]) : s'.traffic = s.traffic ++ [o] := by
  rw [traffic, traffic, underway, underway, hhanded, hwriter, hcontrol]
  simp only [List.append_assoc]

theorem traffic_same (hwriter : s'.writer = s.writer) (hhanded : s'.log.handed = s.log.handed)
    (hcontrol : s'.controlQueue = s.controlQueue) : s'.traffic = s.traffic := by
  rw [traffic, traffic, underway, underway, hhanded, hwriter, hcontrol]

/-- The response to a frame is queued. -/
theorem Answering.answer (h : Answering events s) (htraffic : s'.traffic = s.traffic ++ [o])
    (hanswer : o.isAnswer = true) (hpacket : o.packet = f.octets) (halive : s'.Alive → s.Alive)
    (hevents : ∀ answered, answered ++ owed s.reader.stage = events.filterMap answerTo →
      answered ++ [f] = (events ++ [event]).filterMap answerTo)
    (howed : owed s'.reader.stage = []) : Answering (events ++ [event]) s' := by
  obtain ⟨answered, hall, hsub, hsame⟩ := h
  have hnew : (s'.traffic.filter Outbound.isAnswer).map Outbound.packet =
      (s.traffic.filter Outbound.isAnswer).map Outbound.packet ++ [f.octets] := by
    rw [htraffic, List.filter_append, List.filter_cons_of_pos hanswer, List.filter_nil,
      List.map_append, List.map_singleton, hpacket]
  refine ⟨answered ++ [f], ?_, ?_, fun halive' => ?_⟩
  · rw [howed, List.append_nil]
    exact hevents answered hall
  · rw [hnew, List.map_append]
    exact hsub.append_right _
  · rw [hnew, hsame (halive halive'), List.map_append]
    rfl

theorem owed_of_flushed (h : s.flushed = true) : owed s.reader.stage = [] := by
  simp only [flushed, Bool.and_eq_true, decide_eq_true_eq] at h
  rw [h.1.1]
  rfl

theorem flushed_reading (h : s.flushed = true) : s.reader.stage = .reading := by
  simp only [flushed, Bool.and_eq_true, decide_eq_true_eq] at h
  exact h.1.1

theorem answering_readerNext (h : Answering events s) {event : ReaderEvent}
    (hnext : s.readerNext event = some s') : Answering (events ++ [.reader event]) s' := by
  cases event with
  | activeTest sequenceId =>
    simp only [readerNext] at hnext
    split_ifs at hnext with hflushed
    cases hnext
    have hvoices : Voices s _ _ _ := .activeTestResp sequenceId hflushed
    refine h.answer (traffic_queue rfl rfl rfl) rfl hvoices.packet
      (fun halive => ⟨halive.writing, halive.reading⟩) (fun answered hall => ?_)
      (owed_of_flushed hflushed)
    rw [owed_of_flushed hflushed, List.append_nil] at hall
    rw [List.filterMap_append, ← hall]
    rfl
  | deliver sequenceId deliver ticket =>
    simp only [readerNext] at hnext
    split_ifs at hnext with hflushed
    cases hnext
    have hvoices : Voices s _ _ _ := .deliverResp sequenceId deliver ticket hflushed
    refine h.answer (traffic_queue rfl rfl rfl) rfl hvoices.packet
      (fun halive => ⟨halive.writing, halive.reading⟩) (fun answered hall => ?_)
      (owed_of_flushed hflushed)
    rw [owed_of_flushed hflushed, List.append_nil] at hall
    rw [List.filterMap_append, ← hall]
    rfl
  | terminate sequenceId =>
    simp only [readerNext] at hnext
    split_ifs at hnext with hflushed
    cases hnext
    obtain ⟨_, _, _, heq⟩ :=
      ({ s with peerTerminateSeen := true } : Connection).beginClosing_eq false
    rw [heq]
    obtain ⟨answered, hall, hsub, hsame⟩ := h
    refine ⟨answered, ?_, hsub, fun halive => hsame ⟨halive.writing, ?_⟩⟩
    · rw [owed_of_flushed hflushed, List.append_nil] at hall
      rw [List.filterMap_append, ← hall]
      rfl
    · rw [flushed_reading hflushed]
      exact ReaderStage.noConfusion
  | answerTerminate =>
    simp only [readerNext] at hnext
    split at hnext
    · next sequenceId hstage =>
      split_ifs at hnext
      cases hnext
      have hvoices : Voices s _ _ _ := .terminateResp sequenceId hstage
      refine h.answer (traffic_queue rfl rfl rfl) rfl hvoices.packet
        (fun halive => ⟨halive.writing, ?_⟩) (fun answered hall => ?_) rfl
      · rw [hstage]
        exact ReaderStage.noConfusion
      · rw [hstage] at hall
        rw [List.filterMap_append]
        exact hall.trans (List.append_nil _).symm
    · cases hnext
  | submitResp response =>
    simp only [readerNext] at hnext
    split_ifs at hnext
    cases hnext
    exact h.pass (.refl _) (fun halive => ⟨⟨halive.writing, halive.reading⟩, rfl⟩) rfl (Or.inl rfl)
  | matchResps =>
    simp only [readerNext] at hnext
    split_ifs at hnext
    cases hnext
    exact h.pass (.refl _) (fun halive => ⟨⟨halive.writing, halive.reading⟩, rfl⟩) rfl (Or.inl rfl)
  | emitResp sent =>
    simp only [readerNext] at hnext
    split at hnext
    · cases hnext
    · cases hnext
      exact h.pass (.refl _) (fun halive => ⟨⟨halive.writing, halive.reading⟩, rfl⟩) rfl
        (Or.inl rfl)
  | activeTestResp sequenceId =>
    simp only [readerNext] at hnext
    split_ifs at hnext
    cases hnext
    exact h.pass (.refl _) (fun halive => ⟨⟨halive.writing, halive.reading⟩, rfl⟩) rfl (Or.inl rfl)
  | answered =>
    simp only [readerNext] at hnext
    split_ifs at hnext with hready
    cases hnext
    have hreading : s.reader.stage ≠ .stopped := by
      rw [hready.1]
      exact ReaderStage.noConfusion
    refine h.pass (.refl _) (fun halive => ⟨⟨halive.writing, hreading⟩, rfl⟩) rfl (Or.inl ?_)
    rw [hready.1]
    rfl
  | terminateResp sequenceId =>
    simp only [readerNext] at hnext
    split_ifs at hnext
    · cases hnext
      exact h.pass (.refl _) (fun halive => ⟨⟨halive.writing, halive.reading⟩, rfl⟩) rfl
        (Or.inl rfl)
    · cases hnext
      exact h.pass (.refl _) (fun halive => ⟨⟨halive.writing, halive.reading⟩, rfl⟩) rfl
        (Or.inl rfl)
  | stop =>
    simp only [readerNext] at hnext
    split_ifs at hnext
    cases hnext
    exact h.pass (.refl _) (fun halive => absurd rfl halive.reading) rfl (Or.inr rfl)

theorem Answering.next (h : Answering events s) (hw : s.Wired config) (hknown : s.Bears Known)
    (hnext : Connection.next gbk config s event = some s') : Answering (events ++ [event]) s' := by
  by_cases hreader : ∃ e, event = .reader e
  · obtain ⟨e, rfl⟩ := hreader
    exact answering_readerNext h hnext
  have hevent : answerTo event = none := by
    cases event with
    | reader e => exact absurd ⟨e, rfl⟩ hreader
    | _ => rfl
  have hstage : s'.reader = s.reader := by
    have howned := congrArg Owned.reader (next_owned hnext)
    cases event with
    | reader e => exact absurd ⟨e, rfl⟩ hreader
    | _ => exact howned
  have howed : owed s'.reader.stage = owed s.reader.stage := by rw [hstage]
  by_cases hwriter : ∃ e, event = .writer e
  · obtain ⟨e, rfl⟩ := hwriter
    have hmove := writerNext_move hnext
    have hsub := traffic_writerMove Outbound.isAnswer hw hmove fun _ hqueued => hqueued.not_isAnswer
    refine h.pass hsub (fun halive => ⟨⟨⟨?_, ?_⟩, ?_⟩, ?_⟩) hevent (Or.inl howed)
    · exact fun hfailing => halive.writing.2 (failing_ends (Or.inl hfailing) hnext).2
    · exact fun hstopped => halive.writing.2 (failing_ends (Or.inr hstopped) hnext).2
    · rw [← hstage]
      exact halive.reading
    · exact answers_writerMove hw hknown hmove halive.writing.1 halive.writing.2
  have hfeeds := feeds_next (not_exists.mp hwriter) hnext
  have hsame : s'.traffic.filter Outbound.isAnswer = s.traffic.filter Outbound.isAnswer := by
    rcases adds_next (not_exists.mp hwriter) hnext with hsame | ⟨o, f, hvoices, hcontrol⟩
    · rw [traffic_same hfeeds.writer hfeeds.handed hsame]
    · have hnot : o.isAnswer = false := by
        cases hvoices with
        | activeTest | retry | terminate => rfl
        | _ => exact absurd ⟨_, rfl⟩ hreader
      rw [traffic_queue hfeeds.writer hfeeds.handed hcontrol, List.filter_append,
        List.filter_cons_of_neg (by simp [hnot]), List.filter_nil, List.append_nil]
  refine h.pass (by rw [hsame]) (fun halive => ⟨⟨?_, ?_⟩, hsame⟩) hevent (Or.inl howed)
  · rw [← hfeeds.writer]
    exact halive.writing
  · rw [← hstage]
    exact halive.reading

theorem answering_initial (config : ConnectionConfig) (clock : ℕ) (udhCounter : UInt32) :
    Answering [] (initial config clock udhCounter) := ⟨[], rfl, .slnil, fun _ => rfl⟩

/-- The responses on the socket are, in their order, among those to the frames that were read, each
with the id of its request; while reader and writer go on they and the ones on their way are just
those, but for the TERMINATE that the reader is about to answer. -/
theorem responses_answer {clock : ℕ} {udhCounter : UInt32}
    (hrun : (machine gbk config clock udhCounter).Run events s) :
    ((s.log.handed.filter Outbound.isAnswer).map Outbound.packet).Sublist
        ((events.filterMap answerTo).map Frame.octets) ∧
      (s.Alive → ((s.log.handed ++ s.underway).filter Outbound.isAnswer).map Outbound.packet ++
          (owed s.reader.stage).map Frame.octets =
        (events.filterMap answerTo).map Frame.octets) := by
  have hinv := hrun.invariant (I := fun events s => s.Sound config ∧ s.Bears Known ∧
    Answering events s) ?_ ?_
  · obtain ⟨_, _, answered, hall, hsub, hsame⟩ := hinv
    rw [← hall, List.map_append]
    refine ⟨?_, fun halive => congrArg (· ++ _) (hsame halive)⟩
    rw [traffic, List.filter_append, List.map_append] at hsub
    exact ((List.sublist_append_left _ _).trans hsub).trans (List.sublist_append_left _ _)
  · rintro s rfl
    exact ⟨sound_initial config clock udhCounter, List.forall_mem_nil _,
      answering_initial config clock udhCounter⟩
  · rintro events s event s' ⟨hsound, hknown, h⟩ hnext
    exact ⟨hsound.next hnext, bears_known_next hknown hsound.wired hnext,
      h.next hsound.wired hknown hnext⟩

/-- A heartbeat, two responses and a SUBMIT go to the socket in one batch. -/
def speakFour : List ConnectionEvent :=
  admitOne ++ [.heartbeat .tick, .heartbeat .enqueue, .reader (.activeTest 9),
    .reader (.deliver 5
      ⟨.replicate 8 1, "1065", "SMS", 0, 0, 0, "13800000000", 0, [104, 105]⟩ 0)] ++
    List.replicate 24 (.writer .advance)

theorem responses_answer_two : ∃ s, (machine asciiGbk smallConfig 0 0).Run speakFour s ∧ s.Alive ∧
    (s.log.handed.filter Outbound.isAnswer).length = 2 ∧
    ((s.log.handed.filter Outbound.isAnswer).map Outbound.packet).Sublist
        ((speakFour.filterMap answerTo).map Frame.octets) ∧
      ((s.log.handed ++ s.underway).filter Outbound.isAnswer).map Outbound.packet ++
          (owed s.reader.stage).map Frame.octets =
        (speakFour.filterMap answerTo).map Frame.octets := by
  have hexec : (Machine.exec (next asciiGbk smallConfig) (initial smallConfig 0 0) speakFour).map
      (fun s => (s.writer.stage, s.reader.stage, (s.log.handed.filter Outbound.isAnswer).length)) =
        some (.writing, .reading, 2) := by decide +kernel
  obtain ⟨s, hrun, hview⟩ := Machine.exists_run_of_exec _ hexec
  obtain ⟨hwriter, hrest⟩ := Prod.mk.inj hview
  obtain ⟨hreader, hanswers⟩ := Prod.mk.inj hrest
  have halive : s.Alive := by
    constructor
    · rw [hwriter]
      exact ⟨WriterStage.noConfusion, WriterStage.noConfusion⟩
    · rw [hreader]
      exact ReaderStage.noConfusion
  obtain ⟨hsub, hexact⟩ := responses_answer hrun
  exact ⟨s, hrun, halive, hanswers, hsub, hexact halive⟩

end Connection

end CmppProtocol
