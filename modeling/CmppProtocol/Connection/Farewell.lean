import CmppProtocol.Connection.Owners
import CmppProtocol.Connection.Reached
import CmppProtocol.Connection.Writing

/-! # Nothing but responses follows a TERMINATE

A TERMINATE or its response is queued after the permission to send SUBMITs was
lost for good. Behind it in the control queue, in the batch and on the socket
there is no heartbeat, and a batch that is claimed with it has no SUBMIT.
-/

namespace CmppProtocol

/-- The TERMINATE of this side, or the response to the TERMINATE of the peer. -/
def Outbound.isTerminate (outbound : Outbound) : Bool :=
  outbound.writtenFlag || outbound.marksPeerTerminateResponse

def Outbound.isHeartbeat (outbound : Outbound) : Bool := outbound.heartbeatAttempt.isSome

/-- The frames handed to the socket, those on their way to it, and the claimed ones of these. -/
structure Farewell (sendable : Bool) (handed underway claimed : List Outbound) : Prop where
  barred : ∀ o ∈ handed ++ underway, o.isTerminate = true → sendable = false
  heartbeats : (handed ++ underway).Pairwise fun a b => a.isTerminate = true → b.isHeartbeat = false
  submits : (handed ++ claimed).Pairwise fun a b => a.isTerminate = true → b.isSubmit = false

namespace Farewell

variable {sendable sendable' : Bool} {handed underway underway' claimed claimed' : List Outbound}

theorem bar (h : Farewell sendable handed underway claimed)
    (hbar : sendable = false → sendable' = false) : Farewell sendable' handed underway claimed :=
  { h with barred := fun o ho hterminate => hbar (h.barred o ho hterminate) }

/-- Frames are dropped. -/
theorem drop (h : Farewell sendable handed underway claimed) (hsub : underway'.Sublist underway)
    (hsub' : claimed'.Sublist claimed) : Farewell sendable handed underway' claimed' where
  barred o ho := h.barred o ((hsub.append_left handed).subset ho)
  heartbeats := h.heartbeats.sublist (hsub.append_left handed)
  submits := h.submits.sublist (hsub'.append_left handed)

/-- A SUBMIT or a marker is taken up. -/
theorem take (h : Farewell sendable handed (underway ++ underway') claimed) {outbound : Outbound}
    (hterminate : outbound.isTerminate = false) (hheartbeat : outbound.isHeartbeat = false) :
    Farewell sendable handed (underway ++ outbound :: underway') claimed where
  barred o ho hterm := by
    rcases List.mem_append.mp ho with ho | ho
    · exact h.barred o (List.mem_append_left _ ho) hterm
    rcases List.mem_append.mp ho with ho | ho
    · exact h.barred o (List.mem_append_right _ (List.mem_append_left _ ho)) hterm
    rcases List.mem_cons.mp ho with rfl | ho
    · rw [hterminate] at hterm
      cases hterm
    · exact h.barred o (List.mem_append_right _ (List.mem_append_right _ ho)) hterm
  heartbeats := by
    have hpairs := h.heartbeats
    rw [← List.append_assoc, List.pairwise_append] at hpairs ⊢
    obtain ⟨hfront, hrest, hcross⟩ := hpairs
    refine ⟨hfront, List.pairwise_cons.mpr ⟨fun b _ hterm => ?_, hrest⟩, fun a ha b hb hterm => ?_⟩
    · rw [hterminate] at hterm
      cases hterm
    · rcases List.mem_cons.mp hb with rfl | hb
      · exact hheartbeat
      · exact hcross a ha b hb hterm
  submits := h.submits

/-- A frame is queued: a TERMINATE without permission to send, a heartbeat with it. -/
theorem queue (h : Farewell sendable handed underway claimed) {outbound : Outbound}
    (hterminate : outbound.isTerminate = true → sendable = false)
    (hheartbeat : outbound.isHeartbeat = true → sendable = true) :
    Farewell sendable handed (underway ++ [outbound]) claimed where
  barred o ho hterm := by
    rw [← List.append_assoc] at ho
    rcases List.mem_append.mp ho with ho | ho
    · exact h.barred o ho hterm
    · obtain rfl := List.mem_singleton.mp ho
      exact hterminate hterm
  heartbeats := by
    rw [← List.append_assoc, List.pairwise_append]
    refine ⟨h.heartbeats, List.pairwise_singleton _ _, fun a ha b hb hterm => ?_⟩
    obtain rfl := List.mem_singleton.mp hb
    cases hb : b.isHeartbeat with
    | false => rfl
    | true =>
      have hbarred := h.barred a ha hterm
      rw [hheartbeat hb] at hbarred
      cases hbarred
  submits := h.submits

/-- The batch is claimed: without permission no SUBMIT stays in it. -/
theorem claim {batch rest : List Outbound} (h : Farewell sendable handed (batch ++ rest) [])
    (hsub : claimed.Sublist batch)
    (hbarred : sendable = false → ∀ o ∈ claimed, o.isSubmit = false) :
    Farewell sendable handed (claimed ++ rest) claimed where
  barred o ho := h.barred o (((hsub.append_right rest).append_left handed).subset ho)
  heartbeats := h.heartbeats.sublist ((hsub.append_right rest).append_left handed)
  submits := by
    have hold := h.submits
    rw [List.append_nil] at hold
    have hall {a : Outbound} (ha : a ∈ handed ++ claimed) (hterm : a.isTerminate = true) :
        ∀ o ∈ claimed, o.isSubmit = false := by
      refine hbarred (h.barred a ?_ hterm)
      exact ((hsub.trans (List.sublist_append_left batch rest)).append_left handed).subset ha
    rw [List.pairwise_append]
    refine ⟨hold, List.pairwise_of_forall_mem_list fun a ha b hb hterm => ?_,
      fun a ha b hb hterm => ?_⟩
    · exact hall (List.mem_append_right _ ha) hterm b hb
    · exact hall (List.mem_append_left _ ha) hterm b hb

/-- The batch is handed to the socket. -/
theorem hand {rest : List Outbound} (h : Farewell sendable handed (claimed ++ rest) claimed) :
    Farewell sendable (handed ++ claimed) rest [] where
  barred o ho := by
    rw [List.append_assoc] at ho
    exact h.barred o ho
  heartbeats := by
    rw [List.append_assoc]
    exact h.heartbeats
  submits := by
    rw [List.append_nil]
    exact h.submits

end Farewell

namespace Connection

variable {gbk : Gbk} {config : ConnectionConfig} {s s' : Connection}

/-- The frames of the batch that were not handed to the socket. -/
def unhanded (writer : Writer) : List Outbound :=
  match writer.status with
  | .collecting | .claimed => writer.batch
  | _ => []

/-- The frames on their way to the socket; those of the submit queue may still be passed over. -/
def underway (s : Connection) : List Outbound :=
  unhanded s.writer ++ (s.writer.stage.hand.toList ++ s.controlQueue)

def claimedBatch (writer : Writer) : List Outbound :=
  if writer.status = .claimed then writer.batch else []

def Parting (s : Connection) : Prop :=
  Farewell s.canSendSubmit s.log.handed s.underway (claimedBatch s.writer)

/-- A writer that asks the queues has nothing in its hand. -/
theorem underway_of_asks {allowed : Bool} (hasks : s.writer.stage.asks = some allowed) :
    s.underway = unhanded s.writer ++ s.controlQueue := by
  have hhand : s.writer.stage.hand = none := by
    cases hstage : s.writer.stage with
    | selecting _ | selectingSecond _ | picking _ | pickingSecond _ => rfl
    | _ =>
      rw [hstage] at hasks
      cases hasks
  rw [underway, hhand]
  rfl

theorem not_terminate_of_isQueued {outbound : Outbound} (h : outbound.IsQueued) :
    outbound.isTerminate = false ∧ outbound.isHeartbeat = false := by
  rcases h with ⟨packet, key, rfl⟩ | rfl
  · exact ⟨rfl, rfl⟩
  · exact ⟨rfl, rfl⟩

theorem Parting.same (h : s.Parting) (hsend : s'.canSendSubmit = s.canSendSubmit)
    (hhanded : s'.log.handed = s.log.handed) (hunderway : s'.underway = s.underway)
    (hclaimed : claimedBatch s'.writer = claimedBatch s.writer) : s'.Parting := by
  rw [Parting, hsend, hhanded, hunderway, hclaimed]
  exact h

/-- The writer lets go of what it has in the hand, and keeps its batch. -/
theorem underway_release (hcontrol : s'.controlQueue = s.controlQueue)
    (hbatch : s'.writer.batch = s.writer.batch) (hstatus : s'.writer.status = s.writer.status)
    (hhand : s'.writer.stage.hand = none ∨ s'.writer.stage.hand = s.writer.stage.hand) :
    s'.underway.Sublist s.underway := by
  have hunhanded : unhanded s'.writer = unhanded s.writer := by
    rw [unhanded, unhanded, hstatus, hbatch]
  rw [underway, hunhanded, hcontrol]
  rcases hhand with hhand | hhand
  · rw [hhand]
    exact (List.sublist_append_right _ _).append_left _
  · rw [hhand]
    exact List.Sublist.refl _

theorem underway_afterBatch (s : Connection) : s.afterBatch.underway = s.controlQueue := by
  rw [underway, s.afterBatch_stage.1]
  rfl

theorem Parting.release (h : s.Parting) (hsend : s'.canSendSubmit = s.canSendSubmit)
    (hhanded : s'.log.handed = s.log.handed) (hcontrol : s'.controlQueue = s.controlQueue)
    (hbatch : s'.writer.batch = s.writer.batch) (hstatus : s'.writer.status = s.writer.status)
    (hhand : s'.writer.stage.hand = none ∨ s'.writer.stage.hand = s.writer.stage.hand) :
    s'.Parting := by
  have hclaimed : claimedBatch s'.writer = claimedBatch s.writer := by
    rw [claimedBatch, claimedBatch, hstatus, hbatch]
  rw [Parting, hsend, hhanded, hclaimed]
  exact h.drop (underway_release hcontrol hbatch hstatus hhand) (List.Sublist.refl _)

theorem Parting.afterBatch (h : s.Parting) (hhand : s.writer.stage.hand = none)
    (hbatch : unhanded s.writer = []) : s.afterBatch.Parting := by
  have hunderway : s.afterBatch.underway = s.underway := by
    rw [underway_afterBatch, underway, hbatch, hhand]
    rfl
  change Farewell s.canSendSubmit s.log.handed s.afterBatch.underway []
  rw [hunderway]
  exact h.drop (List.Sublist.refl _) (List.nil_sublist _)

/-- Without permission a claim keeps no SUBMIT. -/
theorem isSubmit_of_claimed {pending : PendingSubmits} {batch : List Outbound} {o : Outbound}
    (ho : o ∈ (claimSubmitAttempts false pending batch).2) : o.isSubmit = false := by
  rw [claimSubmitAttempts_eq] at ho
  induction batch generalizing pending with
  | nil => cases ho
  | cons outbound batch ih =>
    cases hkey : outbound.submitAttempt with
    | none =>
      have hkeep : claimFrame false pending outbound = (true, pending) := by
        simp only [claimFrame, hkey]
      rw [Compaction.sweep_keep hkeep] at ho
      rcases List.mem_cons.mp ho with rfl | ho
      · rw [Outbound.isSubmit, hkey]
        rfl
      · exact ih ho
    | some key =>
      have hskip : claimFrame false pending outbound = (false, pending) := by
        simp only [claimFrame, hkey, claimSubmitAttempt]
      rw [Compaction.sweep_skip hskip] at ho
      exact ih ho

theorem Parting.writerMove (hw : s.Wired config) (h : s.Parting) {event : WriterEvent}
    (hmove : WriterMove s event s') : s'.Parting := by
  have hstaged := hw.writer.stage
  rw [Writer.Staged] at hstaged
  cases hmove with
  | takeSubmit allowed outbound submitQueue hasks hqueue =>
    obtain ⟨hterminate, hheartbeat⟩ := not_terminate_of_isQueued
      (hw.submits outbound (hqueue ▸ List.mem_cons_self))
    rw [Parting, underway_of_asks hasks] at h
    exact h.take hterminate hheartbeat
  | takeControl allowed outbound controlQueue hasks hqueue =>
    rw [Parting, underway_of_asks hasks, hqueue] at h
    exact h
  | push outbound hstage =>
    rw [hstage] at hstaged
    refine h.same rfl rfl ?_ ?_
    · simp only [underway, unhanded, hstaged.1, hstage]
      exact List.append_assoc _ _ _
    · simp only [claimedBatch, hstaged.1, if_neg (show BatchStatus.collecting ≠ .claimed by decide)]
  | claim hstage =>
    rw [hstage] at hstaged
    have hold : s.underway = s.writer.batch ++ s.controlQueue := by
      rw [underway, unhanded, hstaged, hstage]
      rfl
    have hclaimed : claimedBatch s.writer = [] := by
      rw [claimedBatch, hstaged]
      rfl
    rw [Parting, hold, hclaimed] at h
    have hsub : (claimSubmitAttempts s.canSendSubmit s.pendingSubmits s.writer.batch).2.Sublist
        s.writer.batch := by
      rw [claimSubmitAttempts_eq]
      exact Compaction.sweep_sublist _ _
    have hbarred : s.canSendSubmit = false → ∀ o ∈ (claimSubmitAttempts s.canSendSubmit
        s.pendingSubmits s.writer.batch).2, o.isSubmit = false := by
      intro hsend o ho
      rw [hsend] at ho
      exact isSubmit_of_claimed ho
    exact h.claim hsub hbarred
  | dropBatch hstage hbatch =>
    rw [hstage] at hstaged
    apply h.afterBatch
    · rw [hstage]
      rfl
    · rw [unhanded, hstaged, hbatch]
  | hand hstage =>
    rw [hstage] at hstaged
    have hold : s.underway = s.writer.batch ++ s.controlQueue := by
      rw [underway, unhanded, hstaged, hstage]
      rfl
    have hclaimed : claimedBatch s.writer = s.writer.batch := by
      rw [claimedBatch, hstaged]
      rfl
    rw [Parting, hold, hclaimed] at h
    exact h.hand
  | written hstage =>
    rw [hstage] at hstaged
    rw [Parting, underway, unhanded, claimedBatch, hstaged, hstage] at h
    exact h
  | complete writtenAt hstage hstatus =>
    rw [Parting, underway, unhanded, claimedBatch, hstatus, hstage] at h
    exact h
  | endBatch hstage =>
    rw [hstage] at hstaged
    obtain ⟨⟨writtenAt, hstatus⟩, _⟩ := hstaged
    apply h.afterBatch
    · rw [hstage]
      rfl
    · rw [unhanded, hstatus]
  | answer hstage =>
    have hbar : s.canSendSubmit = false →
        ({ s with drainSubmitsOnClose := false } : Connection).canSendSubmit = false := by
      simp only [canSendSubmit, Bool.and_false, Bool.or_false, Bool.or_eq_false_iff]
      exact fun hsend => hsend.1
    have hanswered : ({ s with drainSubmitsOnClose := false } : Connection).Parting := h.bar hbar
    exact hanswered.release rfl rfl rfl rfl rfl (Or.inl rfl)
  | giveUp hstage =>
    have hfinished : s.finish.Parting := by
      rw [finish_eq]
      exact h.bar fun _ => rfl
    exact hfinished.release rfl rfl rfl rfl rfl (Or.inl rfl)
  | fail writer outbound hhand hstatus hbatch hfailing =>
    exact h.release rfl rfl rfl hbatch hstatus (Or.inl (by rw [hfailing]; rfl))
  | admitOutbound outbound hstage =>
    exact h.release rfl rfl rfl rfl rfl (Or.inr (by rw [hstage]; rfl))
  | screened outbound isSubmit heartbeatPending hstage hmarker hsize =>
    exact h.release rfl rfl rfl rfl rfl (Or.inr (by rw [hstage]; rfl))
  | _ => exact h.release rfl rfl rfl rfl rfl (Or.inl rfl)

/-! ## The other tasks -/

/-- Who is about to send a TERMINATE or its response has ended the sending of SUBMITs. -/
structure Ending (s : Connection) : Prop where
  closer : s.closer ≠ .idle → s.phase ≠ .opened
  cleared : s.closer = .cleared ∨ (∃ id, s.closer = .leased id) → s.canSendSubmit = false
  reader : ∀ sequenceId, s.reader.stage = .answeringTerminate sequenceId → s.canSendSubmit = false

/-- A step queues at most one control frame. -/
def Sends (s s' : Connection) : Prop :=
  s'.controlQueue = s.controlQueue ∨ ∃ outbound,
    s'.controlQueue = s.controlQueue ++ [outbound] ∧
      (outbound.isTerminate = true → s.canSendSubmit = false) ∧
      (outbound.isHeartbeat = true → s.canSendSubmit = true)

theorem canSendSubmit_of_opened (h : s.phase = .opened) : s.canSendSubmit = true := by
  rw [canSendSubmit, h]
  rfl

theorem sends_readerNext (h : s.Ending) {event : ReaderEvent}
    (hnext : s.readerNext event = some s') :
    s.Sends s' := by
  cases event with
  | activeTest sequenceId =>
    simp only [readerNext] at hnext
    split_ifs at hnext
    cases hnext
    exact Or.inr ⟨_, rfl, by rintro ⟨⟩, by rintro ⟨⟩⟩
  | deliver sequenceId deliver ticket =>
    simp only [readerNext] at hnext
    split_ifs at hnext
    cases hnext
    exact Or.inr ⟨_, rfl, by rintro ⟨⟩, by rintro ⟨⟩⟩
  | terminate sequenceId =>
    simp only [readerNext] at hnext
    split_ifs at hnext
    cases hnext
    exact Or.inl (controlQueue_beginClosing _ _)
  | answerTerminate =>
    simp only [readerNext] at hnext
    split at hnext
    · next sequenceId hstage =>
      split_ifs at hnext
      cases hnext
      exact Or.inr ⟨_, rfl, fun _ => h.reader sequenceId hstage, by rintro ⟨⟩⟩
    · cases hnext
  | _ =>
    left
    simp only [readerNext] at hnext
    repeat' split at hnext
    all_goals cases hnext
    all_goals rfl

theorem sends_heartbeatNext {event : HeartbeatEvent} (hnext : s.heartbeatNext event = some s') :
    s.Sends s' := by
  cases event with
  | tick =>
    left
    simp only [heartbeatNext] at hnext
    repeat' split at hnext
    all_goals cases hnext
    all_goals first | rfl | exact controlQueue_finish s
  | enqueue =>
    simp only [heartbeatNext] at hnext
    split at hnext
    · split_ifs at hnext with hphase hsize
      · cases hnext
        exact Or.inl rfl
      · cases hnext
        exact Or.inl rfl
      · cases hnext
        exact Or.inr ⟨_, rfl, by rintro ⟨⟩, fun _ => canSendSubmit_of_opened (not_not.mp hphase)⟩
    · cases hnext
  | notOpen =>
    left
    simp only [heartbeatNext] at hnext
    repeat' split at hnext
    all_goals cases hnext
    all_goals rfl

theorem sends_timeoutNext {event : TimeoutEvent} (hnext : s.timeoutNext config event = some s') :
    s.Sends s' := by
  cases event with
  | retryHeartbeat =>
    simp only [timeoutNext] at hnext
    split at hnext
    · split at hnext
      · cases hnext
        exact Or.inl rfl
      · split_ifs at hnext with hphase
        · cases hnext
          exact Or.inl rfl
        · cases hnext
          exact Or.inr ⟨_, rfl, by rintro ⟨⟩, fun _ => canSendSubmit_of_opened (not_not.mp hphase)⟩
    · cases hnext
  | teardown =>
    left
    simp only [timeoutNext] at hnext
    split at hnext
    all_goals cases hnext
    all_goals exact controlQueue_finish s
  | giveUpSubmit sent =>
    left
    simp only [timeoutNext, giveUpSubmit] at hnext
    repeat' split at hnext
    all_goals cases hnext
    all_goals rfl
  | retrySubmit =>
    left
    simp only [timeoutNext, retrySubmit] at hnext
    repeat' split at hnext
    all_goals cases hnext
    all_goals rfl
  | _ =>
    left
    simp only [timeoutNext] at hnext
    repeat' split at hnext
    all_goals cases hnext
    all_goals rfl

theorem sends_closerNext (h : s.Ending) {event : CloserEvent}
    (hnext : s.closerNext event = some s') :
    s.Sends s' := by
  cases event with
  | close =>
    left
    simp only [closerNext] at hnext
    split_ifs at hnext
    have hcontrol := controlQueue_beginClosing s true
    split at hnext
    all_goals next hresult =>
      rw [hresult] at hcontrol
      cases hnext
      exact hcontrol
  | sendTerminate =>
    simp only [closerNext] at hnext
    split at hnext
    · next id hstage =>
      split_ifs at hnext
      cases hnext
      exact Or.inr ⟨_, rfl, fun _ => h.cleared (Or.inr ⟨id, hstage⟩), by rintro ⟨⟩⟩
    · cases hnext
  | leaseTerminate =>
    left
    simp only [closerNext] at hnext
    repeat' split at hnext
    all_goals cases hnext
    all_goals first | rfl | exact controlQueue_finish s
  | finish =>
    left
    simp only [closerNext] at hnext
    split at hnext
    all_goals cases hnext
    all_goals exact controlQueue_finish s
  | _ =>
    left
    simp only [closerNext] at hnext
    repeat' split at hnext
    all_goals cases hnext
    all_goals rfl

theorem sends_cleanupNext {index : ℕ} {event : CleanupEvent}
    (hnext : s.cleanupNext index event = some s') : s.Sends s' := by
  left
  cases event with
  | _ =>
    simp only [cleanupNext] at hnext
    repeat' split at hnext
    all_goals cases hnext
    all_goals rfl

theorem sends_callNext {index : ℕ} {call : SubmitCall} {event : CallEvent}
    (hnext : s.callNext gbk index call event = some s') : s.Sends s' := by
  left
  cases callNext_step hnext with
  | failing lease error hstage => exact controlQueue_finish s
  | _ => rfl

theorem sends_submit {options : SubmitOptions} {content : String} {base : Option UInt32}
    (hnext : s.submit options content base = some s') : s.Sends s' := by
  left
  rw [submit] at hnext
  repeat' split at hnext
  all_goals cases hnext
  all_goals rfl

theorem sends_next (h : s.Ending) {event : ConnectionEvent} (hwriter : ∀ e, event ≠ .writer e)
    (hnext : next gbk config s event = some s') : s.Sends s' := by
  cases event with
  | clock duration =>
    cases hnext
    exact Or.inl rfl
  | udhCounter counter =>
    cases hnext
    exact Or.inl rfl
  | submit options content base => exact sends_submit hnext
  | call index event =>
    simp only [next] at hnext
    split at hnext
    · exact sends_callNext hnext
    · cases hnext
  | writer event => exact absurd rfl (hwriter event)
  | reader event => exact sends_readerNext h hnext
  | heartbeat event => exact sends_heartbeatNext hnext
  | timeout event => exact sends_timeoutNext hnext
  | closer event => exact sends_closerNext h hnext
  | overloadClose =>
    cases hnext
    exact Or.inl (controlQueue_beginClosing s false)
  | finish =>
    cases hnext
    exact Or.inl (controlQueue_finish s)
  | finishStores =>
    simp only [next] at hnext
    split_ifs at hnext
    cases hnext
    exact Or.inl rfl
  | cleanup index event => exact sends_cleanupNext hnext

theorem beginClosing_phase (s : Connection) (drainSubmits : Bool) :
    (s.beginClosing drainSubmits).2.phase ≠ .opened := by
  rw [beginClosing]
  split
  · rintro ⟨⟩
  · next hphase =>
    split_ifs
    · rw [hphase]
      rintro ⟨⟩
    · change s.phase ≠ .opened
      rw [hphase]
      rintro ⟨⟩
  · next hphase =>
    rw [hphase]
    rintro ⟨⟩

theorem beginClosing_barred (s : Connection) : (s.beginClosing false).2.canSendSubmit = false := by
  cases hphase : s.phase with
  | opened => simp [beginClosing, hphase, canSendSubmit]
  | closing => simp [beginClosing, hphase, canSendSubmit]
  | closed => simp [beginClosing, hphase, canSendSubmit]

theorem ending_closerNext (h : s.Ending) {event : CloserEvent}
    (hnext : s.closerNext event = some s') :
    (s'.closer ≠ .idle → s'.phase ≠ .opened) ∧
      (s'.closer = .cleared ∨ (∃ id, s'.closer = .leased id) → s'.canSendSubmit = false) := by
  have hgo {t : Connection} (hphase : t.phase ≠ .opened) (hcleared : t.closer ≠ .cleared)
      (hleased : ∀ id, t.closer ≠ .leased id) : (t.closer ≠ .idle → t.phase ≠ .opened) ∧
        (t.closer = .cleared ∨ (∃ id, t.closer = .leased id) → t.canSendSubmit = false) :=
    ⟨fun _ => hphase, fun hc => absurd hc (not_or.mpr ⟨hcleared, not_exists.mpr hleased⟩)⟩
  have hphase {closer : CloserStage} (hcloser : s.closer = closer) (hidle : closer ≠ .idle) :
      s.phase ≠ .opened := h.closer (hcloser ▸ hidle)
  cases event with
  | close =>
    simp only [closerNext] at hnext
    split_ifs at hnext
    have hclosing := beginClosing_phase s true
    split at hnext
    all_goals next hresult =>
      rw [hresult] at hclosing
      cases hnext
      exact hgo hclosing (by rintro ⟨⟩) (by rintro _ ⟨⟩)
  | clearDrain =>
    simp only [closerNext] at hnext
    split_ifs at hnext with hcloser
    cases hnext
    have hunopened := hphase hcloser (by rintro ⟨⟩)
    refine ⟨fun _ => hunopened, fun _ => ?_⟩
    simp [canSendSubmit, setCloser, hunopened]
  | leaseTerminate =>
    simp only [closerNext] at hnext
    split_ifs at hnext with hcloser
    split at hnext
    · cases hnext
      rw [finish_eq]
      exact hgo (by rintro ⟨⟩) (by rintro ⟨⟩) (by rintro _ ⟨⟩)
    · cases hnext
      exact ⟨fun _ => hphase hcloser (by rintro ⟨⟩), fun _ => h.cleared (Or.inl hcloser)⟩
  | sendMarker =>
    simp only [closerNext] at hnext
    split_ifs at hnext with hcloser
    cases hnext
    exact hgo (hphase hcloser.1 (by rintro ⟨⟩)) (by rintro ⟨⟩) (by rintro _ ⟨⟩)
  | markerAnswered =>
    simp only [closerNext] at hnext
    split_ifs at hnext with hcloser
    cases hnext
    exact hgo (hphase hcloser.1 (by rintro ⟨⟩)) (by rintro ⟨⟩) (by rintro _ ⟨⟩)
  | markerGivenUp =>
    simp only [closerNext] at hnext
    split_ifs at hnext with hcloser
    cases hnext
    exact hgo (hcloser.elim (fun hc => hphase hc (by rintro ⟨⟩)) fun hc => hphase hc (by rintro ⟨⟩))
      (by rintro ⟨⟩) (by rintro _ ⟨⟩)
  | sendTerminate =>
    simp only [closerNext] at hnext
    split at hnext
    · next id hcloser =>
      split_ifs at hnext
      cases hnext
      exact hgo (hphase hcloser (by rintro ⟨⟩)) (by rintro ⟨⟩) (by rintro _ ⟨⟩)
    · cases hnext
  | handshakeOver =>
    simp only [closerNext] at hnext
    split at hnext
    · next id hcloser =>
      cases hnext
      exact hgo (hphase hcloser (by rintro ⟨⟩)) (by rintro ⟨⟩) (by rintro _ ⟨⟩)
    · next id hcloser =>
      cases hnext
      exact hgo (hphase hcloser (by rintro ⟨⟩)) (by rintro ⟨⟩) (by rintro _ ⟨⟩)
    · cases hnext
  | finish =>
    simp only [closerNext] at hnext
    split at hnext
    · cases hnext
      rw [finish_eq]
      exact hgo (by rintro ⟨⟩) (by rintro ⟨⟩) (by rintro _ ⟨⟩)
    · cases hnext
  | forget =>
    simp only [closerNext] at hnext
    split at hnext
    · next id hcloser =>
      split_ifs at hnext
      · cases hnext
        exact hgo (hphase hcloser (by rintro ⟨⟩)) (by rintro ⟨⟩) (by rintro _ ⟨⟩)
      · cases hnext
        exact hgo (hphase hcloser (by rintro ⟨⟩)) (by rintro ⟨⟩) (by rintro _ ⟨⟩)
    · cases hnext

theorem ending_readerNext (h : s.Ending) {event : ReaderEvent}
    (hnext : s.readerNext event = some s')
    {sequenceId : UInt32} (hstage : s'.reader.stage = .answeringTerminate sequenceId) :
    s'.canSendSubmit = false := by
  cases event with
  | terminate sequenceId =>
    simp only [readerNext] at hnext
    split_ifs at hnext
    cases hnext
    exact beginClosing_barred _
  | _ =>
    simp only [readerNext] at hnext
    repeat' split at hnext
    all_goals cases hnext
    all_goals first | exact h.reader _ hstage | cases hstage

theorem Sound.ending_next (hsound : s.Sound config) (h : s.Ending) {event : ConnectionEvent}
    (hnext : Connection.next gbk config s event = some s') : s'.Ending := by
  have howned := next_owned hnext
  have hopened := hsound.opened_of_next hnext
  have hbarred := hsound.barred_of_next hnext
  have hcloser (hsame : s'.closer = s.closer) : (s'.closer ≠ .idle → s'.phase ≠ .opened) ∧
      (s'.closer = .cleared ∨ (∃ id, s'.closer = .leased id) → s'.canSendSubmit = false) := by
    rw [hsame]
    exact ⟨fun hidle hopen => h.closer hidle (hopened hopen), fun hc => hbarred (h.cleared hc)⟩
  have hreader (hsame : s'.reader = s.reader) (sequenceId : UInt32)
      (hstage : s'.reader.stage = .answeringTerminate sequenceId) : s'.canSendSubmit = false := by
    rw [hsame] at hstage
    exact hbarred (h.reader sequenceId hstage)
  cases event with
  | closer event =>
    obtain ⟨hphase, hcleared⟩ := ending_closerNext h hnext
    exact ⟨hphase, hcleared, hreader (congrArg Owned.reader howned)⟩
  | reader event =>
    obtain ⟨hphase, hcleared⟩ := hcloser (congrArg Owned.closer howned)
    exact ⟨hphase, hcleared, fun _ => ending_readerNext h hnext⟩
  | _ =>
    obtain ⟨hphase, hcleared⟩ := hcloser (congrArg Owned.closer howned)
    exact ⟨hphase, hcleared, hreader (congrArg Owned.reader howned)⟩

theorem Sound.parting_next (hsound : s.Sound config) (hending : s.Ending) (h : s.Parting)
    {event : ConnectionEvent} (hnext : Connection.next gbk config s event = some s') :
    s'.Parting := by
  have howned := next_owned hnext
  have hkept (hwriter : ∀ e, event ≠ .writer e) (hsame : s'.writer = s.writer)
      (hhanded : s'.log.handed = s.log.handed) : s'.Parting := by
    have hunderway : s'.underway =
        unhanded s.writer ++ (s.writer.stage.hand.toList ++ s'.controlQueue) := by
      rw [underway, hsame]
    have hfarewell : Farewell s.canSendSubmit s.log.handed s'.underway (claimedBatch s.writer) := by
      rw [hunderway]
      rcases sends_next hending hwriter hnext with hcontrol | ⟨o, hcontrol, hterminate, hheartbeat⟩
      · rw [hcontrol]
        exact h
      · have hqueue := h.queue hterminate hheartbeat
        rw [underway, List.append_assoc, List.append_assoc] at hqueue
        rw [hcontrol]
        exact hqueue
    rw [Parting, hhanded, hsame]
    exact hfarewell.bar (hsound.barred_of_next hnext)
  cases event with
  | writer event => exact h.writerMove hsound.wired (writerNext_move hnext)
  | _ =>
    exact hkept (fun e he => by cases he) (congrArg Owned.writer howned)
      (congrArg Owned.handed howned)

theorem ending_initial (config : ConnectionConfig) (clock : ℕ) (udhCounter : UInt32) :
    (initial config clock udhCounter).Ending where
  closer h := absurd rfl h
  cleared h := by rcases h with h | ⟨_, h⟩ <;> cases h
  reader _ h := by cases h

theorem parting_initial (config : ConnectionConfig) (clock : ℕ) (udhCounter : UInt32) :
    (initial config clock udhCounter).Parting := by
  have hunderway : (initial config clock udhCounter).underway = [] := rfl
  rw [Parting, hunderway]
  exact ⟨fun o ho => absurd ho List.not_mem_nil, .nil, .nil⟩

/-- Of the frames handed to the socket no SUBMIT and no heartbeat comes after the TERMINATE, and
none after the response to the TERMINATE of the peer. -/
theorem nothing_follows_terminate {clock : ℕ} {udhCounter : UInt32} {events : List ConnectionEvent}
    (hrun : (machine gbk config clock udhCounter).Run events s) :
    s.log.handed.Pairwise fun earlier later => earlier.isTerminate = true →
      later.submitAttempt = none ∧ later.heartbeatAttempt = none := by
  have hinv := hrun.invariant (I := fun _ s => s.Sound config ∧ s.Ending ∧ s.Parting)
    (fun s hs => by
      obtain rfl : s = initial config clock udhCounter := hs
      exact ⟨sound_initial config clock udhCounter, ending_initial config clock udhCounter,
        parting_initial config clock udhCounter⟩)
    fun _ _ _ _ ⟨hsound, hending, hparting⟩ hnext => ⟨hsound.next hnext,
      hsound.ending_next hending hnext, hsound.parting_next hending hparting hnext⟩
  obtain ⟨_, hheartbeats, hsubmits⟩ := hinv.2.2
  have hbeats := (List.pairwise_append.mp hheartbeats).1
  have hframes := (List.pairwise_append.mp hsubmits).1
  refine (hbeats.and hframes).imp fun h hterminate => ?_
  obtain ⟨hheartbeat, hsubmit⟩ := h
  refine ⟨Option.not_isSome_iff_eq_none.mp ?_, Option.not_isSome_iff_eq_none.mp ?_⟩
  · exact Bool.eq_false_iff.mp (hsubmit hterminate)
  · exact Bool.eq_false_iff.mp (hheartbeat hterminate)

/-- One SUBMIT is sent, and the TERMINATE after it. -/
theorem nothing_follows_terminate_closed : ∃ events s,
    (machine asciiGbk smallConfig 0 0).Run events s ∧
      s.log.handed.map Outbound.isTerminate = [false, true] ∧
      s.log.handed.Pairwise fun earlier later => earlier.isTerminate = true →
        later.submitAttempt = none ∧ later.heartbeatAttempt = none := by
  have hexec : (Machine.exec (next asciiGbk smallConfig) (initial smallConfig 0 0) (admitOne ++
      writeOne ++ [.closer .close, .closer .markerGivenUp, .closer .clearDrain,
        .closer .leaseTerminate, .closer .sendTerminate] ++
          List.replicate 10 (.writer .advance))).map
        (fun s => s.log.handed.map Outbound.isTerminate) = some [false, true] := by decide +kernel
  obtain ⟨s, hrun, hhanded⟩ := Machine.exists_run_of_exec _ hexec
  exact ⟨_, s, hrun, hhanded, nothing_follows_terminate hrun⟩

end Connection

end CmppProtocol
