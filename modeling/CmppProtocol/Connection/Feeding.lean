import CmppProtocol.Connection.Traffic

/-! # What the other tasks do to the queues

Every task but the writer leaves the writer alone and puts frames behind the two
queues at most.
-/

namespace CmppProtocol

/-- The control frames that the tasks build. -/
inductive Outbound.FromTask : Outbound → Prop
  | plain (packet : List UInt8) : (Outbound.plain packet).FromTask
  | afterWrite (packet : List UInt8) (startedAt ticket : ℕ) (event : Event) :
    (Outbound.afterWrite packet startedAt ticket event).FromTask
  | heartbeat (packet : List UInt8) (key : HeartbeatAttemptKey) :
    (Outbound.heartbeat packet key).FromTask
  | localTerminate (packet : List UInt8) : (Outbound.localTerminate packet).FromTask
  | peerTerminateResponse (packet : List UInt8) : (Outbound.peerTerminateResponse packet).FromTask

namespace Connection

variable {gbk : Gbk} {config : ConnectionConfig} {s s' : Connection}

structure Feeds (s s' : Connection) : Prop where
  writer : s'.writer = s.writer
  handed : s'.log.handed = s.log.handed
  written : s'.log.written = s.log.written
  submits : s.submitQueue <+: s'.submitQueue
  controls : ∃ sent, s'.controlQueue = s.controlQueue ++ sent ∧ ∀ o ∈ sent, o.FromTask

theorem Feeds.of_same (hwriter : s'.writer = s.writer) (hhanded : s'.log.handed = s.log.handed)
    (hwritten : s'.log.written = s.log.written) (hsubmits : s'.submitQueue = s.submitQueue)
    (hcontrols : s'.controlQueue = s.controlQueue) : s.Feeds s' :=
  ⟨hwriter, hhanded, hwritten, hsubmits ▸ List.prefix_refl _, [],
    hcontrols.trans (List.append_nil _).symm, List.forall_mem_nil _⟩

theorem Feeds.of_submit (hwriter : s'.writer = s.writer) (hhanded : s'.log.handed = s.log.handed)
    (hwritten : s'.log.written = s.log.written) {outbound : Outbound}
    (hsubmits : s'.submitQueue = s.submitQueue ++ [outbound])
    (hcontrols : s'.controlQueue = s.controlQueue) : s.Feeds s' :=
  ⟨hwriter, hhanded, hwritten, hsubmits ▸ List.prefix_append _ _, [],
    hcontrols.trans (List.append_nil _).symm, List.forall_mem_nil _⟩

theorem Feeds.of_control (hwriter : s'.writer = s.writer) (hhanded : s'.log.handed = s.log.handed)
    (hwritten : s'.log.written = s.log.written) (hsubmits : s'.submitQueue = s.submitQueue)
    {outbound : Outbound} (hcontrols : s'.controlQueue = s.controlQueue ++ [outbound])
    (hbuilt : outbound.FromTask) : s.Feeds s' :=
  ⟨hwriter, hhanded, hwritten, hsubmits ▸ List.prefix_refl _, [outbound], hcontrols,
    List.forall_mem_singleton.mpr hbuilt⟩

theorem feeds_finish (s : Connection) : s.Feeds s.finish := by
  rw [finish_eq]
  exact .of_same rfl rfl rfl rfl rfl

theorem feeds_beginClosing (s : Connection) (drainSubmits : Bool) :
    s.Feeds (s.beginClosing drainSubmits).2 := by
  obtain ⟨_, _, _, heq⟩ := s.beginClosing_eq drainSubmits
  rw [heq]
  exact .of_same rfl rfl rfl rfl rfl

theorem Feeds.trans {t : Connection} (h : s.Feeds t) (ht : t.Feeds s') : s.Feeds s' := by
  obtain ⟨sent, hsent, hbuilt⟩ := h.controls
  obtain ⟨sent', hsent', hbuilt'⟩ := ht.controls
  refine ⟨ht.writer.trans h.writer, ht.handed.trans h.handed, ht.written.trans h.written,
    h.submits.trans ht.submits, sent ++ sent', ?_, List.forall_mem_append.mpr ⟨hbuilt, hbuilt'⟩⟩
  rw [hsent', hsent, List.append_assoc]

theorem feeds_callNext {index : ℕ} {call : SubmitCall} {event : CallEvent}
    (hnext : s.callNext gbk index call event = some s') : s.Feeds s' := by
  cases callNext_step hnext with
  | failing lease error hstage =>
    exact s.feeds_finish.trans (.of_same rfl rfl rfl rfl rfl)
  | admitted lease packet key retired registry hstage hopen hretire =>
    exact .of_submit rfl rfl rfl rfl rfl
  | _ => exact .of_same rfl rfl rfl rfl rfl

theorem feeds_submit {options : SubmitOptions} {content : String} {base : Option UInt32}
    (hnext : s.submit options content base = some s') : s.Feeds s' := by
  rw [submit] at hnext
  repeat' split at hnext
  all_goals cases hnext
  all_goals exact .of_same rfl rfl rfl rfl rfl

theorem feeds_readerNext {event : ReaderEvent} (hnext : s.readerNext event = some s') :
    s.Feeds s' := by
  cases event with
  | activeTest sequenceId =>
    simp only [readerNext] at hnext
    split_ifs at hnext
    cases hnext
    exact .of_control rfl rfl rfl rfl rfl (.plain _)
  | deliver sequenceId deliver ticket =>
    simp only [readerNext] at hnext
    split_ifs at hnext
    cases hnext
    exact .of_control rfl rfl rfl rfl rfl (.afterWrite _ _ _ _)
  | terminate sequenceId =>
    simp only [readerNext] at hnext
    split_ifs at hnext
    cases hnext
    have h := feeds_beginClosing { s with peerTerminateSeen := true } false
    exact ⟨h.writer, h.handed, h.written, h.submits, h.controls⟩
  | answerTerminate =>
    simp only [readerNext] at hnext
    split at hnext
    · split_ifs at hnext
      cases hnext
      exact .of_control rfl rfl rfl rfl rfl (.peerTerminateResponse _)
    · cases hnext
  | _ =>
    simp only [readerNext] at hnext
    repeat' split at hnext
    all_goals cases hnext
    all_goals exact .of_same rfl rfl rfl rfl rfl

theorem feeds_heartbeatNext {event : HeartbeatEvent} (hnext : s.heartbeatNext event = some s') :
    s.Feeds s' := by
  cases event with
  | tick =>
    simp only [heartbeatNext] at hnext
    repeat' split at hnext
    all_goals cases hnext
    · exact s.feeds_finish.trans (.of_same rfl rfl rfl rfl rfl)
    all_goals exact .of_same rfl rfl rfl rfl rfl
  | enqueue =>
    simp only [heartbeatNext] at hnext
    split at hnext
    · split_ifs at hnext
      all_goals cases hnext
      · exact .of_same rfl rfl rfl rfl rfl
      · exact .of_same rfl rfl rfl rfl rfl
      · exact .of_control rfl rfl rfl rfl rfl (.heartbeat _ _)
    · cases hnext
  | notOpen =>
    simp only [heartbeatNext] at hnext
    repeat' split at hnext
    all_goals cases hnext
    all_goals exact .of_same rfl rfl rfl rfl rfl

theorem feeds_timeoutNext {event : TimeoutEvent} (hnext : s.timeoutNext config event = some s') :
    s.Feeds s' := by
  cases event with
  | retryHeartbeat =>
    simp only [timeoutNext] at hnext
    split at hnext
    · split at hnext
      · cases hnext
        exact .of_same rfl rfl rfl rfl rfl
      · split_ifs at hnext
        all_goals cases hnext
        · exact .of_same rfl rfl rfl rfl rfl
        · exact .of_control rfl rfl rfl rfl rfl (.heartbeat _ _)
    · cases hnext
  | teardown =>
    simp only [timeoutNext] at hnext
    split at hnext
    all_goals cases hnext
    all_goals exact s.feeds_finish.trans (.of_same rfl rfl rfl rfl rfl)
  | giveUpSubmit sent =>
    simp only [timeoutNext, giveUpSubmit] at hnext
    repeat' split at hnext
    all_goals cases hnext
    all_goals exact .of_same rfl rfl rfl rfl rfl
  | retrySubmit =>
    simp only [timeoutNext, retrySubmit] at hnext
    split at hnext
    · split at hnext
      · cases hnext
        exact .of_same rfl rfl rfl rfl rfl
      · split_ifs at hnext
        all_goals cases hnext
        · exact .of_same rfl rfl rfl rfl rfl
        · exact .of_submit rfl rfl rfl rfl rfl
    · cases hnext
  | _ =>
    simp only [timeoutNext] at hnext
    repeat' split at hnext
    all_goals cases hnext
    all_goals exact .of_same rfl rfl rfl rfl rfl

theorem feeds_closerNext {event : CloserEvent} (hnext : s.closerNext event = some s') :
    s.Feeds s' := by
  cases event with
  | close =>
    simp only [closerNext] at hnext
    split_ifs at hnext
    have hclosing := s.feeds_beginClosing true
    split at hnext
    all_goals next hresult =>
      rw [hresult] at hclosing
      cases hnext
      exact hclosing.trans (.of_same rfl rfl rfl rfl rfl)
  | sendMarker =>
    simp only [closerNext] at hnext
    split_ifs at hnext
    cases hnext
    exact .of_submit rfl rfl rfl rfl rfl
  | sendTerminate =>
    simp only [closerNext] at hnext
    split at hnext
    · split_ifs at hnext
      cases hnext
      exact .of_control rfl rfl rfl rfl rfl (.localTerminate _)
    · cases hnext
  | leaseTerminate =>
    simp only [closerNext] at hnext
    repeat' split at hnext
    all_goals cases hnext
    · exact s.feeds_finish.trans (.of_same rfl rfl rfl rfl rfl)
    · exact .of_same rfl rfl rfl rfl rfl
  | finish =>
    simp only [closerNext] at hnext
    split at hnext
    all_goals cases hnext
    exact s.feeds_finish.trans (.of_same rfl rfl rfl rfl rfl)
  | _ =>
    simp only [closerNext] at hnext
    repeat' split at hnext
    all_goals cases hnext
    all_goals exact .of_same rfl rfl rfl rfl rfl

theorem feeds_cleanupNext {index : ℕ} {event : CleanupEvent}
    (hnext : s.cleanupNext index event = some s') : s.Feeds s' := by
  cases event with
  | _ =>
    simp only [cleanupNext] at hnext
    repeat' split at hnext
    all_goals cases hnext
    all_goals exact .of_same rfl rfl rfl rfl rfl

theorem feeds_next {event : ConnectionEvent} (hwriter : ∀ e, event ≠ .writer e)
    (hnext : next gbk config s event = some s') : s.Feeds s' := by
  cases event with
  | clock duration =>
    cases hnext
    exact .of_same rfl rfl rfl rfl rfl
  | udhCounter counter =>
    cases hnext
    exact .of_same rfl rfl rfl rfl rfl
  | submit options content base => exact feeds_submit hnext
  | call index event =>
    simp only [next] at hnext
    split at hnext
    · exact feeds_callNext hnext
    · cases hnext
  | writer event => exact absurd rfl (hwriter event)
  | reader event => exact feeds_readerNext hnext
  | heartbeat event => exact feeds_heartbeatNext hnext
  | timeout event => exact feeds_timeoutNext hnext
  | closer event => exact feeds_closerNext hnext
  | overloadClose =>
    cases hnext
    exact s.feeds_beginClosing false
  | finish =>
    cases hnext
    exact s.feeds_finish
  | finishStores =>
    simp only [next] at hnext
    split_ifs at hnext
    cases hnext
    exact .of_same rfl rfl rfl rfl rfl
  | cleanup index event => exact feeds_cleanupNext hnext

end Connection

end CmppProtocol
