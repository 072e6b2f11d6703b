import CmppProtocol.Connection.Simulation

/-! # The other tasks as steps of the window

Submit calls, the reader, the heartbeat, the timeout scan, the closer and the
cleanups. An admission is a step because the id of a reserved call is new.
-/

namespace CmppProtocol

namespace Connection

variable {gbk : Gbk} {config : ConnectionConfig} {s s' : Connection} {index : ℕ} {call : SubmitCall}

/-- A step that leaves the submit queue and the writer alone. -/
theorem Wired.transfer (hw : s.Wired config) (hsubmits : s'.submitQueue = s.submitQueue)
    (hcontrols : ∀ o ∈ s'.controlQueue, o.IsControl) (hwriter : s'.writer = s.writer)
    (hfinishing : s'.finishing = true → s'.phase = .closed) (htimeout : s'.timeout = s.timeout)
    (hclock : s'.clock = s.clock) : s'.Wired config := by
  refine ⟨?_, hcontrols, ?_, hfinishing, ?_⟩
  · rw [hsubmits]
    exact hw.submits
  · rw [hwriter]
    exact hw.writer
  · rw [htimeout, hclock]
    exact hw.timeout

/-- A step that the window does not show, with the control queue as it says. -/
theorem follows_controls (hw : s.Wired config) (hsubmits : s'.submitQueue = s.submitQueue)
    (hcontrols : ∀ o ∈ s'.controlQueue, o.IsControl) (hwriter : s'.writer = s.writer)
    (hfinishing : s'.finishing = s.finishing) (htimeout : s'.timeout = s.timeout)
    (hwindow : s'.window = s.window) : Follows config s s' := by
  have hphase : s'.phase = s.phase := congrArg Window.phase hwindow
  have hclock : s'.clock = s.clock := congrArg Window.clock hwindow
  refine ⟨hw.transfer hsubmits hcontrols hwriter ?_ htimeout hclock, Or.inl hwindow⟩
  rw [hfinishing, hphase]
  exact hw.finishing

theorem follows_silent (hw : s.Wired config) (hsubmits : s'.submitQueue = s.submitQueue)
    (hcontrols : s'.controlQueue = s.controlQueue) (hwriter : s'.writer = s.writer)
    (hfinishing : s'.finishing = s.finishing) (htimeout : s'.timeout = s.timeout)
    (hwindow : s'.window = s.window) : Follows config s s' :=
  follows_controls hw hsubmits (by rw [hcontrols]; exact hw.controls) hwriter hfinishing htimeout
    hwindow

theorem follows_pushControl (hw : s.Wired config) {outbound : Outbound} (ho : outbound.IsControl)
    (hsubmits : s'.submitQueue = s.submitQueue)
    (hcontrols : s'.controlQueue = s.controlQueue ++ [outbound]) (hwriter : s'.writer = s.writer)
    (hfinishing : s'.finishing = s.finishing) (htimeout : s'.timeout = s.timeout)
    (hwindow : s'.window = s.window) : Follows config s s' := by
  refine follows_controls hw hsubmits ?_ hwriter hfinishing htimeout hwindow
  rw [hcontrols]
  exact List.forall_mem_append.mpr ⟨hw.controls, List.forall_mem_singleton.mpr ho⟩

/-- The step ends the connection and changes nothing else that the window shows. -/
theorem follows_finishing (hw : s.Wired config) (hsubmits : s'.submitQueue = s.submitQueue)
    (hcontrols : s'.controlQueue = s.controlQueue) (hwriter : s'.writer = s.writer)
    (htimeout : s'.timeout = s.timeout) (hwindow : s'.window = s.finish.window) :
    Follows config s s' := by
  rw [finish_window] at hwindow
  have hphase : s'.phase = .closed := congrArg Window.phase hwindow
  have hclock : s'.clock = s.clock := congrArg Window.clock hwindow
  refine ⟨hw.transfer hsubmits ?_ hwriter (fun _ => hphase) htimeout hclock, Or.inr ?_⟩
  · rw [hcontrols]
    exact hw.controls
  · rw [hwindow]
    exact .finish

/-! ## Submit calls -/

theorem follows_commitSubmit (hw : s.Wired config) (hledger : Ledger config s.holdings)
    (hcall : call ∈ s.calls) {lease retired : SequenceLease} {packet : List UInt8}
    {key : SubmitAttemptKey} (hstage : call.stage = .reserved lease packet key)
    (hopen : s.phase = .opened) (registry : SequenceState) :
    Follows config s (({ s with sequenceRegistry := registry } : Connection).commitSubmit index call
      retired packet key) := by
  have hold := hledger.calls call hcall
  obtain ⟨hkey, hattempt⟩ := hold.keyed lease packet key (Or.inr hstage)
  have hfresh : key.sequenceId ∉ s.log.admissions.map Admission.sequenceId := by
    rw [hkey]
    exact hold.fresh lease (by rw [Ledger.leases_of_reserved hstage]; exact List.mem_cons_self)
  have hnone : s.pendingSubmits.find key.sequenceId = none := hledger.find_reserved hcall hstage
  refine ⟨⟨?_, hw.controls, hw.writer, hw.finishing, hw.timeout⟩, Or.inr ?_⟩
  · exact List.forall_mem_append.mpr
      ⟨hw.submits, List.forall_mem_singleton.mpr (Or.inl ⟨packet, key, rfl⟩)⟩
  have hframe : Outbound.submit packet key =
      .submit packet ⟨key.sequenceId, key.submissionId, 1⟩ := by rw [← hattempt]
  have hwindow : (({ s with sequenceRegistry := registry } : Connection).commitSubmit index call
      retired packet key).window = { s.window with
        pending := s.pendingSubmits.insert key.sequenceId
          ⟨key.submissionId, packet, .queued 1, call.udhReference.map fun _ => index, retired⟩
        line := s.window.line ++ [.submit packet ⟨key.sequenceId, key.submissionId, 1⟩]
        metrics := { s.metrics with submitsAdmitted := s.metrics.submitsAdmitted + 1 }
        log := { s.window.log with
          admissions := s.log.admissions ++
            [⟨index, call.sequenceIds.length, key.sequenceId, key.submissionId, packet⟩]
          enqueued := s.log.enqueued ++
            [(⟨key.sequenceId, key.submissionId, 1⟩, s.clock)] } } := by
    apply Window.ext
    case line =>
      simp only [window, commitSubmit, setCall, List.filter_append, ← List.append_assoc, hframe]
      rfl
    case log => simp only [window, commitSubmit, setCall, ← hattempt]
    all_goals rfl
  rw [hwindow]
  apply Window.Step.admitSubmit
    ⟨index, call.sequenceIds.length, key.sequenceId, key.submissionId, packet⟩
    ⟨key.submissionId, packet, .queued 1, call.udhReference.map fun _ => index, retired⟩ hopen
  · exact fun a ha heq => hfresh (List.mem_map.mpr ⟨a, ha, heq⟩)
  · exact hnone
  all_goals rfl

theorem follows_callNext (hw : s.Wired config) (hledger : Ledger config s.holdings)
    (hcall : s.calls[index]? = some call) {event : CallEvent}
    (h : s.callNext gbk index call event = some s') : Follows config s s' := by
  cases callNext_step h with
  | admitted lease packet key retired registry hstage hopen hretire =>
    exact follows_commitSubmit hw hledger (List.mem_of_getElem? hcall) hstage hopen registry
  | failing lease error hstage =>
    apply follows_finishing hw
    all_goals rw [finish_eq]
    all_goals rfl
  | _ => exact follows_silent hw rfl rfl rfl rfl rfl rfl

theorem follows_submit (hw : s.Wired config) {options : SubmitOptions} {content : String}
    {base : Option UInt32} (h : s.submit options content base = some s') : Follows config s s' := by
  rw [submit] at h
  split_ifs at h
  · cases h
    exact follows_silent hw rfl rfl rfl rfl rfl rfl
  · cases h
    exact follows_silent hw rfl rfl rfl rfl rfl rfl
  split at h
  · cases h
    exact follows_silent hw rfl rfl rfl rfl rfl rfl
  · cases h
    exact follows_silent hw rfl rfl rfl rfl rfl rfl
  · cases h

/-! ## The reader -/

theorem beginClosing_opened (hphase : s.phase = .opened) (drainSubmits : Bool) :
    s.beginClosing drainSubmits =
      (true, { s with drainSubmitsOnClose := drainSubmits, phase := .closing }) := by
  simp only [beginClosing, hphase]

theorem beginClosing_closing (hphase : s.phase = .closing) :
    s.beginClosing false =
      (false, { s with drainSubmitsOnClose := false, log := { s.log with drainCut := true } }) := by
  simp [beginClosing, hphase]

theorem beginClosing_unopened (hphase : s.phase ≠ .opened) {drainSubmits : Bool}
    (h : drainSubmits = true ∨ s.phase = .closed) : s.beginClosing drainSubmits = (false, s) := by
  rw [beginClosing]
  split
  · next hopen => exact absurd hopen hphase
  · next hclosing =>
    rw [if_pos (h.resolve_right fun hclosed => by rw [hclosing] at hclosed; cases hclosed)]
  · rfl

theorem follows_beginClosing (hw : s.Wired config) : Follows config s (s.beginClosing false).2 := by
  cases hphase : s.phase with
  | opened =>
    rw [beginClosing_opened hphase]
    refine ⟨⟨hw.submits, hw.controls, hw.writer, fun hf => ?_, hw.timeout⟩,
      Or.inr (.beginClosing false s.closer hphase (Or.inl rfl))⟩
    have hclosed := hw.finishing hf
    rw [hphase] at hclosed
    cases hclosed
  | closing =>
    rw [beginClosing_closing hphase]
    exact ⟨⟨hw.submits, hw.controls, hw.writer, hw.finishing, hw.timeout⟩,
      Or.inr (.cutDrain s.closer (Or.inl rfl))⟩
  | closed =>
    rw [beginClosing_unopened (by rw [hphase]; exact nofun) (Or.inr hphase)]
    exact ⟨hw, Or.inl rfl⟩

theorem follows_readerNext (hw : s.Wired config) {event : ReaderEvent}
    (h : s.readerNext event = some s') :
    Follows config s s' := by
  cases event with
  | submitResp response =>
    simp only [readerNext] at h
    split_ifs at h
    cases h
    exact follows_silent hw rfl rfl rfl rfl rfl rfl
  | matchResps =>
    simp only [readerNext] at h
    split_ifs at h with hemitting
    cases h
    exact ⟨⟨hw.submits, hw.controls, hw.writer, hw.finishing, hw.timeout⟩,
      Or.inr (.matchResps s.reader.pendingResps hemitting)⟩
  | emitResp sent =>
    simp only [readerNext] at h
    split at h
    · cases h
    · next sequenceId msgId result emitting hemitting =>
      cases h
      exact ⟨⟨hw.submits, hw.controls, hw.writer, hw.finishing, hw.timeout⟩,
        Or.inr (.emitResp ⟨sequenceId, msgId, result⟩ emitting sent hemitting)⟩
  | activeTest sequenceId =>
    simp only [readerNext] at h
    split_ifs at h
    cases h
    exact follows_pushControl hw (Outbound.isControl_plain _) rfl rfl rfl rfl rfl rfl
  | activeTestResp sequenceId =>
    simp only [readerNext] at h
    split_ifs at h
    cases h
    exact follows_silent hw rfl rfl rfl rfl rfl rfl
  | deliver sequenceId deliver ticket =>
    simp only [readerNext] at h
    split_ifs at h
    cases h
    exact follows_pushControl hw (Outbound.isControl_afterWrite _ _ _ _) rfl rfl rfl rfl rfl rfl
  | terminate sequenceId =>
    simp only [readerNext] at h
    split_ifs at h
    cases h
    have hseen : ({ s with peerTerminateSeen := true } : Connection).Wired config :=
      ⟨hw.submits, hw.controls, hw.writer, hw.finishing, hw.timeout⟩
    have hclosing : Follows config _ _ := follows_beginClosing hseen
    have hwired := hclosing.wired
    exact ⟨⟨hwired.submits, hwired.controls, hwired.writer, hwired.finishing, hwired.timeout⟩,
      hclosing.window⟩
  | answerTerminate =>
    simp only [readerNext] at h
    split at h
    · split_ifs at h
      cases h
      exact follows_pushControl hw (Outbound.isControl_peerTerminateResponse _) rfl rfl
        rfl rfl rfl rfl
    · cases h
  | answered =>
    simp only [readerNext] at h
    split_ifs at h
    cases h
    exact follows_silent hw rfl rfl rfl rfl rfl rfl
  | terminateResp sequenceId =>
    simp only [readerNext] at h
    split_ifs at h
    · cases h
      exact follows_silent hw rfl rfl rfl rfl rfl rfl
    · cases h
      exact follows_silent hw rfl rfl rfl rfl rfl rfl
  | stop =>
    simp only [readerNext] at h
    split_ifs at h
    cases h
    exact follows_silent hw rfl rfl rfl rfl rfl rfl

/-! ## Heartbeats -/

theorem follows_heartbeatNext (hw : s.Wired config) {event : HeartbeatEvent}
    (h : s.heartbeatNext event = some s') : Follows config s s' := by
  cases event with
  | tick =>
    simp only [heartbeatNext] at h
    split_ifs at h
    · split at h
      · cases h
        apply follows_finishing hw
        all_goals rw [finish_eq]
        all_goals rfl
      · cases h
        exact follows_silent hw rfl rfl rfl rfl rfl rfl
    · cases h
      exact follows_silent hw rfl rfl rfl rfl rfl rfl
  | enqueue =>
    simp only [heartbeatNext] at h
    split at h
    · split_ifs at h
      · cases h
        exact follows_silent hw rfl rfl rfl rfl rfl rfl
      · cases h
        exact follows_silent hw rfl rfl rfl rfl rfl rfl
      · cases h
        exact follows_pushControl hw (Outbound.isControl_heartbeat _ _) rfl rfl rfl rfl rfl rfl
    · cases h
  | notOpen =>
    simp only [heartbeatNext] at h
    split_ifs at h
    split at h
    · cases h
      exact follows_silent hw rfl rfl rfl rfl rfl rfl
    · cases h
      exact follows_silent hw rfl rfl rfl rfl rfl rfl
    · cases h

/-! ## Timeouts -/

/-- The scan goes on: it looks at the clock again, or at fewer keys. -/
theorem follows_setTimeout (hw : s.Wired config) {timeout : TimeoutStage}
    (htimed : timeout.Timed config s.clock)
    (hkeys : timeout.keys = [] ∨ timeout.now = s.timeout.now ∧ timeout.keys ⊆ s.timeout.keys) :
    Follows config s (s.setTimeout timeout) :=
  ⟨⟨hw.submits, hw.controls, hw.writer, hw.finishing, htimed⟩,
    Or.inr (.attend _ _ htimed.now_le hkeys)⟩

/-- At a stage without keys only the reading has to lie in the past. -/
theorem follows_pass (hw : s.Wired config) {timeout : TimeoutStage} (hpast : timeout.now ≤ s.clock)
    (hkeys : timeout.keys = []) : Follows config s (s.setTimeout timeout) := by
  refine follows_setTimeout hw ⟨hpast, ?_⟩ (Or.inl hkeys)
  rintro now key keys rfl
  cases hkeys

theorem follows_giveUpSubmit (hw : s.Wired config) (hledger : Ledger config s.holdings) {now : ℕ}
    {key : SubmitAttemptKey} {keys : List SubmitAttemptKey} (sent : Bool)
    (hstage : s.timeout = .expired now (key :: keys))
    (hattempt : ¬ key.attempt < config.retryCount) :
    Follows config s (s.giveUpSubmit now key keys sent) := by
  have htimed : (TimeoutStage.expired now keys).Timed config s.clock := by
    have htimed := hw.timeout
    rw [hstage] at htimed
    exact ⟨htimed.now_le, nofun⟩
  have hexpired : s.window.expired = key :: keys := by
    rw [window, hstage]
    rfl
  have hnow : s.timeout.now = now := by
    rw [hstage]
    rfl
  rw [giveUpSubmit]
  split
  · apply follows_setTimeout hw htimed
    rw [hstage]
    exact Or.inr ⟨rfl, List.subset_cons_self key keys⟩
  next entry hawait =>
  cases sent with
  | false =>
    refine ⟨⟨hw.submits, hw.controls, hw.writer, hw.finishing, htimed⟩, Or.inr ?_⟩
    have hwindow : (({ s with metrics := { s.metrics with
        eventsDropped := s.metrics.eventsDropped + 1 } } : Connection).setTimeout
          (.expired now keys)).window = { s.window with
        expired := keys
        metrics := { s.metrics with eventsDropped := s.metrics.eventsDropped + 1 } } := by
      apply Window.ext
      case now => exact hnow.symm
      all_goals rfl
    exact hwindow ▸ .giveUpLost key keys hexpired
  | true =>
    obtain ⟨hretire, _⟩ := hledger.giveUp (stillAwaiting_some hawait).1
    change entry.sequenceLease.retire s.sequenceRegistry = _ at hretire
    simp only [hretire]
    refine ⟨⟨hw.submits, hw.controls, hw.writer, hw.finishing, htimed⟩, Or.inr ?_⟩
    have hstep : Window.Step config s.window _ := .giveUp key keys entry hexpired
      (not_lt.mp hattempt) hawait
    convert hstep using 1
    apply Window.ext
    case now => exact hnow.symm
    all_goals rfl

theorem follows_retrySubmit (hw : s.Wired config) {now : ℕ} {key : SubmitAttemptKey}
    {keys : List SubmitAttemptKey} (hstage : s.timeout = .retrySlot now key keys) :
    Follows config s (s.retrySubmit now key keys) := by
  have htimed : (TimeoutStage.expired now keys).Timed config s.clock := by
    have htimed := hw.timeout
    rw [hstage] at htimed
    exact ⟨htimed.now_le, nofun⟩
  have hexpired : s.window.expired = key :: keys := by
    rw [window, hstage]
    rfl
  have hnow : s.timeout.now = now := by
    rw [hstage]
    rfl
  have hskip : Follows config s (s.setTimeout (.expired now keys)) := by
    apply follows_setTimeout hw htimed
    rw [hstage]
    exact Or.inr ⟨rfl, List.subset_cons_self key keys⟩
  rw [retrySubmit]
  split
  · exact hskip
  next entry hawait =>
  split_ifs with hopen
  · exact hskip
  have hstep : Window.Step config s.window _ := .retry key keys entry
    (not_not.mp hopen) hexpired (hw.timeout.slot now key keys hstage) hawait
  refine ⟨⟨?_, hw.controls, hw.writer, hw.finishing, htimed⟩, Or.inr ?_⟩
  · exact List.forall_mem_append.mpr
      ⟨hw.submits, List.forall_mem_singleton.mpr (Or.inl ⟨_, _, rfl⟩)⟩
  · convert hstep using 1
    apply Window.ext
    case now => exact hnow.symm
    case line =>
      simp only [window, setTimeout, List.filter_append, ← List.append_assoc]
      rfl
    all_goals rfl

theorem follows_teardown (hw : s.Wired config)
    (hstage : s.timeout = .heartbeatExhausted ∨ s.timeout = .failing) :
    Follows config s (s.finish.setTimeout .stopped) := by
  have hw' := wired_finish hw
  have hwindow : (s.finish.setTimeout .stopped).window = s.finish.window := by
    rw [finish_eq]
    apply Window.ext
    case now =>
      simp only [window, setTimeout]
      rcases hstage with hstage | hstage <;> rw [hstage] <;> rfl
    case expired =>
      simp only [window, setTimeout]
      rcases hstage with hstage | hstage <;> rw [hstage] <;> rfl
    all_goals rfl
  constructor
  · exact ⟨hw'.submits, hw'.controls, hw'.writer, hw'.finishing,
      ⟨Nat.zero_le _, by rintro _ _ _ ⟨⟩⟩⟩
  · rw [hwindow, finish_window]
    exact Or.inr .finish

theorem follows_giveUpHeartbeat (hw : s.Wired config) (key : HeartbeatAttemptKey)
    (entry : PendingHeartbeat) :
    Follows config s (({ s with
      sequenceRegistry := entry.sequenceLease.drop s.sequenceRegistry
      heartbeatPending := s.heartbeatPending.erase key.sequenceId } : Connection).setTimeout
        .heartbeatExhausted) := by
  have hexhausted : Follows config s (s.setTimeout .heartbeatExhausted) :=
    follows_pass hw (Nat.zero_le _) rfl
  exact ⟨⟨hw.submits, hw.controls, hw.writer, hw.finishing, hexhausted.wired.timeout⟩,
    hexhausted.window⟩

/-- One more ACTIVE_TEST is queued. -/
theorem follows_retryHeartbeat (hw : s.Wired config) {now : ℕ} (hnow : now ≤ s.clock)
    (key : HeartbeatAttemptKey) (packet : List UInt8)
    (heartbeatPending : OrderedMap ℕ PendingHeartbeat) :
    Follows config s (({ s with
      heartbeatPending
      controlQueue := s.controlQueue ++ [.heartbeat packet key] } : Connection).setTimeout
        (.heartbeatChecked now)) := by
  have hchecked : Follows config s (s.setTimeout (.heartbeatChecked now)) :=
    follows_pass hw hnow rfl
  refine ⟨⟨hw.submits, ?_, hw.writer, hw.finishing, hchecked.wired.timeout⟩, hchecked.window⟩
  exact List.forall_mem_append.mpr
    ⟨hw.controls, List.forall_mem_singleton.mpr (Outbound.isControl_heartbeat _ _)⟩

theorem follows_scanSubmits (hw : s.Wired config) {now : ℕ}
    (hstage : s.timeout = .heartbeatChecked now) :
    Follows config s (s.setTimeout (.expired now (expiredSubmits s.pendingSubmits now
      config.responseTimeout config.submitRetryBatchSize))) := by
  have hsame : s.timeout.now = now := by
    rw [hstage]
    rfl
  have hnow : now ≤ s.clock := hsame ▸ hw.timeout.now_le
  constructor
  · exact ⟨hw.submits, hw.controls, hw.writer, hw.finishing, ⟨hnow, by rintro _ _ _ ⟨⟩⟩⟩
  · have hstep : Window.Step config s.window _ := .scan
    right
    convert hstep using 1
    apply Window.ext
    case now => exact hsame.symm
    case expired =>
      change expiredSubmits s.pendingSubmits now _ _ =
        expiredSubmits s.pendingSubmits s.timeout.now _ _
      rw [hsame]
    all_goals rfl

section Expired

variable {now : ℕ} {key : SubmitAttemptKey} {keys : List SubmitAttemptKey}

theorem follows_submitSlot (hw : s.Wired config) (hstage : s.timeout = .expired now (key :: keys))
    (hattempt : key.attempt < config.retryCount) :
    Follows config s (s.setTimeout (.retrySlot now key keys)) := by
  have hnow := hw.timeout.now_le
  rw [hstage] at hnow
  refine follows_setTimeout hw ⟨hnow, fun now' key' keys' heq => ?_⟩ (Or.inr ?_)
  · cases heq
    exact hattempt
  · rw [hstage]
    exact ⟨rfl, List.Subset.refl _⟩

theorem follows_submitFull (hw : s.Wired config) (hstage : s.timeout = .expired now (key :: keys)) :
    Follows config s (s.setTimeout (.expired now keys)) := by
  have hnow := hw.timeout.now_le
  rw [hstage] at hnow
  refine follows_setTimeout hw ⟨hnow, by rintro _ _ _ ⟨⟩⟩ (Or.inr ?_)
  rw [hstage]
  exact ⟨rfl, List.subset_cons_self key keys⟩

end Expired

theorem follows_timeoutNext (hw : s.Wired config) (hledger : Ledger config s.holdings)
    {event : TimeoutEvent} (h : s.timeoutNext config event = some s') : Follows config s s' := by
  have hnow := hw.timeout.now_le
  cases event with
  | tick =>
    simp only [timeoutNext] at h
    split_ifs at h
    cases h
    exact follows_pass hw le_rfl rfl
  | scanHeartbeat =>
    simp only [timeoutNext] at h
    split at h
    · next now hstage =>
      rw [hstage] at hnow
      split at h
      · cases h
        exact follows_pass hw hnow rfl
      · cases h
        exact follows_pass hw hnow rfl
    · cases h
  | giveUpHeartbeat =>
    simp only [timeoutNext] at h
    split at h
    · next now key hstage =>
      rw [hstage] at hnow
      split_ifs at h
      split at h
      · cases h
        exact follows_pass hw hnow rfl
      · next entry _ =>
        cases h
        exact follows_giveUpHeartbeat hw key entry
    · cases h
  | heartbeatSlot =>
    simp only [timeoutNext] at h
    split at h
    · next now key hstage =>
      rw [hstage] at hnow
      split_ifs at h
      cases h
      exact follows_pass hw hnow rfl
    · cases h
  | heartbeatFull =>
    simp only [timeoutNext] at h
    split at h
    · next now key hstage =>
      rw [hstage] at hnow
      split_ifs at h
      cases h
      exact follows_pass hw hnow rfl
    · cases h
  | retryHeartbeat =>
    simp only [timeoutNext] at h
    split at h
    · next now key hstage =>
      rw [hstage] at hnow
      split at h
      · cases h
        exact follows_pass hw hnow rfl
      · next entry _ =>
        split_ifs at h
        · cases h
          exact follows_pass hw hnow rfl
        · cases h
          exact follows_retryHeartbeat hw hnow _ _ _
    · cases h
  | teardown =>
    simp only [timeoutNext] at h
    split at h
    · next hstage =>
      cases h
      exact follows_teardown hw (Or.inl hstage)
    · next hstage =>
      cases h
      exact follows_teardown hw (Or.inr hstage)
    · cases h
  | scanSubmits =>
    simp only [timeoutNext] at h
    split at h
    · next now hstage =>
      cases h
      exact follows_scanSubmits hw hstage
    · cases h
  | giveUpSubmit sent =>
    simp only [timeoutNext] at h
    split at h
    · next now key keys hstage =>
      split_ifs at h with hattempt
      cases h
      exact follows_giveUpSubmit hw hledger sent hstage hattempt
    · cases h
  | submitSlot =>
    simp only [timeoutNext] at h
    split at h
    · next now key keys hstage =>
      split_ifs at h with hattempt
      cases h
      exact follows_submitSlot hw hstage hattempt
    · cases h
  | submitFull =>
    simp only [timeoutNext] at h
    split at h
    · next now key keys hstage =>
      split_ifs at h
      cases h
      exact follows_submitFull hw hstage
    · cases h
  | retrySubmit =>
    simp only [timeoutNext] at h
    split at h
    · next now key keys hstage =>
      cases h
      exact follows_retrySubmit hw hstage
    · cases h
  | rest =>
    simp only [timeoutNext] at h
    split at h
    · cases h
      exact follows_pass hw (Nat.zero_le _) rfl
    · cases h
  | stop =>
    simp only [timeoutNext] at h
    split_ifs at h
    cases h
    exact follows_pass hw (Nat.zero_le _) rfl

/-! ## Closing -/

/-- The closer moves on after the drain. -/
theorem follows_setCloser (hw : s.Wired config) {closer : CloserStage} (hidle : closer ≠ .idle)
    (hmarking : closer ≠ .marking) (hawaiting : closer ≠ .awaitingMarker) :
    Follows config s (s.setCloser closer) :=
  ⟨⟨hw.submits, hw.controls, hw.writer, hw.finishing, hw.timeout⟩,
    Or.inr (.closer closer hidle hmarking hawaiting)⟩

theorem follows_setCloser_finish (hw : s.Wired config) {closer : CloserStage}
    (hidle : closer ≠ .idle) (hmarking : closer ≠ .marking) (hawaiting : closer ≠ .awaitingMarker) :
    Follows config s (s.finish.setCloser closer) := by
  have hw' := wired_finish hw
  refine ⟨⟨hw'.submits, hw'.controls, hw'.writer, hw'.finishing, hw'.timeout⟩, Or.inr ?_⟩
  have hstep : Window.Step config s.window _ := .closeLast closer hidle hmarking hawaiting
  convert hstep using 1
  rw [finish_eq]
  rfl

theorem follows_closerNext (hw : s.Wired config) {event : CloserEvent}
    (h : s.closerNext event = some s') : Follows config s s' := by
  cases event with
  | close =>
    simp only [closerNext] at h
    split_ifs at h with hidle
    by_cases hopen : s.phase = .opened
    · rw [beginClosing_opened hopen] at h
      cases h
      refine ⟨⟨hw.submits, hw.controls, hw.writer, fun hf => ?_, hw.timeout⟩,
        Or.inr (.beginClosing true .marking hopen (Or.inr ⟨hidle, rfl, rfl⟩))⟩
      have hclosed := hw.finishing hf
      rw [hopen] at hclosed
      cases hclosed
    · rw [beginClosing_unopened hopen (Or.inl rfl)] at h
      cases h
      exact follows_setCloser hw (by rintro ⟨⟩) (by rintro ⟨⟩) (by rintro ⟨⟩)
  | sendMarker =>
    simp only [closerNext] at h
    split_ifs at h with hmarking
    cases h
    refine ⟨⟨?_, hw.controls, hw.writer, hw.finishing, hw.timeout⟩, Or.inr ?_⟩
    · exact List.forall_mem_append.mpr ⟨hw.submits, List.forall_mem_singleton.mpr (Or.inr rfl)⟩
    · have hstep : Window.Step config s.window _ := .marker hmarking.1
      convert hstep using 1
      apply Window.ext
      case line =>
        simp only [window, setCloser, List.filter_append, ← List.append_assoc]
        rfl
      all_goals rfl
  | markerAnswered =>
    simp only [closerNext] at h
    split_ifs at h
    cases h
    exact follows_setCloser hw (by rintro ⟨⟩) (by rintro ⟨⟩) (by rintro ⟨⟩)
  | markerGivenUp =>
    simp only [closerNext] at h
    split_ifs at h
    cases h
    exact follows_setCloser hw (by rintro ⟨⟩) (by rintro ⟨⟩) (by rintro ⟨⟩)
  | clearDrain =>
    simp only [closerNext] at h
    split_ifs at h
    cases h
    exact ⟨⟨hw.submits, hw.controls, hw.writer, hw.finishing, hw.timeout⟩,
      Or.inr (.cutDrain .cleared (Or.inr rfl))⟩
  | leaseTerminate =>
    simp only [closerNext] at h
    split_ifs at h
    split at h
    · cases h
      have hclose : Follows config s (s.finish.setCloser .ended) :=
        follows_setCloser_finish hw (by rintro ⟨⟩) (by rintro ⟨⟩) (by rintro ⟨⟩)
      have hwired := hclose.wired
      exact ⟨⟨hwired.submits, hwired.controls, hwired.writer, hwired.finishing, hwired.timeout⟩,
        hclose.window⟩
    · next id _ _ =>
      cases h
      have hclose : Follows config s (s.setCloser (.leased id)) :=
        follows_setCloser hw (by rintro ⟨⟩) (by rintro ⟨⟩) (by rintro ⟨⟩)
      exact ⟨⟨hw.submits, hw.controls, hw.writer, hw.finishing, hw.timeout⟩, hclose.window⟩
  | sendTerminate =>
    simp only [closerNext] at h
    split at h
    · next id _ =>
      split_ifs at h
      cases h
      have hclose : Follows config s (s.setCloser (.awaitingTerminate id)) :=
        follows_setCloser hw (by rintro ⟨⟩) (by rintro ⟨⟩) (by rintro ⟨⟩)
      refine ⟨⟨hw.submits, ?_, hw.writer, hw.finishing, hw.timeout⟩, hclose.window⟩
      exact List.forall_mem_append.mpr
        ⟨hw.controls, List.forall_mem_singleton.mpr (Outbound.isControl_localTerminate _)⟩
    · cases h
  | handshakeOver =>
    simp only [closerNext] at h
    split at h
    · cases h
      exact follows_setCloser hw (by rintro ⟨⟩) (by rintro ⟨⟩) (by rintro ⟨⟩)
    · cases h
      exact follows_setCloser hw (by rintro ⟨⟩) (by rintro ⟨⟩) (by rintro ⟨⟩)
    · cases h
  | finish =>
    simp only [closerNext] at h
    split at h
    · cases h
      exact follows_setCloser_finish hw (by rintro ⟨⟩) (by rintro ⟨⟩) (by rintro ⟨⟩)
    · cases h
  | forget =>
    simp only [closerNext] at h
    split at h
    · split_ifs at h
      · cases h
        have hclose : Follows config s (s.setCloser .ended) :=
          follows_setCloser hw (by rintro ⟨⟩) (by rintro ⟨⟩) (by rintro ⟨⟩)
        exact ⟨⟨hw.submits, hw.controls, hw.writer, hw.finishing, hw.timeout⟩, hclose.window⟩
      · cases h
        exact follows_setCloser hw (by rintro ⟨⟩) (by rintro ⟨⟩) (by rintro ⟨⟩)
    · cases h

/-! ## Cleanup -/

theorem follows_cleanupNext (hw : s.Wired config) {event : CleanupEvent}
    (h : s.cleanupNext index event = some s') : Follows config s s' := by
  cases event with
  | start =>
    simp only [cleanupNext] at h
    split_ifs at h with hclosed
    cases h
    exact ⟨⟨hw.submits, hw.controls, hw.writer, hw.finishing, hw.timeout⟩,
      Or.inr (.startCleanup hclosed.2)⟩
  | drain order =>
    simp only [cleanupNext] at h
    split at h
    · next hindex =>
      split_ifs at h with horder
      cases h
      exact ⟨⟨hw.submits, hw.controls, hw.writer, hw.finishing, hw.timeout⟩,
        Or.inr (.drain index order hindex horder)⟩
    · cases h
  | sendDropped sent =>
    simp only [cleanupNext] at h
    split at h
    · next batch batches hindex =>
      cases h
      exact ⟨⟨hw.submits, hw.controls, hw.writer, hw.finishing, hw.timeout⟩,
        Or.inr (.sendDropped index batch batches sent hindex)⟩
    · cases h
  | sweep =>
    simp only [cleanupNext] at h
    split at h
    · next hindex =>
      cases h
      exact ⟨⟨hw.submits, hw.controls, hw.writer, hw.finishing, hw.timeout⟩,
        Or.inr (.endCleanup index _ .swept hindex (by rintro ⟨⟩) (by rintro ⟨⟩) rfl)⟩
    · cases h
  | abort =>
    simp only [cleanupNext] at h
    split at h
    · next batches hindex =>
      cases h
      exact ⟨⟨hw.submits, hw.controls, hw.writer, hw.finishing, hw.timeout⟩,
        Or.inr (.endCleanup index _ (.aborted batches) hindex (by rintro ⟨⟩) (by rintro ⟨⟩) rfl)⟩
    · cases h

/-! ## Runs -/

theorem follows_next (hw : s.Wired config) (hledger : Ledger config s.holdings)
    {event : ConnectionEvent} (h : next gbk config s event = some s') : Follows config s s' := by
  cases event with
  | clock duration =>
    cases h
    have hnow := hw.timeout
    exact ⟨⟨hw.submits, hw.controls, hw.writer, hw.finishing,
      ⟨hnow.now_le.trans (Nat.le_add_right _ _), hnow.slot⟩⟩, Or.inr (.clock duration)⟩
  | udhCounter counter =>
    cases h
    exact follows_silent hw rfl rfl rfl rfl rfl rfl
  | submit options content base => exact follows_submit hw h
  | call index event =>
    simp only [next] at h
    split at h
    · next call hcall => exact follows_callNext hw hledger hcall h
    · cases h
  | writer event => exact follows_writerNext hw h
  | reader event => exact follows_readerNext hw h
  | heartbeat event => exact follows_heartbeatNext hw h
  | timeout event => exact follows_timeoutNext hw hledger h
  | closer event => exact follows_closerNext hw h
  | overloadClose =>
    cases h
    exact follows_beginClosing hw
  | finish =>
    cases h
    exact follows_finish hw
  | finishStores =>
    simp only [next] at h
    split_ifs at h with hfinishing
    cases h
    exact ⟨⟨hw.submits, hw.controls, hw.writer, by rintro ⟨⟩, hw.timeout⟩,
      Or.inr (.finishStores (hw.finishing hfinishing))⟩
  | cleanup index event => exact follows_cleanupNext hw h

end Connection

end CmppProtocol
