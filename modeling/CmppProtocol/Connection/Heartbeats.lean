import CmppProtocol.Connection.Pulse
import CmppProtocol.Connection.Reached

/-! # Heartbeats on a connection

In every run at most one heartbeat is pending, its frames go out as attempts
1, 2, … of one ACTIVE_TEST, and the notes about it keep to their order.
-/

namespace CmppProtocol

open History SequenceState

/-- A heartbeat frame is the ACTIVE_TEST with its sequence id. -/
def Outbound.IsActiveTest (outbound : Outbound) : Prop :=
  ∀ key, outbound.heartbeatAttempt = some key →
    outbound.packet = encodePdu .activeTest (.ofNat key.sequenceId)

namespace Connection

variable {gbk : Gbk} {config : ConnectionConfig} {s s' : Connection}
  {notes : List HeartbeatNote}

/-! ## The frames -/

theorem isActiveTest_of_none {o : Outbound} (h : o.heartbeatAttempt = none) : o.IsActiveTest := by
  intro key hkey
  rw [h] at hkey
  cases hkey

theorem isActiveTest_heartbeat (key : HeartbeatAttemptKey) (attempt : ℕ) :
    (Outbound.heartbeat (encodePdu .activeTest (.ofNat key.sequenceId))
      { key with attempt }).IsActiveTest := by
  intro key' hkey
  cases hkey
  rfl

theorem isActiveTest_of_isQueued {o : Outbound} (h : o.IsQueued) : o.IsActiveTest := by
  rcases h with ⟨packet, key, rfl⟩ | rfl
  · exact isActiveTest_of_none rfl
  · exact isActiveTest_of_none rfl

theorem bears_quiet (h : s.Bears Outbound.IsActiveTest) (hquiet : s.Quiet s')
    (hwriter : s'.writer = s.writer) (hhanded : s'.log.handed = s.log.handed) :
    s'.Bears Outbound.IsActiveTest := by
  rcases hquiet.2 with hcontrol | ⟨o, hcontrol, hnone⟩
  · exact h.same hwriter hhanded hcontrol
  · exact h.queue (isActiveTest_of_none hnone) hwriter hhanded hcontrol

theorem bears_heartbeatNext (h : s.Bears Outbound.IsActiveTest) {event : HeartbeatEvent}
    (hnext : s.heartbeatNext event = some s') : s'.Bears Outbound.IsActiveTest := by
  cases event with
  | tick =>
    simp only [heartbeatNext] at hnext
    repeat' split at hnext
    all_goals cases hnext
    · rw [finish_eq]
      exact h
    · exact h
    · exact h
  | enqueue =>
    simp only [heartbeatNext] at hnext
    split at hnext
    · next lease key _ =>
      split_ifs at hnext
      · cases hnext
        exact h
      · cases hnext
        exact h
      · cases hnext
        exact h.queue (isActiveTest_heartbeat key key.attempt) rfl rfl rfl
    · cases hnext
  | notOpen =>
    simp only [heartbeatNext] at hnext
    repeat' split at hnext
    all_goals cases hnext
    all_goals exact h

theorem bears_timeoutNext (h : s.Bears Outbound.IsActiveTest) {event : TimeoutEvent}
    (hnext : s.timeoutNext config event = some s') : s'.Bears Outbound.IsActiveTest := by
  have howned := timeoutNext_owned hnext
  have hwriter : s'.writer = s.writer := congrArg Owned.writer howned
  have hhanded : s'.log.handed = s.log.handed := congrArg Owned.handed howned
  cases event with
  | giveUpHeartbeat =>
    simp only [timeoutNext] at hnext
    repeat' split at hnext
    all_goals cases hnext
    all_goals exact h
  | retryHeartbeat =>
    simp only [timeoutNext] at hnext
    split at hnext
    · next now key _ =>
      split at hnext
      · cases hnext
        exact h
      · split_ifs at hnext
        · cases hnext
          exact h
        · cases hnext
          exact h.queue (isActiveTest_heartbeat key (key.attempt + 1)) rfl rfl rfl
    · cases hnext
  | _ => exact bears_quiet h (quiet_timeoutNext hnext (by rintro ⟨⟩) (by rintro ⟨⟩)) hwriter hhanded

theorem bears_next (h : s.Bears Outbound.IsActiveTest) (hw : s.Wired config)
    {event : ConnectionEvent} (hnext : next gbk config s event = some s') :
    s'.Bears Outbound.IsActiveTest := by
  have howned := next_owned hnext
  cases event with
  | writer event =>
    exact h.writerMove hw (fun _ => isActiveTest_of_isQueued) (writerNext_move hnext)
  | heartbeat event => exact bears_heartbeatNext h hnext
  | timeout event => exact bears_timeoutNext h hnext
  | reader event =>
    have hwriter : s'.writer = s.writer := congrArg Owned.writer howned
    have hhanded : s'.log.handed = s.log.handed := congrArg Owned.handed howned
    have hnext : s.readerNext event = some s' := hnext
    cases event with
    | activeTestResp sequenceId =>
      simp only [readerNext] at hnext
      split_ifs at hnext
      cases hnext
      exact h
    | _ => exact bears_quiet h (quiet_readerNext hnext (by rintro _ ⟨⟩)) hwriter hhanded
  | cleanup index event =>
    exact h.same (congrArg Owned.writer howned) (congrArg Owned.handed howned)
      (quiet_cleanupNext hnext).2
  | submit options content base =>
    exact bears_quiet h (quiet_submit hnext) (congrArg Owned.writer howned)
      (congrArg Owned.handed howned)
  | call index event =>
    have hwriter : s'.writer = s.writer := congrArg Owned.writer howned
    have hhanded : s'.log.handed = s.log.handed := congrArg Owned.handed howned
    simp only [next] at hnext
    split at hnext
    · exact bears_quiet h (quiet_callNext hnext) hwriter hhanded
    · cases hnext
  | closer event =>
    exact bears_quiet h (quiet_closerNext hnext) (congrArg Owned.writer howned)
      (congrArg Owned.handed howned)
  | overloadClose =>
    cases hnext
    exact bears_quiet h (quiet_beginClosing _ _) (congrArg Owned.writer howned)
      (congrArg Owned.handed howned)
  | finish =>
    cases hnext
    exact bears_quiet h (quiet_finish _) (congrArg Owned.writer howned)
      (congrArg Owned.handed howned)
  | finishStores =>
    simp only [next] at hnext
    split_ifs at hnext
    cases hnext
    exact h
  | clock duration =>
    cases hnext
    exact h
  | udhCounter counter =>
    cases hnext
    exact h

/-! ## Runs -/

/-- The frames of one heartbeat that were handed to the socket. -/
def beatsHanded (s : Connection) (x : ℕ) : List HeartbeatAttemptKey :=
  keysOf x (s.log.handed.filterMap Outbound.heartbeatAttempt)

theorem beats_of_notes (hpulse : Pulse config notes s) (hcarried : Carried notes s) (x : ℕ) :
    ∃ heartbeatId handed claimed, handed ≤ claimed ∧ claimed ≤ config.retryCount ∧
      s.beatsHanded x = attemptKeys x heartbeatId handed ∧
      claimedFor notes x = attemptKeys x heartbeatId claimed := by
  obtain ⟨heartbeatId, queued, claimed, hbeat, _⟩ := hpulse.beat x
  have hsub : (s.beatsHanded x).Sublist (claimedFor notes x) := by
    refine List.Sublist.filter _ (List.Sublist.trans ?_ hcarried.claimed)
    exact (List.sublist_append_left _ _).filterMap _
  rw [hbeat.claimed_eq] at hsub
  obtain ⟨handed, hle, heq⟩ := attemptKeys_of_sublist hsub fun attempt hpos hlt => by
    obtain ⟨writtenAt, hmem⟩ := hbeat.written attempt hpos (hlt.trans_le hbeat.claimed_le)
    obtain ⟨o, ho, hkey⟩ := hcarried.written _ _ hmem
    exact List.mem_filter.mpr ⟨List.mem_filterMap.mpr ⟨o, ho, hkey⟩, decide_eq_true rfl⟩
  exact ⟨heartbeatId, handed, claimed, hle, hbeat.claimed_le.trans hbeat.queued_max, heq,
    hbeat.claimed_eq⟩

/-- At most one heartbeat is pending. Its frames are claimed and written as attempts 1, 2, … with
one sequence id; and every note is allowed by the notes before it: an attempt is queued a response
timeout after the one before it was written, a frame is claimed only on an open connection and
while the heartbeat is unanswered, and one is given up only when all of its attempts were written
and none was answered. -/
theorem heartbeats_lawful {clock : ℕ} {udhCounter : UInt32} {events : List ConnectionEvent}
    (hrun : (recordedMachine gbk config clock udhCounter).Run events (s, notes)) :
    s.heartbeatPending.size ≤ 1 ∧ Lawful (Allowed config) notes ∧
      (∀ o ∈ s.log.handed, o.IsActiveTest) ∧
      ∀ x, ∃ heartbeatId handed claimed, handed ≤ claimed ∧ claimed ≤ config.retryCount ∧
        s.beatsHanded x = attemptKeys x heartbeatId handed ∧
        claimedFor notes x = attemptKeys x heartbeatId claimed := by
  have hinv := hrun.invariant (I := fun _ p => p.1.Sound config ∧ Pulse config p.2 p.1 ∧
    Carried p.2 p.1 ∧ p.1.Bears Outbound.IsActiveTest) ?_ ?_
  · obtain ⟨_, hpulse, hcarried, hbears⟩ := hinv
    refine ⟨hpulse.size, hpulse.lawful, ?_, beats_of_notes hpulse hcarried⟩
    exact fun o ho => hbears o (List.mem_append_left _ ho)
  · rintro ⟨s, notes⟩ ⟨rfl, rfl⟩
    refine ⟨sound_initial config clock udhCounter, pulse_initial config clock udhCounter,
      carried_initial config clock udhCounter, ?_⟩
    exact fun o ho => absurd ho List.not_mem_nil
  · rintro events ⟨s, notes⟩ event ⟨s', notes'⟩ ⟨hsound, hpulse, hcarried, hbears⟩ ⟨hnext, heq⟩
    change notes' = notes ++ s.heartbeatNotes event s' at heq
    subst heq
    exact ⟨hsound.next hnext, hpulse.next hsound hcarried hnext, hcarried.next hsound hnext,
      bears_next hbears hsound.wired hnext⟩

/-! ## A link that answers too late -/

def writeBeat : List ConnectionEvent :=
  List.replicate 10 (.writer .advance) ++ .writer .written :: List.replicate 4 (.writer .advance)

/-- A heartbeat is sent twice and given up. -/
def exhaustBeat : List ConnectionEvent :=
  [.heartbeat .tick, .heartbeat .enqueue] ++ writeBeat ++ [.clock 60, .timeout .tick,
    .timeout .scanHeartbeat, .timeout .heartbeatSlot, .timeout .retryHeartbeat,
    .timeout .scanSubmits, .timeout .rest] ++ writeBeat ++ [.clock 60, .timeout .tick,
    .timeout .scanHeartbeat, .timeout .giveUpHeartbeat]

theorem heartbeats_lawful_exhausted : ∃ events s notes,
    (recordedMachine asciiGbk smallConfig 0 0).Run events (s, notes) ∧
      (s.beatsHanded 2 = attemptKeys 2 1 2 ∧ .exhausted 2 ∈ notes) ∧
      s.heartbeatPending.size ≤ 1 ∧ Lawful (Allowed smallConfig) notes ∧
      (∀ o ∈ s.log.handed, o.IsActiveTest) ∧
      ∀ x, ∃ heartbeatId handed claimed, handed ≤ claimed ∧ claimed ≤ smallConfig.retryCount ∧
        s.beatsHanded x = attemptKeys x heartbeatId handed ∧
        claimedFor notes x = attemptKeys x heartbeatId claimed := by
  have hexec : (Machine.execRecorded (next asciiGbk smallConfig)
      (fun notes s event s' => notes ++ s.heartbeatNotes event s') (initial smallConfig 0 0) []
      exhaustBeat).map (fun p => (p.1.beatsHanded 2, decide (.exhausted 2 ∈ p.2))) =
        some (attemptKeys 2 1 2, true) := by decide +kernel
  obtain ⟨⟨s, notes⟩, hrun, hview⟩ := Machine.exists_run_recorded_of_exec _ hexec
  have hhanded := congrArg Prod.fst hview
  have hexhausted := of_decide_eq_true (congrArg Prod.snd hview)
  exact ⟨_, s, notes, hrun, ⟨hhanded, hexhausted⟩, heartbeats_lawful hrun⟩

/-- A response may carry the id of a heartbeat that is sent later; and one that comes when the
heartbeat was given up does not stop the end of the connection. -/
theorem heartbeat_answered_unheeded :
    (∃ events s notes, (recordedMachine asciiGbk smallConfig 0 0).Run events (s, notes) ∧
      notes = [.responded 2, .queued ⟨2, 1, 1⟩ 0, .claimed ⟨2, 1, 1⟩ .opened]) ∧
    ∃ events s notes, (recordedMachine asciiGbk smallConfig 0 0).Run events (s, notes) ∧
      s.phase = .closed ∧ notes.drop 6 = [.exhausted 2, .responded 2, .tornDown] := by
  have hearly : (Machine.execRecorded (next asciiGbk smallConfig)
      (fun notes s event s' => notes ++ s.heartbeatNotes event s') (initial smallConfig 0 0) []
      ([.reader (.activeTestResp 2), .heartbeat .tick, .heartbeat .enqueue] ++
        List.replicate 3 (.writer .advance))).map (fun p => p.2) =
      some [.responded 2, .queued ⟨2, 1, 1⟩ 0, .claimed ⟨2, 1, 1⟩ .opened] := by decide +kernel
  have hlate : (Machine.execRecorded (next asciiGbk smallConfig)
      (fun notes s event s' => notes ++ s.heartbeatNotes event s') (initial smallConfig 0 0) []
      (exhaustBeat ++ [.reader (.activeTestResp 2), .timeout .teardown])).map
        (fun p => (p.1.phase, p.2.drop 6)) =
      some (.closed, [.exhausted 2, .responded 2, .tornDown]) := by decide +kernel
  constructor
  · obtain ⟨⟨s, notes⟩, hrun, hnotes⟩ := Machine.exists_run_recorded_of_exec _ hearly
    exact ⟨_, s, notes, hrun, hnotes⟩
  · obtain ⟨⟨s, notes⟩, hrun, hview⟩ := Machine.exists_run_recorded_of_exec _ hlate
    exact ⟨_, s, notes, hrun, congrArg Prod.fst hview, congrArg Prod.snd hview⟩

end Connection

end CmppProtocol
