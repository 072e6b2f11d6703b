import CmppProtocol.Connection.Schedule

/-! # Control frames before a waiting SUBMIT

The writer asks the control queue first until it has taken as many control
frames in a row as the limit allows, and then the submit queue. The count runs
on from batch to batch and while the writer waits.
-/

namespace CmppProtocol

namespace Connection

variable {gbk : Gbk} {config : ConnectionConfig} {s s' : Connection} {event : ConnectionEvent}

/-- The control frames since the last frame of the submit queue; one in the hand counts. -/
def burst (writer : Writer) : ℕ :=
  match writer.stage with
  | .received _ true => 0
  | .received _ false => writer.controlBurst + 1
  | _ => writer.controlBurst

/-- The queue that was asked first had nothing. -/
def looksAgain : WriterStage → Bool
  | .selectingSecond _ | .pickingSecond _ => true
  | _ => false

def isReceived : WriterStage → Bool
  | .received _ _ => true
  | _ => false

theorem burst_of_not_received {writer : Writer} (h : isReceived writer.stage = false) :
    burst writer = writer.controlBurst := by
  rw [burst]
  cases hstage : writer.stage with
  | received outbound isSubmit =>
    rw [hstage] at h
    cases h
  | _ => rfl

theorem not_received_of_asks {stage : WriterStage} {allowed : Bool}
    (hasks : stage.asks = some allowed) : isReceived stage = false := by
  cases stage with
  | received outbound isSubmit => cases hasks
  | _ => rfl

theorem burst_received {writer : Writer} {outbound : Outbound} {isSubmit : Bool}
    (hstage : writer.stage = .received outbound isSubmit) :
    burst writer = if isSubmit then 0 else writer.controlBurst + 1 := by
  rw [burst, hstage]
  cases isSubmit with
  | true => rfl
  | false => rfl

/-- What a step does to the burst. -/
def burstAfter (s s' : Connection) : ℕ :=
  match s.takes s' with
  | some (_, true) => 0
  | some (_, false) => burst s.writer + 1
  | none => burst s.writer

theorem burst_take {allowed isSubmit : Bool} {outbound : Outbound}
    (hasks : s.writer.stage.asks = some allowed)
    (hcount : s'.writer.controlBurst = s.writer.controlBurst)
    (hstage : s'.writer.stage = .received outbound isSubmit) :
    burst s'.writer = s.burstAfter s' := by
  rw [burstAfter, takes_of_asks hasks hstage, burst_received hstage, hcount,
    burst_of_not_received (not_received_of_asks hasks)]
  cases isSubmit with
  | true => rfl
  | false => rfl

theorem burst_count {outbound : Outbound} {isSubmit : Bool}
    (hstage : s.writer.stage = .received outbound isSubmit)
    (hcount : s'.writer.controlBurst = (s.countBurst isSubmit).writer.controlBurst)
    (hnew : isReceived s'.writer.stage = false) (htakes : s.takes s' = none) :
    burst s'.writer = s.burstAfter s' := by
  rw [burstAfter, htakes, burst_of_not_received hnew, hcount]
  exact (burst_received hstage).symm

theorem burst_keep (hcount : s'.writer.controlBurst = s.writer.controlBurst)
    (hold : isReceived s.writer.stage = false) (hnew : isReceived s'.writer.stage = false)
    (htakes : s.takes s' = none) : burst s'.writer = s.burstAfter s' := by
  rw [burstAfter, htakes]
  exact (burst_of_not_received hnew).trans (hcount.trans (burst_of_not_received hold).symm)

theorem burst_afterBatch (hold : isReceived s.writer.stage = false) :
    burst s.afterBatch.writer = s.burstAfter s.afterBatch := by
  refine burst_keep rfl hold ?_ s.takes_afterBatch
  simp only [afterBatch]
  split_ifs <;> rfl

theorem burst_move {event : WriterEvent} (hmove : WriterMove s event s')
    (hfailing : s'.writer.stage ≠ .failing) (hstopped : s'.writer.stage ≠ .stopped) :
    burst s'.writer = s.burstAfter s' := by
  cases hmove with
  | stop _ hphase => exact absurd rfl hstopped
  | fail writer outbound hhand hstatus hbatch hfails => exact absurd hfails hfailing
  | failWrite hstage => exact absurd rfl hfailing
  | giveUp hstage => exact absurd rfl hstopped
  | takeSubmit allowed outbound submitQueue hasks hqueue => exact burst_take hasks rfl rfl
  | takeControl allowed outbound controlQueue hasks hqueue => exact burst_take hasks rfl rfl
  | marker outbound isSubmit hstage hmarker => exact burst_count hstage rfl rfl rfl
  | screened outbound isSubmit heartbeatPending hstage hmarker hsize =>
    exact burst_count hstage rfl rfl rfl
  | stale outbound isSubmit heartbeatPending hstage hattempt hsize =>
    exact burst_count hstage rfl rfl rfl
  | top canSendSubmit hstage =>
    refine burst_keep rfl ?_ rfl rfl
    rcases hstage with hstage | hstage
    · rw [hstage]
      rfl
    · rw [hstage]
      rfl
  | assemble hstage =>
    refine burst_keep rfl ?_ rfl rfl
    rcases hstage with hstage | ⟨allowed, hstage⟩
    · rw [hstage]
      rfl
    · rw [hstage]
      rfl
  | dropBatch hstage hbatch => exact burst_afterBatch (by rw [hstage]; rfl)
  | endBatch hstage => exact burst_afterBatch (by rw [hstage]; rfl)
  | select hstage | second _ hstage _ | again _ hstage _ | pickSecond _ hstage
  | skip _ hstage _ _ | admitOutbound _ hstage | cancel _ hstage _ | push _ hstage | pick hstage
  | claim hstage | hand hstage | written hstage | complete _ hstage _
  | publish _ _ _ _ _ hstage _ | signal _ _ hstage | answer hstage | signalMarker hstage =>
    exact burst_keep rfl (by rw [hstage]; rfl) rfl rfl

theorem receive_stage {fromSubmit : Bool} (h : s.receive fromSubmit = some s') :
    ∃ outbound, s'.writer.stage = .received outbound fromSubmit := by
  rw [receive] at h
  split at h
  · next hsubmit =>
    split at h
    · cases h
    · next outbound _ _ =>
      cases h
      exact ⟨outbound, by rw [hsubmit]; rfl⟩
  · next hcontrol =>
    split at h
    · cases h
    · next outbound _ _ =>
      cases h
      exact ⟨outbound, by rw [Bool.eq_false_of_not_eq_true hcontrol]; rfl⟩

/-- A queue that has nothing. -/
theorem receive_none (h : s.receive true = none) : s.submitQueue = [] := by
  rw [receive, if_pos rfl] at h
  split at h
  · next hqueue => exact hqueue
  · cases h

/-- What a first look at the queues leads to. -/
theorem look_cases (s : Connection) (fromSubmit : Bool) (stage : WriterStage) :
    (∃ outbound, ((s.receive fromSubmit).getD (s.setStage stage)).writer.stage =
      .received outbound fromSubmit) ∨
    s.receive fromSubmit = none ∧ (s.receive fromSubmit).getD (s.setStage stage) =
      s.setStage stage := by
  cases hreceive : s.receive fromSubmit with
  | none => exact Or.inr ⟨rfl, rfl⟩
  | some t => exact Or.inl (receive_stage hreceive)

/-- What the writer does when it has asked for the permission: a first look. -/
theorem first_look {event : WriterEvent} (hnext : s.writerNext config event = some s')
    {allowed : Bool} (hasks : s.writer.stage.asks = some allowed)
    (hfirst : looksAgain s.writer.stage = false) :
    (∃ outbound, s'.writer.stage = .received outbound (s.submitFirst allowed)) ∨
      (s.receive (s.submitFirst allowed) = none ∧
        ∃ stage, isReceived stage = false ∧ s' = s.setStage stage) ∨
      isReceived s'.writer.stage = false ∧ looksAgain s'.writer.stage = false := by
  cases event with
  | advance =>
    rw [writerNext, writerAdvance] at hnext
    cases hstage : s.writer.stage with
    | selecting canSendSubmit =>
      rw [hstage] at hnext hasks
      cases hnext
      cases hasks
      rcases s.look_cases (s.submitFirst allowed) (.selectingSecond allowed) with ho | ⟨hnone, heq⟩
      · exact Or.inl ho
      · exact Or.inr (Or.inl ⟨hnone, _, rfl, heq⟩)
    | picking canSubmitNow =>
      rw [hstage] at hnext hasks
      cases hnext
      cases hasks
      rcases s.look_cases (s.submitFirst allowed) (.pickingSecond allowed) with ho | ⟨hnone, heq⟩
      · exact Or.inl ho
      · exact Or.inr (Or.inl ⟨hnone, _, rfl, heq⟩)
    | selectingSecond canSendSubmit =>
      rw [hstage] at hfirst
      cases hfirst
    | pickingSecond canSubmitNow =>
      rw [hstage] at hfirst
      cases hfirst
    | _ =>
      rw [hstage] at hasks
      cases hasks
  | _ =>
    rw [writerNext] at hnext
    repeat' split at hnext
    all_goals cases hnext
    all_goals exact Or.inr (Or.inr ⟨rfl, rfl⟩)

/-- A control frame is taken when the control queue is asked first, or at the second look. -/
theorem control_taken {event : WriterEvent} (hnext : s.writerNext config event = some s')
    {outbound : Outbound} (htakes : s.takes s' = some (outbound, false)) :
    ∃ allowed, s.writer.stage.asks = some allowed ∧
      (s.submitFirst allowed = false ∨ looksAgain s.writer.stage = true) := by
  rw [takes] at htakes
  split at htakes
  · next hstage' =>
    split_ifs at htakes with hasks
    · cases htakes
      obtain ⟨allowed, hasks⟩ := Option.isSome_iff_exists.mp hasks
      refine ⟨allowed, hasks, ?_⟩
      cases hagain : looksAgain s.writer.stage with
      | true => exact Or.inr rfl
      | false =>
        left
        rcases first_look hnext hasks hagain with ⟨o, ho⟩ | ⟨-, stage, hnot, rfl⟩ | ⟨hnot, -⟩
        · exact (WriterStage.received.inj (ho.symm.trans hstage')).2
        · change stage = _ at hstage'
          rw [hstage'] at hnot
          cases hnot
        · rw [hstage'] at hnot
          cases hnot
  · cases htakes

/-- A second look comes after a first one that found nothing. -/
theorem second_look {event : WriterEvent} (hnext : s.writerNext config event = some s')
    (hagain : looksAgain s'.writer.stage = true) :
    ∃ allowed, s.writer.stage.asks = some allowed ∧ looksAgain s.writer.stage = false ∧
      s.receive (s.submitFirst allowed) = none ∧ ∃ stage, s' = s.setStage stage := by
  have hasks : ∃ allowed, s.writer.stage.asks = some allowed ∧
      looksAgain s.writer.stage = false := by
    cases writerNext_move hnext with
    | second canSendSubmit hstage hreceive =>
      exact ⟨canSendSubmit, by rw [hstage]; exact ⟨rfl, rfl⟩⟩
    | pickSecond canSubmitNow hstage => exact ⟨canSubmitNow, by rw [hstage]; exact ⟨rfl, rfl⟩⟩
    | fail writer outbound hhand hstatus hbatch hfails =>
      change looksAgain writer.stage = true at hagain
      rw [hfails] at hagain
      cases hagain
    | dropBatch hstage hbatch =>
      simp only [afterBatch] at hagain
      split_ifs at hagain
      all_goals cases hagain
    | endBatch hstage =>
      simp only [afterBatch] at hagain
      split_ifs at hagain
      all_goals cases hagain
    | _ => cases hagain
  obtain ⟨allowed, hasks, hfirst⟩ := hasks
  refine ⟨allowed, hasks, hfirst, ?_⟩
  rcases first_look hnext hasks hfirst with ⟨o, ho⟩ | ⟨hnone, stage, -, heq⟩ | ⟨-, hnot⟩
  · rw [ho] at hagain
    cases hagain
  · exact ⟨hnone, stage, heq⟩
  · rw [hnot] at hagain
    cases hagain

/-- Control frames are held back from a waiting SUBMIT when there were enough of them. -/
structure Fair (streak : ℕ) (s : Connection) : Prop where
  limit : streak ≤ CONTROL_BURST_LIMIT
  burst : s.writer.stage ≠ .failing → s.writer.stage ≠ .stopped → streak ≤ burst s.writer
  waits : s.submitWaits = false → streak = 0
  again : looksAgain s.writer.stage = true → CONTROL_BURST_LIMIT ≤ s.writer.controlBurst →
    streak = 0
  allowed : s.writer.stage.asks = some false → s.canSendSubmit = false

theorem fair_initial (config : ConnectionConfig) (clock : ℕ) (udhCounter : UInt32) :
    Fair 0 (initial config clock udhCounter) :=
  ⟨Nat.zero_le _, fun _ _ => Nat.zero_le _, fun _ => rfl, fun _ _ => rfl, nofun⟩

theorem streakAfter_waits (h : s'.submitWaits = false) (streak : ℕ) :
    s.streakAfter s' streak = 0 := by
  rw [streakAfter, h]
  rfl

theorem streakAfter_none (htakes : s.takes s' = none) (streak : ℕ) :
    s.streakAfter s' streak ≤ streak := by
  simp only [streakAfter, htakes]
  split_ifs
  · exact Nat.le_refl _
  · exact Nat.zero_le _

theorem canSendSubmit_of_waits (h : s.submitWaits = true) : s.canSendSubmit = true :=
  (Bool.and_eq_true_iff.mp h).1

theorem submitQueue_of_waits (h : s.submitWaits = true) : s.submitQueue ≠ [] := by
  have hqueue := (Bool.and_eq_true_iff.mp h).2
  rintro hnil
  rw [hnil] at hqueue
  cases hqueue

/-- At the second look a SUBMIT that waits has had its turn. -/
theorem Fair.second_look {streak : ℕ} (h : Fair streak s) {event : WriterEvent}
    (hnext : s.writerNext config event = some s') (hagain : looksAgain s'.writer.stage = true)
    (hlimit : CONTROL_BURST_LIMIT ≤ s'.writer.controlBurst) : s'.submitWaits = false := by
  obtain ⟨allowed, hasks, -, hnone, stage, rfl⟩ := Connection.second_look hnext hagain
  by_contra hwaits
  rw [Bool.not_eq_false] at hwaits
  cases allowed with
  | false =>
    have hsend := canSendSubmit_of_waits hwaits
    change s.canSendSubmit = true at hsend
    rw [h.allowed hasks] at hsend
    cases hsend
  | true =>
    have hfirst : s.submitFirst true = true := decide_eq_true hlimit
    rw [hfirst] at hnone
    exact submitQueue_of_waits hwaits (receive_none hnone)

/-- A control frame is taken ahead of a waiting SUBMIT only below the limit. -/
theorem Fair.control_taken {streak : ℕ} (h : Fair streak s) {event : WriterEvent}
    (hnext : s.writerNext config event = some s') {outbound : Outbound}
    (htakes : s.takes s' = some (outbound, false)) (hsend : s.canSendSubmit = true) :
    streak < CONTROL_BURST_LIMIT := by
  obtain ⟨allowed, hasks, hlook⟩ := Connection.control_taken hnext htakes
  have hstreak : streak ≤ s.writer.controlBurst := by
    rw [← burst_of_not_received (not_received_of_asks hasks)]
    apply h.burst
    · intro hstage
      rw [hstage] at hasks
      cases hasks
    · intro hstage
      rw [hstage] at hasks
      cases hasks
  by_cases hlimit : CONTROL_BURST_LIMIT ≤ s.writer.controlBurst
  · rcases hlook with hfirst | hagain
    · cases allowed with
      | false =>
        rw [h.allowed hasks] at hsend
        cases hsend
      | true => cases hfirst.symm.trans (decide_eq_true hlimit)
    · rw [h.again hagain hlimit]
      exact Nat.succ_pos _
  · exact Nat.lt_of_le_of_lt hstreak (Nat.lt_of_not_le hlimit)

theorem Fair.writerNext {streak : ℕ} (h : Fair streak s) (hsound : s.Sound config)
    {event : WriterEvent} (hnext : s.writerNext config event = some s') :
    Fair (s.streakAfter s' streak) s' := by
  have hmove := writerNext_move hnext
  have hmoved : Connection.next ⟨fun _ => [], fun _ => ""⟩ config s (.writer event) =
      some s' := hnext
  have hbarred : s.canSendSubmit = false → s'.canSendSubmit = false := hsound.barred_of_next hmoved
  refine ⟨?_, fun hfailing hstopped => ?_, fun hwaits => streakAfter_waits hwaits _,
    fun hagain hlimit => streakAfter_waits (h.second_look hnext hagain hlimit) _, fun hasks => ?_⟩
  · cases hwaits : s'.submitWaits with
    | false =>
      rw [streakAfter_waits hwaits]
      exact Nat.zero_le _
    | true =>
      have hsend : s.canSendSubmit = true := by
        by_contra hnot
        have hsend' := canSendSubmit_of_waits hwaits
        rw [hbarred (Bool.eq_false_of_not_eq_true hnot)] at hsend'
        cases hsend'
      rw [streakAfter, if_pos hwaits]
      split
      · exact Nat.zero_le _
      · next outbound htakes => exact h.control_taken hnext htakes hsend
      · exact h.limit
  · have hburst : streak ≤ Connection.burst s.writer := by
      apply h.burst
      · exact fun hstage => hstopped (failing_ends (Or.inl hstage) hnext).2
      · exact fun hstage => hstopped (failing_ends (Or.inr hstage) hnext).2
    rw [burst_move hmove hfailing hstopped, burstAfter, streakAfter]
    split_ifs
    · rcases s.takes s' with _ | ⟨outbound, isSubmit⟩
      · exact hburst
      · cases isSubmit with
        | false => exact Nat.succ_le_succ hburst
        | true => exact Nat.le_refl 0
    · exact Nat.zero_le _
  · rcases asks_move hmove hasks with hold | hnow
    · exact hbarred (h.allowed hold)
    · exact hbarred hnow.symm

theorem Fair.next {streak : ℕ} (h : Fair streak s) (hsound : s.Sound config)
    (hnext : Connection.next gbk config s event = some s') : Fair (s.streakAfter s' streak) s' := by
  by_cases hwriter : ∃ e, event = .writer e
  · obtain ⟨e, rfl⟩ := hwriter
    exact h.writerNext hsound hnext
  have hfeeds := feeds_next (not_exists.mp hwriter) hnext
  have hle := streakAfter_none (takes_same hfeeds.writer) streak
  refine ⟨hle.trans h.limit, fun hfailing hstopped => ?_, fun hwaits => streakAfter_waits hwaits _,
    fun hagain hlimit => ?_, fun hasks => ?_⟩
  · rw [hfeeds.writer] at hfailing hstopped ⊢
    exact hle.trans (h.burst hfailing hstopped)
  · rw [hfeeds.writer] at hagain hlimit
    rw [h.again hagain hlimit] at hle ⊢
    exact Nat.le_zero.mp hle
  · rw [hfeeds.writer] at hasks
    exact hsound.barred_of_next hnext (h.allowed hasks)

end Connection

end CmppProtocol
