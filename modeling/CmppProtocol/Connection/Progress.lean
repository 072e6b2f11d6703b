import CmppProtocol.Connection.Covered
import CmppProtocol.Connection.Owners

/-! # No SUBMIT gets stuck

From every state of an open connection the writer alone can move an entry that
waits for it, and the scan for overdue attempts alone can move an entry that
waits for its response.
-/

namespace CmppProtocol

namespace Connection

variable {gbk : Gbk} {config : ConnectionConfig} {s s' : Connection} {x : ℕ}
  {entry : PendingSubmit}

/-- While the connection is open its tasks run, and the writer asks both queues. -/
structure Running (s : Connection) : Prop where
  asks : ∀ allowed, s.writer.stage.asks = some allowed → s.phase = .opened → allowed = true
  writer : s.writer.stage = .stopped → s.phase = .closed
  timeout : s.timeout = .stopped → s.phase ≠ .opened

theorem asks_move {event : WriterEvent} (h : WriterMove s event s') {allowed : Bool}
    (hasks : s'.writer.stage.asks = some allowed) :
    s.writer.stage.asks = some allowed ∨ allowed = s.canSendSubmit := by
  cases h with
  | select hstage => exact Or.inr (Option.some.inj hasks).symm
  | pick hstage => exact Or.inr (Option.some.inj hasks).symm
  | second canSendSubmit hstage hreceive =>
    left
    rw [hstage]
    exact hasks
  | again canSendSubmit hstage hreceive =>
    left
    rw [hstage]
    exact hasks
  | pickSecond canSubmitNow hstage =>
    left
    rw [hstage]
    exact hasks
  | fail writer outbound hhand hstatus hbatch hfailing =>
    rw [hfailing] at hasks
    cases hasks
  | dropBatch hstage hbatch =>
    simp only [afterBatch] at hasks
    split_ifs at hasks
    all_goals cases hasks
  | endBatch hstage =>
    simp only [afterBatch] at hasks
    split_ifs at hasks
    all_goals cases hasks
  | giveUp hstage => cases hasks
  | _ => cases hasks

theorem stopped_move {event : WriterEvent} (h : WriterMove s event s')
    (hstopped : s'.writer.stage = .stopped) :
    s'.phase = .closed := by
  cases h with
  | stop _ hphase => exact hphase
  | giveUp hstage =>
    rw [finish_eq]
    rfl
  | fail writer outbound hhand hstatus hbatch hfailing => cases hfailing.symm.trans hstopped
  | dropBatch hstage hbatch =>
    simp only [afterBatch] at hstopped
    split_ifs at hstopped
  | endBatch hstage =>
    simp only [afterBatch] at hstopped
    split_ifs at hstopped
  | _ => cases hstopped

theorem stopped_timeoutNext {event : TimeoutEvent} (h : s.timeoutNext config event = some s')
    (hstopped : s'.timeout = .stopped) : s'.phase ≠ .opened := by
  cases event with
  | teardown =>
    simp only [timeoutNext] at h
    split at h
    all_goals cases h
    all_goals rw [finish_eq]
    all_goals rintro ⟨⟩
  | stop =>
    simp only [timeoutNext] at h
    split_ifs at h with hstop
    cases h
    exact hstop.2
  | giveUpSubmit sent =>
    simp only [timeoutNext, giveUpSubmit] at h
    repeat' split at h
    all_goals cases h
    all_goals cases hstopped
  | retrySubmit =>
    simp only [timeoutNext, retrySubmit] at h
    repeat' split at h
    all_goals cases h
    all_goals cases hstopped
  | _ =>
    simp only [timeoutNext] at h
    repeat' split at h
    all_goals cases h
    all_goals cases hstopped

theorem running_initial (config : ConnectionConfig) (clock : ℕ) (udhCounter : UInt32) :
    (initial config clock udhCounter).Running := ⟨nofun, nofun, nofun⟩

theorem Sound.running_next (hsound : s.Sound config) (h : s.Running) {event : ConnectionEvent}
    (hnext : Connection.next gbk config s event = some s') : s'.Running := by
  have howned := next_owned hnext
  have hopened := hsound.opened_of_next hnext
  have hclosed := hsound.closed_of_next hnext
  have hkept (hwriter : s'.writer = s.writer) : (∀ allowed, s'.writer.stage.asks = some allowed →
      s'.phase = .opened → allowed = true) ∧ (s'.writer.stage = .stopped → s'.phase = .closed) := by
    rw [hwriter]
    exact ⟨fun allowed hasks hopen => h.asks allowed hasks (hopened hopen),
      fun hstage => hclosed (h.writer hstage)⟩
  have hscan (htimeout : s'.timeout = s.timeout) (hstopped : s'.timeout = .stopped) :
      s'.phase ≠ .opened := by
    rw [htimeout] at hstopped
    exact fun hopen => h.timeout hstopped (hopened hopen)
  cases event with
  | writer event =>
    have hmove := writerNext_move hnext
    refine ⟨fun allowed hasks hopen => ?_, stopped_move hmove,
      hscan (congrArg Owned.timeout howned)⟩
    rcases asks_move hmove hasks with hold | rfl
    · exact h.asks allowed hold (hopened hopen)
    · rw [canSendSubmit, hopened hopen]
      rfl
  | timeout event =>
    obtain ⟨hasks, hstopped⟩ := hkept (congrArg Owned.writer howned)
    exact ⟨hasks, hstopped, stopped_timeoutNext hnext⟩
  | _ =>
    obtain ⟨hasks, hstopped⟩ := hkept (congrArg Owned.writer howned)
    exact ⟨hasks, hstopped, hscan (congrArg Owned.timeout howned)⟩

/-! ## The writer -/

/-- The queue that is asked. -/
def queueOf (s : Connection) (fromSubmit : Bool) : List Outbound :=
  if fromSubmit then s.submitQueue else s.controlQueue

/-- A bound on the steps of the writer until it looks at the queues again. -/
def stageLeft (s : Connection) : ℕ :=
  match s.writer.stage with
  | .stopped | .failing => 0
  | .selectingSecond canSendSubmit =>
    if s.queueOf (!s.submitFirst canSendSubmit) = [] then 2 else 0
  | .selecting _ => 1
  | .top => 2
  | .signallingMarker => 3
  | .answering => 4
  | .publishing rest => 2 * rest.length + 5
  | .signalling _ rest => 2 * rest.length + 6
  | .wrote => 2 * s.writer.batch.length + 8
  | .writing => 2 * s.writer.batch.length + 9
  | .claimed => 2 * s.writer.batch.length + 10
  | .assembled => 2 * s.writer.batch.length + 11
  | .pickingSecond _ => 2 * s.writer.batch.length + 12
  | .picking _ => 2 * s.writer.batch.length + 13
  | .harvesting => 2 * s.writer.batch.length + 14
  | .admitted _ => 2 * s.writer.batch.length + 17
  | .screened _ => 2 * s.writer.batch.length + 18
  | .received _ _ => 2 * s.writer.batch.length + 19

def queuedFrames (s : Connection) : ℕ := s.controlQueue.length + s.submitQueue.length

/-- A bound on the steps of the writer until it has nothing left to do. -/
def workLeft (s : Connection) : ℕ := 20 * s.queuedFrames + s.stageLeft

theorem queueOf_of_receive {fromSubmit : Bool} (h : s.receive fromSubmit = none) :
    s.queueOf fromSubmit = [] := by
  cases fromSubmit with
  | true =>
    cases hqueue : s.submitQueue with
    | nil => exact hqueue
    | cons outbound submitQueue => simp [receive, hqueue] at h
  | false =>
    cases hqueue : s.controlQueue with
    | nil => exact hqueue
    | cons outbound controlQueue => simp [receive, hqueue] at h

theorem queuedFrames_eq (s : Connection) (first : Bool) :
    s.queuedFrames = (s.queueOf first).length + (s.queueOf (!first)).length := by
  cases first with
  | true => exact Nat.add_comm _ _
  | false => rfl

theorem stageLeft_afterBatch (s : Connection) : s.afterBatch.stageLeft ≤ 4 := by
  rw [stageLeft, afterBatch]
  cases s.writer.pendingMarker with
  | none => exact Nat.le_of_ble_eq_true rfl
  | some outbound => exact Nat.le_refl 4

theorem workLeft_lt (hframes : s'.queuedFrames = s.queuedFrames) (h : s'.stageLeft < s.stageLeft) :
    s'.workLeft < s.workLeft := by
  rw [workLeft, workLeft, hframes]
  omega

/-- A frame that is taken from a queue gives more steps back than it costs. -/
theorem workLeft_take (hframes : s.queuedFrames = s'.queuedFrames + 1)
    (h : s'.stageLeft < s.stageLeft + 20) : s'.workLeft < s.workLeft := by
  rw [workLeft, workLeft, hframes]
  omega

theorem stageLeft_asks (hw : s.Wired config) {allowed : Bool}
    (h : s.writer.stage.asks = some allowed) : 2 * s.writer.batch.length ≤ s.stageLeft := by
  have hstaged := hw.writer.stage
  rw [Writer.Staged] at hstaged
  cases hstage : s.writer.stage with
  | selecting canSendSubmit =>
    rw [hstage] at hstaged
    rw [hstaged.2.1]
    exact Nat.zero_le _
  | selectingSecond canSendSubmit =>
    rw [hstage] at hstaged
    rw [hstaged.2.1]
    exact Nat.zero_le _
  | picking canSubmitNow =>
    rw [stageLeft, hstage]
    exact Nat.le_add_right _ _
  | pickingSecond canSubmitNow =>
    rw [stageLeft, hstage]
    exact Nat.le_add_right _ _
  | _ =>
    rw [hstage] at h
    cases h

theorem stageLeft_hand {outbound : Outbound} (h : s.writer.stage.hand = some outbound) :
    2 * s.writer.batch.length + 17 ≤ s.stageLeft := by
  cases hstage : s.writer.stage with
  | received outbound isSubmit =>
    rw [stageLeft, hstage]
    exact Nat.add_le_add_left (by decide) _
  | screened outbound =>
    rw [stageLeft, hstage]
    exact Nat.add_le_add_left (by decide) _
  | admitted outbound =>
    rw [stageLeft, hstage]
  | _ =>
    rw [hstage] at h
    cases h

theorem claimed_length_le (allowed : Bool) (pending : PendingSubmits) (batch : List Outbound) :
    (claimSubmitAttempts allowed pending batch).2.length ≤ batch.length := by
  rw [claimSubmitAttempts_eq]
  exact (Compaction.sweep_sublist _ _).length_le

/-- Every step of the writer leaves less to do. -/
theorem workLeft_move (hw : s.Wired config) (hrunning : s.Running) (hopen : s.phase = .opened)
    (hbusy : ∀ canSendSubmit, s.writer.stage = .selecting canSendSubmit → 0 < s.queuedFrames)
    {event : WriterEvent} (h : WriterMove s event s') (hevent : event = .advance ∨ event = .written)
    (hopen' : s'.phase = .opened) : s'.workLeft < s.workLeft := by
  cases h with
  | stop _ hphase =>
    rw [hopen] at hphase
    cases hphase
  | top canSendSubmit hstage => rcases hevent with h | h <;> cases h
  | failWrite hstage => rcases hevent with h | h <;> cases h
  | giveUp hstage =>
    rw [finish_eq] at hopen'
    cases hopen'
  | second canSendSubmit hstage hreceive =>
    have hsum := s.queuedFrames_eq (s.submitFirst canSendSubmit)
    rw [queueOf_of_receive hreceive] at hsum
    have hother : s.queueOf (!s.submitFirst canSendSubmit) ≠ [] := by
      intro hnil
      have hq := hbusy canSendSubmit hstage
      rw [hsum, hnil] at hq
      cases hq
    have hleft : (s.setStage (.selectingSecond canSendSubmit)).stageLeft = 0 := if_neg hother
    refine workLeft_lt rfl ?_
    rw [hleft, stageLeft, hstage]
    exact Nat.one_pos
  | again canSendSubmit hstage hreceive =>
    have hallowed : canSendSubmit = true :=
      hrunning.asks _ (by rw [hstage]; rfl) hopen
    have hleft : s.stageLeft = 2 := by
      rw [stageLeft, hstage]
      exact if_pos (queueOf_of_receive (hreceive hallowed))
    refine workLeft_lt rfl ?_
    rw [hleft]
    exact Nat.one_lt_two
  | takeSubmit allowed outbound submitQueue hasks hqueue =>
    have hleft := stageLeft_asks hw hasks
    refine workLeft_take ?_ ?_
    · rw [queuedFrames, hqueue, List.length_cons]
      rfl
    · change 2 * s.writer.batch.length + 19 < s.stageLeft + 20
      omega
  | takeControl allowed outbound controlQueue hasks hqueue =>
    have hleft := stageLeft_asks hw hasks
    refine workLeft_take ?_ ?_
    · rw [queuedFrames, hqueue, List.length_cons, Nat.add_right_comm]
      rfl
    · change 2 * s.writer.batch.length + 19 < s.stageLeft + 20
      omega
  | marker outbound isSubmit hstage hmarker =>
    refine workLeft_lt rfl ?_
    rw [stageLeft, stageLeft, hstage]
    exact Nat.add_lt_add_left (by decide) _
  | fail writer outbound hhand hstatus hbatch hfailing =>
    have hleft := stageLeft_hand hhand
    refine workLeft_lt rfl ?_
    have hzero : ({ s with writer } : Connection).stageLeft = 0 := by rw [stageLeft, hfailing]
    omega
  | push outbound hstage =>
    refine workLeft_lt rfl ?_
    rw [stageLeft, stageLeft, hstage]
    simp only [List.length_append, List.length_singleton]
    omega
  | assemble hstage =>
    refine workLeft_lt rfl ?_
    rcases hstage with hstage | ⟨allowed, hstage⟩
    · rw [stageLeft, stageLeft, hstage]
      exact Nat.add_lt_add_left (by decide) _
    · rw [stageLeft, stageLeft, hstage]
      exact Nat.add_lt_add_left (by decide) _
  | claim hstage =>
    have hlength := claimed_length_le s.canSendSubmit s.pendingSubmits s.writer.batch
    refine workLeft_lt rfl ?_
    rw [stageLeft, stageLeft, hstage]
    simp only [claimBatch]
    omega
  | dropBatch hstage hbatch =>
    have hafter := s.stageLeft_afterBatch
    refine workLeft_lt rfl ?_
    have hleft : s.stageLeft = 10 := by rw [stageLeft, hstage, hbatch]; rfl
    omega
  | endBatch hstage =>
    have hafter := s.stageLeft_afterBatch
    refine workLeft_lt rfl ?_
    have hleft : s.stageLeft = 5 := by rw [stageLeft, hstage]; rfl
    omega
  | publish outbound rest heartbeatPending peerWritten localWritten hstage hsize =>
    refine workLeft_lt rfl ?_
    rw [stageLeft, stageLeft, hstage]
    simp only [setStage, List.length_cons]
    omega
  | select hstage | pickSecond allowed hstage
    | screened outbound isSubmit heartbeats hstage hmarker hsize
  | stale outbound isSubmit heartbeats hstage hkey hsize | skip outbound hstage hopenOnly hphase
  | admitOutbound outbound hstage | cancel outbound hstage hcancel | pick hstage | hand hstage
  | written hstage | complete writtenAt hstage hstatus | signal writtenTx rest hstage
  | answer hstage | signalMarker hstage =>
    refine workLeft_lt rfl ?_
    rw [stageLeft, stageLeft, hstage]
    simp only [setStage, countBurst]
    omega

/-- The writer can always go on: a write may end. -/
theorem writer_enabled (hw : s.Wired config) (hstopped : s.writer.stage ≠ .stopped) :
    ∃ event s', (event = .advance ∨ event = .written) ∧ s.writerNext config event = some s' := by
  have hstaged := hw.writer.stage
  rw [Writer.Staged] at hstaged
  by_cases hwriting : s.writer.stage = .writing
  · have hwritten : (s.writerNext config .written).isSome := by
      simp only [writerNext, hwriting]
      rfl
    obtain ⟨s', hs'⟩ := Option.isSome_iff_exists.mp hwritten
    exact ⟨.written, s', Or.inr rfl, hs'⟩
  have hadvance : (s.writerAdvance config).isSome := by
    cases hstage : s.writer.stage with
    | top | screened | harvesting | claimed =>
      simp only [writerAdvance, hstage]
      split_ifs <;> rfl
    | wrote =>
      rw [hstage] at hstaged
      obtain ⟨writtenAt, hstatus⟩ := hstaged
      simp only [writerAdvance, hstage, hstatus]
      rfl
    | publishing rest =>
      rw [hstage] at hstaged
      obtain ⟨⟨writtenAt, hstatus⟩, _⟩ := hstaged
      cases rest with
      | nil =>
        simp only [writerAdvance, hstage]
        rfl
      | cons outbound rest =>
        simp only [writerAdvance, hstage, hstatus]
        rfl
    | writing => exact absurd hstage hwriting
    | stopped => exact absurd hstage hstopped
    | _ =>
      simp only [writerAdvance, hstage]
      rfl
  obtain ⟨s', hs'⟩ := Option.isSome_iff_exists.mp hadvance
  exact ⟨.advance, s', Or.inl rfl, hs'⟩

/-- While the writer looks at the queues, an entry that waits for it has its frame there. -/
theorem Covered.queuedFrames_pos (h : s.Covered x entry) (hw : s.Wired config)
    (hentry : ∀ attempt writtenAt, entry.state ≠ .awaitingResponse attempt writtenAt)
    {canSendSubmit : Bool} (hstage : s.writer.stage = .selecting canSendSubmit) :
    0 < s.queuedFrames := by
  have hstaged := hw.writer.stage
  rw [Writer.Staged, hstage] at hstaged
  obtain ⟨hstatus, hbatch, _⟩ := hstaged
  have hempty : s.inBatch = [] := by
    rw [inBatch, hstatus]
    rfl
  have hwaiting : s.unclaimed = s.submitQueue := by
    rw [unclaimed, hstatus, hbatch, hstage]
    rfl
  cases hstate : entry.state with
  | queued attempt =>
    have hone := h.queued attempt hstate
    rw [hwaiting] at hone
    have hpos : 0 < s.submitQueue.length := by
      have hle := List.countP_le_length (p := Outbound.attempts ⟨x, entry.submissionId, attempt⟩)
        (l := s.submitQueue)
      omega
    exact Nat.lt_add_left _ hpos
  | writing attempt =>
    have hone := h.writing attempt hstate
    rw [hempty] at hone
    cases hone
  | respondedWhileWriting attempt =>
    have hone := h.respondedWhileWriting attempt hstate
    rw [hempty] at hone
    cases hone
  | awaitingResponse attempt writtenAt => exact absurd hstate (hentry attempt writtenAt)

/-- What an open connection with this entry is, for the rounds of its tasks. -/
structure Holding (config : ConnectionConfig) (x : ℕ) (entry : PendingSubmit) (s : Connection) :
    Prop where
  sound : s.Sound config
  running : s.Running
  opened : s.phase = .opened
  find : s.pendingSubmits.find x = some entry

/-- The entry has been changed or removed, or the connection is not open any more. -/
def Moved (x : ℕ) (entry : PendingSubmit) (s : Connection) : Prop :=
  s.pendingSubmits.find x ≠ some entry ∨ s.phase ≠ .opened

theorem Holding.next (h : s.Holding config x entry) {event : ConnectionEvent}
    (hnext : Connection.next gbk config s event = some s') :
    s'.Moved x entry ∨ s'.Holding config x entry := by
  by_cases hfind : s'.pendingSubmits.find x = some entry
  · by_cases hopen : s'.phase = .opened
    · exact Or.inr ⟨h.sound.next hnext, h.sound.running_next h.running hnext, hopen, hfind⟩
    · exact Or.inl (Or.inr hopen)
  · exact Or.inl (Or.inl hfind)

/-- The machine in which only the writer goes on, and every write ends well. -/
abbrev writing (gbk : Gbk) (config : ConnectionConfig) (clock : ℕ) (udhCounter : UInt32) :
    Machine Connection ConnectionEvent :=
  (machine gbk config clock udhCounter).restrict fun _ event =>
    event = .writer .advance ∨ event = .writer .written

variable {clock : ℕ} {udhCounter : UInt32}

/-- The writer alone moves an entry that waits for it. -/
theorem Holding.written (h : s.Holding config x entry)
    (hentry : ∀ attempt writtenAt, entry.state ≠ .awaitingResponse attempt writtenAt) :
    ∃ s', (writing gbk config clock udhCounter).Reaches s s' ∧ s'.Moved x entry := by
  refine Machine.reaches_of_descent workLeft (fun s h => ?_) h
  have hstopped : s.writer.stage ≠ .stopped := by
    intro hstage
    have hclosed := h.running.writer hstage
    rw [h.opened] at hclosed
    cases hclosed
  obtain ⟨event, s', hevent, hmove⟩ := writer_enabled h.sound.wired hstopped
  have hnext : Connection.next gbk config s (.writer event) = some s' := hmove
  have hstep : (writing gbk config clock udhCounter).step s (.writer event) s' :=
    ⟨hnext, hevent.imp (congrArg _) (congrArg _)⟩
  refine ⟨s', .step hstep, ?_⟩
  rcases h.next hnext with hmoved | hholding
  · exact Or.inl hmoved
  · refine Or.inr ⟨hholding, workLeft_move h.sound.wired h.running h.opened ?_
      (writerNext_move hmove) hevent hholding.opened⟩
    exact fun _ => (h.sound.covered h.opened h.find).queuedFrames_pos h.sound.wired hentry

end Connection

end CmppProtocol
