import CmppProtocol.Connection.Wiring

/-! # The connection is a window

Every step of the connection keeps its wiring, and is a step of the window that
it is seen as, or leaves that window as it is.
-/

namespace CmppProtocol

namespace Connection

variable {gbk : Gbk} {config : ConnectionConfig} {s s' : Connection}

/-- What a step of the connection is for its window. -/
structure Follows (config : ConnectionConfig) (s s' : Connection) : Prop where
  wired : s'.Wired config
  window : s'.window = s.window ∨ Window.Step config s.window s'.window

/-- A change that the window does not show, and then a step. -/
theorem Follows.after {t : Connection} (hsame : t.window = s.window) (h : Follows config t s') :
    Follows config s s' := ⟨h.wired, hsame ▸ h.window⟩

/-! ## The writer -/

theorem drained_of_ne (hstage : s.writer.stage ≠ .signallingMarker) :
    s.window.drained = decide (WrittenTx.drainMarker ∈ s.signalled) := by
  rw [window, decide_eq_false hstage, Bool.false_or]

/-- A step that neither is nor leaves the answer to the marker. -/
theorem drained_same (hstage : s.writer.stage ≠ .signallingMarker)
    (hstage' : s'.writer.stage ≠ .signallingMarker) (hsame : s'.signalled = s.signalled) :
    s'.window.drained = s.window.drained := by
  rw [drained_of_ne hstage, drained_of_ne hstage', hsame]

/-- The writer takes up frames and the line stays as it is. -/
theorem window_line (s : Connection) (writer : Writer) (submitQueue : List Outbound)
    (hline : writer.taken ++ submitQueue.filter Outbound.standsInLine =
      s.writer.taken ++ s.submitQueue.filter Outbound.standsInLine)
    (hheld : writer.held = s.writer.held) (hstatus : writer.status = s.writer.status)
    (hstage : writer.stage = .signallingMarker ↔ s.writer.stage = .signallingMarker) :
    ({ s with writer, submitQueue } : Connection).window = s.window := by
  simp only [window, hline, hheld, hstatus, hstage]

theorem window_writer (s : Connection) (writer : Writer) (htaken : writer.taken = s.writer.taken)
    (hheld : writer.held = s.writer.held) (hstatus : writer.status = s.writer.status)
    (hstage : writer.stage = .signallingMarker ↔ s.writer.stage = .signallingMarker) :
    ({ s with writer } : Connection).window = s.window :=
  window_line s writer s.submitQueue (by rw [htaken]) hheld hstatus hstage

theorem Wired.setWriter (hw : s.Wired config) {writer : Writer} (h : writer.Wired) :
    ({ s with writer } : Connection).Wired config :=
  ⟨hw.submits, hw.controls, h, hw.finishing, hw.timeout⟩

/-- The writer only moves on. -/
theorem follows_setStage (hw : s.Wired config) {old stage : WriterStage}
    (hstage : s.writer.stage = old) (hhand : stage.hand = old.hand)
    (hmarker : stage ≠ .signallingMarker) (hmarker' : old ≠ .signallingMarker)
    (hstaged : ({ s.writer with stage } : Writer).Staged) :
    Follows config s (s.setStage stage) := by
  subst hstage
  refine ⟨hw.setWriter ⟨hw.writer.batch, hw.writer.marker, hstaged⟩, Or.inl ?_⟩
  apply window_writer s { s.writer with stage }
  · simp only [Writer.taken, hhand]
  · rfl
  · rfl
  · exact iff_of_false hmarker hmarker'

theorem follows_receive (hw : s.Wired config) {fromSubmit : Bool}
    (hstatus : s.writer.status = .collecting) (hmarker : s.writer.pendingMarker = none)
    (hhand : s.writer.stage.hand = none) (hstage : s.writer.stage ≠ .signallingMarker)
    (h : s.receive fromSubmit = some s') : Follows config s s' := by
  have hstages {outbound : Outbound} {isSubmit : Bool} :
      WriterStage.received outbound isSubmit = .signallingMarker ↔
        s.writer.stage = .signallingMarker :=
    iff_of_false (fun h => by cases h) hstage
  rw [receive] at h
  split at h
  · split at h
    · cases h
    · next outbound submitQueue hqueue =>
      cases h
      have hsubmits := hw.submits
      rw [hqueue] at hsubmits
      obtain ⟨hfirst, hrest⟩ := List.forall_mem_cons.mp hsubmits
      refine ⟨⟨hrest, hw.controls, ⟨hw.writer.batch, hw.writer.marker, ?_⟩, hw.finishing,
        hw.timeout⟩,
        Or.inl (window_line s { s.writer with stage := _ } submitQueue ?_ rfl rfl hstages)⟩
      · exact ⟨hstatus, hmarker, fun _ => hfirst, by rintro ⟨⟩⟩
      · rw [hqueue, Writer.taken, Writer.taken, hhand, hmarker, List.filter_cons]
        cases hline : outbound.standsInLine with
        | true => simp [hline]
        | false => simp [hline]
  · split at h
    · cases h
    · next outbound controlQueue hqueue =>
      cases h
      have hcontrols := hw.controls
      rw [hqueue] at hcontrols
      obtain ⟨hfirst, hrest⟩ := List.forall_mem_cons.mp hcontrols
      refine ⟨⟨hw.submits, hrest, ⟨hw.writer.batch, hw.writer.marker, ?_⟩, hw.finishing,
        hw.timeout⟩, Or.inl (window_writer s { s.writer with stage := _ } ?_ rfl rfl hstages)⟩
      · exact ⟨hstatus, hmarker, by rintro ⟨⟩, fun _ => hfirst⟩
      · simp [Writer.taken, hhand, hfirst.not_standsInLine]

/-- A frame is dropped from the hand of the writer. -/
theorem follows_drop (hw : s.Wired config) {outbound : Outbound} {stage : WriterStage}
    (hhand : s.writer.stage.hand = some outbound) (hcontrol : outbound.IsControl)
    (hempty : stage.hand = none) (hmarker : stage ≠ .signallingMarker)
    (hstaged : ({ s.writer with stage } : Writer).Staged) :
    Follows config s (s.setStage stage) := by
  refine ⟨hw.setWriter ⟨hw.writer.batch, hw.writer.marker, hstaged⟩,
    Or.inl (window_writer s { s.writer with stage } ?_ rfl rfl (iff_of_false hmarker ?_))⟩
  · simp [Writer.taken, hhand, hempty, hcontrol.not_standsInLine]
  · intro hstage
    rw [hstage] at hhand
    cases hhand

theorem claimHeartbeatAttempt_eq (s : Connection) (key : HeartbeatAttemptKey) :
    ∃ heartbeatPending, (s.claimHeartbeatAttempt key).2 = { s with heartbeatPending } := by
  rw [claimHeartbeatAttempt]
  split_ifs
  · exact ⟨_, rfl⟩
  split
  · split_ifs
    · exact ⟨_, rfl⟩
    · exact ⟨_, rfl⟩
  · exact ⟨_, rfl⟩

theorem follows_screen (hw : s.Wired config) {outbound : Outbound} {isSubmit : Bool}
    (hstage : s.writer.stage = .received outbound isSubmit) :
    Follows config s (s.screen outbound isSubmit) := by
  have hstaged := hw.writer.stage
  rw [Writer.Staged, hstage] at hstaged
  obtain ⟨hstatus, hmarker, hqueued, hcontrol⟩ := hstaged
  apply Follows.after (show (s.countBurst isSubmit).window = s.window from rfl)
  have hw' : (s.countBurst isSubmit).Wired config :=
    hw.setWriter ⟨hw.writer.batch, hw.writer.marker, hw.writer.stage⟩
  have hhand : (s.countBurst isSubmit).writer.stage.hand = some outbound := by
    rw [countBurst, hstage]
    rfl
  have hstage' : (s.countBurst isSubmit).writer.stage ≠ .signallingMarker := by
    rw [countBurst, hstage]
    rintro ⟨⟩
  have hframe (hf : outbound.submitDrainMarker = false) : outbound.IsFrame := by
    cases isSubmit with
    | true => exact Or.inl ((hqueued rfl).isSubmit hf)
    | false => exact Or.inr (hcontrol rfl)
  have hscreened (hf : outbound.IsFrame) :
      Follows config (s.countBurst isSubmit)
        ((s.countBurst isSubmit).setStage (.screened outbound)) :=
    follows_setStage hw' rfl hhand.symm (by rintro ⟨⟩) hstage' ⟨hstatus, hmarker, hf⟩
  rw [screen]
  split_ifs with hdrain hbad
  · have hout : outbound = .drainMarker := by
      cases isSubmit with
      | true =>
        rcases hqueued rfl with ⟨packet, key, rfl⟩ | hout
        · cases hdrain
        · exact hout
      | false => exact absurd hdrain (by simp [(hcontrol rfl).submitDrainMarker])
    subst hout
    refine ⟨hw'.setWriter ⟨hw.writer.batch, ?_, hstatus⟩, Or.inl (window_writer _
      { (s.countBurst isSubmit).writer with stage := _, pendingMarker := _ } ?_ rfl rfl
        (iff_of_false (by rintro ⟨⟩) hstage'))⟩
    · exact fun o ho => (Option.some.inj ho).symm
    · rw [Writer.taken, Writer.taken, hhand]
      change _ ++ ([] ++ [_]) = _ ++ ([_] ++ s.writer.pendingMarker.toList)
      rw [hmarker]
      rfl
  · obtain ⟨packet, key, rfl⟩ := (hqueued hbad.1).isSubmit (Bool.not_eq_true _ ▸ hdrain)
    exact absurd hbad.2 (Option.some_ne_none _)
  have hkept := hframe (Bool.not_eq_true _ ▸ hdrain)
  cases hattempt : outbound.heartbeatAttempt with
  | none => exact hscreened hkept
  | some key =>
    have hout : outbound.IsControl := by
      rcases hkept with ⟨packet, key', rfl⟩ | hout
      · cases hattempt
      · exact hout
    obtain ⟨heartbeatPending, hclaim⟩ := (s.countBurst isSubmit).claimHeartbeatAttempt_eq key
    cases hresult : (s.countBurst isSubmit).claimHeartbeatAttempt key with
    | mk claimed t =>
      rw [hresult] at hclaim
      cases hclaim
      simp only [hresult]
      have hw'' : ({ s.countBurst isSubmit with heartbeatPending } : Connection).Wired config :=
        ⟨hw'.submits, hw'.controls, hw'.writer, hw'.finishing, hw'.timeout⟩
      refine Follows.after (show ({ s.countBurst isSubmit with heartbeatPending } :
        Connection).window = (s.countBurst isSubmit).window from rfl) ?_
      cases claimed with
      | true =>
        exact follows_setStage hw'' rfl hhand.symm (by rintro ⟨⟩) hstage'
          ⟨hstatus, hmarker, hkept⟩
      | false => exact follows_drop hw'' hhand hout rfl (by rintro ⟨⟩) ⟨hstatus, hmarker⟩

theorem follows_push (hw : s.Wired config) {outbound : Outbound}
    (hstage : s.writer.stage = .admitted outbound) : Follows config s (s.push config outbound) := by
  have hstaged := hw.writer.stage
  rw [Writer.Staged, hstage] at hstaged
  obtain ⟨hstatus, hmarker, hframe⟩ := hstaged
  have hhand : s.writer.stage.hand = some outbound := by
    rw [hstage]
    rfl
  have hpush : Follows config s { s with writer := { s.writer with
      stage := .harvesting
      batch := s.writer.batch ++ [outbound]
      batchBytes := s.writer.batchBytes + outbound.packet.length } } := by
    refine ⟨hw.setWriter ⟨?_, hw.writer.marker, hstatus, hmarker⟩, Or.inl (window_writer s
      { s.writer with stage := _, batch := _, batchBytes := _ } ?_ ?_ rfl
      (iff_of_false (by rintro ⟨⟩) ?_))⟩
    · intro o ho
      rcases List.mem_append.mp ho with ho | ho
      · exact hw.writer.batch o ho
      · exact List.mem_singleton.mp ho ▸ hframe
    · rw [Writer.taken, Writer.taken, hhand, if_pos hstatus, if_pos hstatus, List.filter_append,
        hmarker]
      cases hline : outbound.isSubmit with
      | true => simp [hline, hframe.standsInLine, WriterStage.hand]
      | false => simp [hline, hframe.standsInLine, WriterStage.hand]
    · rw [Writer.held, Writer.held, hstatus]
      rfl
    · rw [hstage]
      rintro ⟨⟩
  rw [push]
  split_ifs with hcancel
  · have hout : outbound.IsControl := by
      rcases hframe with ⟨packet, key, rfl⟩ | hout
      · cases hcancel.1
      · exact hout
    exact follows_drop hw hhand hout rfl (by rintro ⟨⟩) ⟨hstatus, hmarker⟩
  split
  · next startedAt hbudget =>
    split_ifs
    · have hout : outbound.IsControl := by
        rcases hframe with ⟨packet, key, rfl⟩ | hout
        · cases hbudget
        · exact hout
      exact follows_drop hw hhand hout rfl (by rintro ⟨⟩) trivial
    · exact hpush
  · exact hpush

theorem follows_claimBatch (hw : s.Wired config) (hstage : s.writer.stage = .assembled) :
    Follows config s s.claimBatch := by
  have hstatus : s.writer.status = .collecting := by
    have hstaged := hw.writer.stage
    rw [Writer.Staged, hstage] at hstaged
    exact hstaged
  have hheld : s.window.held = [] := by
    change s.writer.held = []
    rw [Writer.held, hstatus]
    rfl
  have hline : s.window.line = s.writer.batch.filter Outbound.isSubmit ++
      (s.writer.pendingMarker.toList ++ s.submitQueue.filter Outbound.standsInLine) := by
    change s.writer.taken ++ _ = _
    rw [Writer.taken, if_pos hstatus, hstage, List.append_assoc]
    rfl
  have hwindow : s.claimBatch.window = { s.window with
      pending := (claimSubmitAttempts s.canSendSubmit s.pendingSubmits s.writer.batch).1
      line := s.writer.pendingMarker.toList ++ s.submitQueue.filter Outbound.standsInLine
      held := (claimSubmitAttempts s.canSendSubmit s.pendingSubmits s.writer.batch).2.filter
        Outbound.isSubmit
      status := .claimed
      log := { s.window.log with
        claimed := s.log.claimed ++
          (claimSubmitAttempts s.canSendSubmit s.pendingSubmits s.writer.batch).2.filter
            Outbound.isSubmit } } := by
    apply Window.ext
    case drained => exact drained_same (by rw [hstage]; exact nofun) nofun rfl
    all_goals rfl
  refine ⟨⟨hw.submits, hw.controls, ⟨?_, hw.writer.marker, rfl⟩, hw.finishing, hw.timeout⟩,
    Or.inr ?_⟩
  · intro o (ho : o ∈ (claimSubmitAttempts _ _ _).2)
    rw [claimSubmitAttempts_eq] at ho
    exact hw.writer.batch o ((Compaction.sweep_sublist _ _).subset ho)
  · rw [hwindow]
    exact .claim s.writer.batch _ hline hstatus hheld

theorem afterBatch_stage (s : Connection) :
    s.afterBatch.writer.stage.hand = none ∧ s.afterBatch.writer.stage ≠ .signallingMarker := by
  cases hpending : s.writer.pendingMarker with
  | none => simp [afterBatch, hpending, WriterStage.hand]
  | some outbound => simp [afterBatch, hpending, WriterStage.hand]

theorem follows_afterBatch (hw : s.Wired config) (hheld : s.writer.held = [])
    (hhand : s.writer.stage.hand = none) (hmarker : s.writer.stage ≠ .signallingMarker)
    (hstatus : s.writer.status ≠ .collecting) : Follows config s s.afterBatch := by
  obtain ⟨hhand', hmarker'⟩ := s.afterBatch_stage
  have hwindow : s.afterBatch.window = { s.window with status := .collecting } := by
    apply Window.ext
    case drained => exact drained_same hmarker hmarker' rfl
    case line =>
      simp only [window, Writer.taken, hhand, hhand', if_neg hstatus]
      rfl
    case held => exact hheld.symm
    all_goals rfl
  refine ⟨hw.setWriter ⟨fun o ho => absurd ho List.not_mem_nil, hw.writer.marker, ?_⟩, Or.inr ?_⟩
  · cases hpending : s.writer.pendingMarker with
    | none => exact ⟨rfl, rfl, hpending⟩
    | some outbound =>
      exact ⟨rfl, rfl, hpending.trans (congrArg some (hw.writer.marker outbound hpending))⟩
  · rw [hwindow]
    exact .rest hheld

theorem follows_hand (hw : s.Wired config) (hstage : s.writer.stage = .claimed) :
    Follows config s { s with
      writer := { s.writer with stage := .writing, status := .handed }
      log := { s.log with handed := s.log.handed ++ s.writer.batch } } := by
  have hstatus : s.writer.status = .claimed := by
    have hstaged := hw.writer.stage
    rw [Writer.Staged, hstage] at hstaged
    exact hstaged
  have hheld : s.writer.held = s.writer.batch.filter Outbound.isSubmit := by
    rw [Writer.held, hstatus]
    rfl
  refine ⟨⟨hw.submits, hw.controls, ⟨hw.writer.batch, hw.writer.marker, rfl⟩, hw.finishing,
    hw.timeout⟩, Or.inr ?_⟩
  have hwindow : ({ s with
      writer := { s.writer with stage := .writing, status := .handed }
      log := { s.log with handed := s.log.handed ++ s.writer.batch } } : Connection).window =
      { s.window with
        status := .handed
        log := { s.window.log with handed := s.log.handed ++ s.writer.batch } } := by
    apply Window.ext
    case drained => exact drained_same (by rw [hstage]; exact nofun) nofun rfl
    case line =>
      simp only [window, Writer.taken, hstage, hstatus]
      rfl
    case held => exact hheld.symm
    all_goals rfl
  rw [hwindow]
  exact .hand s.writer.batch hheld hstatus

theorem follows_written (hw : s.Wired config) (hstage : s.writer.stage = .writing) :
    Follows config s { s with
      writer := { s.writer with stage := .wrote, status := .written s.clock }
      log := { s.log with
        written := s.log.written ++ s.writer.batch.map fun outbound => (outbound, s.clock) } } := by
  have hstatus : s.writer.status = .handed := by
    have hstaged := hw.writer.stage
    rw [Writer.Staged, hstage] at hstaged
    exact hstaged
  have hheld : s.writer.held = s.writer.batch.filter Outbound.isSubmit := by
    rw [Writer.held, hstatus]
    rfl
  refine ⟨⟨hw.submits, hw.controls, ⟨hw.writer.batch, hw.writer.marker, ⟨_, rfl⟩⟩, hw.finishing,
    hw.timeout⟩, Or.inr ?_⟩
  have hwindow : ({ s with
      writer := { s.writer with stage := .wrote, status := .written s.clock }
      log := { s.log with
        written := s.log.written ++ s.writer.batch.map fun outbound => (outbound, s.clock) } } :
          Connection).window =
      { s.window with
        status := .written s.clock
        log := { s.window.log with
          written :=
            s.log.written ++ s.writer.batch.map fun outbound => (outbound, s.clock) } } := by
    apply Window.ext
    case drained => exact drained_same (by rw [hstage]; exact nofun) nofun rfl
    case line =>
      simp only [window, Writer.taken, hstage, hstatus]
      rfl
    case held => exact hheld.symm
    all_goals rfl
  rw [hwindow]
  exact .write s.writer.batch hheld hstatus

theorem follows_completed (hw : s.Wired config) {writtenAt : ℕ} (hstage : s.writer.stage = .wrote)
    (hstatus : s.writer.status = .written writtenAt) :
    Follows config s { s.setPending (completeSubmitAttempts writtenAt s.pendingSubmits
        (s.writer.batch.filterMap Outbound.submitAttempt)) with
      writer := { s.writer with
        stage := .publishing s.writer.batch, status := .completed writtenAt } } := by
  have hheld : s.writer.held = s.writer.batch.filter Outbound.isSubmit := by
    rw [Writer.held, hstatus]
    rfl
  refine ⟨⟨hw.submits, hw.controls, ⟨hw.writer.batch, hw.writer.marker, ⟨_, rfl⟩, hw.writer.batch⟩,
    hw.finishing, hw.timeout⟩, Or.inr ?_⟩
  have hwindow : ({ s.setPending (completeSubmitAttempts writtenAt s.pendingSubmits
        (s.writer.batch.filterMap Outbound.submitAttempt)) with
      writer := { s.writer with
        stage := .publishing s.writer.batch, status := .completed writtenAt } } :
          Connection).window =
      { s.window with
        pending := completeSubmitAttempts writtenAt s.pendingSubmits
          (s.writer.batch.filterMap Outbound.submitAttempt)
        held := []
        status := .completed writtenAt } := by
    apply Window.ext
    case drained => exact drained_same (by rw [hstage]; exact nofun) nofun rfl
    case line =>
      simp only [window, Writer.taken, hstage, hstatus]
      rfl
    all_goals rfl
  rw [hwindow]
  exact .complete s.writer.batch writtenAt hheld hstatus

theorem follows_publishFrame (hw : s.Wired config) {outbound : Outbound} {rest : List Outbound}
    {writtenAt : ℕ} (hstage : s.writer.stage = .publishing (outbound :: rest)) :
    Follows config s (s.publishFrame outbound writtenAt rest) := by
  have hstaged := hw.writer.stage
  rw [Writer.Staged, hstage] at hstaged
  obtain ⟨hfirst, hrest⟩ := List.forall_mem_cons.mp hstaged.2
  obtain ⟨heartbeatPending, heq⟩ := s.publishFrame_eq outbound writtenAt rest
  rw [heq]
  have hw' : ({ s with
      heartbeatPending
      peerTerminateResponseWritten :=
        s.peerTerminateResponseWritten || outbound.marksPeerTerminateResponse
      terminateWritten := s.terminateWritten || outbound.writtenFlag } : Connection).Wired config :=
    ⟨hw.submits, hw.controls, hw.writer, hw.finishing, hw.timeout⟩
  refine Follows.after ?_
    (follows_setStage hw' rfl ?_ nofun ?_ ⟨hstaged.1, hfirst.writtenTx, hrest⟩)
  · rfl
  · rw [hstage]
    rfl
  · rw [hstage]
    exact nofun

theorem follows_signalling (hw : s.Wired config) {writtenTx : Option WrittenTx}
    {rest : List Outbound}
    (hstage : s.writer.stage = .signalling writtenTx rest) :
    Follows config s (({ s with signalled := s.signalled ++ writtenTx.toList } :
      Connection).setStage (.publishing rest)) := by
  have hstaged := hw.writer.stage
  rw [Writer.Staged, hstage] at hstaged
  obtain ⟨hstatus, hwrittenTx, hrest⟩ := hstaged
  refine ⟨⟨hw.submits, hw.controls, ⟨hw.writer.batch, hw.writer.marker, hstatus, hrest⟩,
    hw.finishing, hw.timeout⟩, Or.inl ?_⟩
  apply Window.ext
  case drained =>
    refine ((drained_of_ne ?_).trans ?_).trans (drained_of_ne ?_).symm
    · exact nofun
    · cases writtenTx with
      | none => simp [setStage]
      | some written =>
        have hne : WrittenTx.drainMarker ≠ written := fun h => hwrittenTx (h ▸ rfl)
        simp [setStage, hne]
    · rw [hstage]
      exact nofun
  case line =>
    simp only [window, setStage, Writer.taken, hstage]
    rfl
  all_goals rfl

theorem follows_answering (hw : s.Wired config) (hstage : s.writer.stage = .answering) :
    Follows config s (({ s with drainSubmitsOnClose := false } : Connection).setStage
      .signallingMarker) := by
  have hstaged := hw.writer.stage
  rw [Writer.Staged, hstage] at hstaged
  obtain ⟨hstatus, hbatch, hmarker⟩ := hstaged
  refine ⟨⟨hw.submits, hw.controls, ⟨hw.writer.batch, hw.writer.marker, hstatus, hbatch, hmarker⟩,
    hw.finishing, hw.timeout⟩, Or.inr ?_⟩
  have hwindow : (({ s with drainSubmitsOnClose := false } : Connection).setStage
      .signallingMarker).window = { s.window with draining := false, drained := true } := by
    apply Window.ext
    case line =>
      simp only [window, setStage, Writer.taken, hstage]
      rfl
    all_goals rfl
  rw [hwindow]
  apply Window.Step.endDrain (s.submitQueue.filter Outbound.standsInLine)
  · simp only [window, Writer.taken, hstatus, hbatch, hmarker, hstage]
    rfl
  · simp only [window, Writer.held, hstatus]
    rfl

theorem follows_signallingMarker (hw : s.Wired config)
    (hstage : s.writer.stage = .signallingMarker) :
    Follows config s { s with
      writer := { s.writer with stage := .top, pendingMarker := none }
      signalled := s.signalled ++ (s.writer.pendingMarker.bind Outbound.writtenTx).toList } := by
  have hstaged := hw.writer.stage
  rw [Writer.Staged, hstage] at hstaged
  obtain ⟨hstatus, hbatch, hmarker⟩ := hstaged
  refine ⟨⟨hw.submits, hw.controls,
    ⟨hw.writer.batch, (fun o ho => by cases ho), hstatus, hbatch, rfl⟩,
    hw.finishing, hw.timeout⟩, Or.inr ?_⟩
  have hdrained : s.window.drained = true := by
    rw [window, decide_eq_true hstage, Bool.true_or]
  have hwindow : ({ s with
      writer := { s.writer with stage := .top, pendingMarker := none }
      signalled := s.signalled ++ (s.writer.pendingMarker.bind Outbound.writtenTx).toList } :
        Connection).window =
      { s.window with line := s.submitQueue.filter Outbound.standsInLine } := by
    apply Window.ext
    case drained =>
      refine ((drained_of_ne ?_).trans ?_).trans hdrained.symm
      · exact nofun
      · rw [hmarker]
        simp [Outbound.drainMarker, Outbound.tracked]
    case line =>
      simp only [window, Writer.taken, hstatus, hbatch]
      rfl
    all_goals rfl
  rw [hwindow]
  apply Window.Step.answer _ _ hdrained
  simp only [window, Writer.taken, hstatus, hbatch, hmarker, hstage]
  rfl

theorem wired_finish (hw : s.Wired config) : s.finish.Wired config := by
  rw [finish_eq]
  exact ⟨hw.submits, hw.controls, hw.writer, fun _ => rfl, hw.timeout⟩

theorem finish_window (s : Connection) : s.finish.window = { s.window with
    phase := .closed
    log := { s.window.log with
      drainCut := s.window.log.drainCut || s.window.phase ≠ .closed } } := by
  rw [finish_eq]
  rfl

theorem follows_finish (hw : s.Wired config) : Follows config s s.finish := by
  refine ⟨wired_finish hw, Or.inr ?_⟩
  rw [finish_window]
  exact .finish

theorem follows_failing (hw : s.Wired config) (hstage : s.writer.stage = .failing) :
    Follows config s (s.finish.setStage .stopped) := by
  have hstage' : s.finish.writer.stage = .failing := by
    rw [finish_eq]
    exact hstage
  have hw' := wired_finish hw
  have hwindow : (s.finish.setStage .stopped).window = s.finish.window := by
    apply window_writer s.finish { s.finish.writer with stage := .stopped }
    · simp only [Writer.taken, hstage']
      rfl
    · rfl
    · rfl
    · exact iff_of_false nofun (by rw [hstage']; exact nofun)
  refine ⟨hw'.setWriter ⟨hw'.writer.batch, hw'.writer.marker, trivial⟩, Or.inr ?_⟩
  rw [hwindow, finish_window]
  exact .finish

/-- The writer asks a queue and moves on if it is empty. -/
theorem follows_receiveOr (hw : s.Wired config) {received : Option Connection} {stage : WriterStage}
    (hreceived : ∀ t, received = some t → ∃ first, s.receive first = some t)
    (hstatus : s.writer.status = .collecting) (hmarker : s.writer.pendingMarker = none)
    (hhand : s.writer.stage.hand = none) (hstage : s.writer.stage ≠ .signallingMarker)
    (hhand' : stage.hand = none) (hstage' : stage ≠ .signallingMarker)
    (hstaged : ({ s.writer with stage } : Writer).Staged) :
    Follows config s (received.getD (s.setStage stage)) := by
  cases hreceive : received with
  | none => exact follows_setStage hw rfl (hhand'.trans hhand.symm) hstage' hstage hstaged
  | some t =>
    obtain ⟨first, ht⟩ := hreceived t hreceive
    exact follows_receive hw hstatus hmarker hhand hstage ht

theorem receive_of_ite {first canSendSubmit : Bool} (t : Connection)
    (h : (if canSendSubmit then s.receive first else none) = some t) :
    ∃ first, s.receive first = some t := by
  split_ifs at h
  exact ⟨first, h⟩

/-- A frame that passes the first checks is admitted; one for an open connection only may be
dropped, which no SUBMIT is. -/
theorem follows_screened (hw : s.Wired config) {outbound : Outbound}
    (hstage : s.writer.stage = .screened outbound) (h : s.writerAdvance config = some s') :
    Follows config s s' := by
  have hstaged := hw.writer.stage
  simp only [writerAdvance, Writer.Staged, hstage] at h hstaged
  obtain ⟨hstatus, hmarker, hframe⟩ := hstaged
  split_ifs at h with hopen
  · cases h
    rcases hframe with ⟨packet, key, rfl⟩ | hcontrol
    · cases hopen.1
    · exact follows_drop hw (congrArg WriterStage.hand hstage) hcontrol rfl (by rintro ⟨⟩)
        ⟨hstatus, hmarker⟩
  · cases h
    exact follows_setStage hw hstage rfl (by rintro ⟨⟩) (by rintro ⟨⟩)
      ⟨hstatus, hmarker, hframe⟩

/-- An empty batch is over; any other goes to the socket. -/
theorem follows_claimed (hw : s.Wired config) (hstage : s.writer.stage = .claimed)
    (h : s.writerAdvance config = some s') : Follows config s s' := by
  have hstaged := hw.writer.stage
  simp only [writerAdvance, Writer.Staged, hstage] at h hstaged
  split_ifs at h with hbatch
  · cases h
    apply follows_afterBatch hw
    · rw [Writer.held, hbatch]
      exact ite_self _
    · rw [hstage]
      rfl
    · rw [hstage]
      rintro ⟨⟩
    · rw [hstaged]
      rintro ⟨⟩
  · cases h
    exact follows_hand hw hstage

/-- The frames of the batch are published one by one. -/
theorem follows_publishing (hw : s.Wired config) {rest : List Outbound}
    (hstage : s.writer.stage = .publishing rest) (h : s.writerAdvance config = some s') :
    Follows config s s' := by
  have hstaged := hw.writer.stage
  simp only [Writer.Staged, hstage] at hstaged
  obtain ⟨writtenAt, hstatus⟩ := hstaged.1
  cases rest with
  | nil =>
    simp only [writerAdvance, hstage, Option.some.injEq] at h
    subst h
    apply follows_afterBatch hw
    · rw [Writer.held, hstatus]
      rfl
    · rw [hstage]
      rfl
    · rw [hstage]
      rintro ⟨⟩
    · rw [hstatus]
      rintro ⟨⟩
  | cons outbound rest =>
    simp only [writerAdvance, hstage, hstatus, Option.some.injEq] at h
    subst h
    exact follows_publishFrame hw hstage

theorem follows_writerAdvance (hw : s.Wired config) (h : s.writerAdvance config = some s') :
    Follows config s s' := by
  have hstaged := hw.writer.stage
  rw [Writer.Staged] at hstaged
  cases hstage : s.writer.stage with
  | top =>
    simp only [writerAdvance, hstage] at h hstaged
    split_ifs at h
    · cases h
      exact follows_setStage hw hstage rfl (by rintro ⟨⟩) (by rintro ⟨⟩) trivial
    · cases h
      exact follows_setStage hw hstage rfl (by rintro ⟨⟩) (by rintro ⟨⟩) hstaged
  | selecting canSendSubmit =>
    simp only [writerAdvance, hstage, Option.some.injEq] at h hstaged
    subst h
    exact follows_receiveOr hw (fun t ht => ⟨_, ht⟩) hstaged.1 hstaged.2.2 (by rw [hstage]; rfl)
      (by rw [hstage]; rintro ⟨⟩) rfl (by rintro ⟨⟩) hstaged
  | selectingSecond canSendSubmit =>
    simp only [writerAdvance, hstage, Option.some.injEq] at h hstaged
    subst h
    exact follows_receiveOr hw receive_of_ite hstaged.1 hstaged.2.2 (by rw [hstage]; rfl)
      (by rw [hstage]; rintro ⟨⟩) rfl (by rintro ⟨⟩) hstaged
  | received outbound isSubmit =>
    simp only [writerAdvance, hstage, Option.some.injEq] at h
    subst h
    exact follows_screen hw hstage
  | screened outbound => exact follows_screened hw hstage h
  | admitted outbound =>
    simp only [writerAdvance, hstage, Option.some.injEq] at h
    subst h
    exact follows_push hw hstage
  | harvesting =>
    simp only [writerAdvance, hstage] at h hstaged
    split_ifs at h
    · cases h
      exact follows_setStage hw hstage rfl (by rintro ⟨⟩) (by rintro ⟨⟩) hstaged.1
    · cases h
      exact follows_setStage hw hstage rfl (by rintro ⟨⟩) (by rintro ⟨⟩) hstaged
  | picking canSubmitNow =>
    simp only [writerAdvance, hstage, Option.some.injEq] at h hstaged
    subst h
    exact follows_receiveOr hw (fun t ht => ⟨_, ht⟩) hstaged.1 hstaged.2 (by rw [hstage]; rfl)
      (by rw [hstage]; rintro ⟨⟩) rfl (by rintro ⟨⟩) hstaged
  | pickingSecond canSubmitNow =>
    simp only [writerAdvance, hstage, Option.some.injEq] at h hstaged
    subst h
    exact follows_receiveOr hw receive_of_ite hstaged.1 hstaged.2 (by rw [hstage]; rfl)
      (by rw [hstage]; rintro ⟨⟩) rfl (by rintro ⟨⟩) hstaged.1
  | assembled =>
    simp only [writerAdvance, hstage, Option.some.injEq] at h
    subst h
    exact follows_claimBatch hw hstage
  | claimed => exact follows_claimed hw hstage h
  | writing =>
    simp only [writerAdvance, hstage] at h
    cases h
  | wrote =>
    simp only [writerAdvance, hstage] at h
    split at h
    · next writtenAt hstatus =>
      cases h
      exact follows_completed hw hstage hstatus
    · cases h
  | publishing rest => exact follows_publishing hw hstage h
  | signalling writtenTx rest =>
    simp only [writerAdvance, hstage, Option.some.injEq] at h
    subst h
    exact follows_signalling hw hstage
  | answering =>
    simp only [writerAdvance, hstage, Option.some.injEq] at h
    subst h
    exact follows_answering hw hstage
  | signallingMarker =>
    simp only [writerAdvance, hstage, Option.some.injEq] at h
    subst h
    exact follows_signallingMarker hw hstage
  | failing =>
    simp only [writerAdvance, hstage, Option.some.injEq] at h
    subst h
    exact follows_failing hw hstage
  | stopped =>
    simp only [writerAdvance, hstage] at h
    cases h

theorem follows_writerNext (hw : s.Wired config) {event : WriterEvent}
    (h : s.writerNext config event = some s') : Follows config s s' := by
  have hstaged := hw.writer.stage
  rw [Writer.Staged] at hstaged
  cases event with
  | advance => exact follows_writerAdvance hw h
  | phaseChanged =>
    simp only [writerNext] at h
    split at h
    · next hstage =>
      cases h
      rw [hstage] at hstaged
      exact follows_setStage hw hstage rfl (by rintro ⟨⟩) (by rintro ⟨⟩) hstaged
    · next hstage =>
      cases h
      rw [hstage] at hstaged
      exact follows_setStage hw hstage rfl (by rintro ⟨⟩) (by rintro ⟨⟩) hstaged
    · cases h
  | written =>
    simp only [writerNext] at h
    split at h
    · next hstage =>
      cases h
      exact follows_written hw hstage
    · cases h
  | failed =>
    simp only [writerNext] at h
    split at h
    · next hstage =>
      cases h
      exact follows_setStage hw hstage rfl (by rintro ⟨⟩) (by rintro ⟨⟩) trivial
    · cases h
  | closed =>
    simp only [writerNext] at h
    split at h
    · cases h
    split at h
    · next hstage =>
      cases h
      exact follows_setStage hw hstage rfl (by rintro ⟨⟩) (by rintro ⟨⟩) trivial
    · next hstage =>
      cases h
      exact follows_setStage hw hstage rfl (by rintro ⟨⟩) (by rintro ⟨⟩) trivial
    · next hstage =>
      cases h
      exact follows_setStage hw hstage rfl (by rintro ⟨⟩) (by rintro ⟨⟩) trivial
    · cases h

end Connection

end CmppProtocol
