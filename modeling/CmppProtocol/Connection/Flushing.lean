import CmppProtocol.Connection.Wiring

/-! # Writing a batch

The frames of a batch go out in one write. When it is complete every frame is
published in its turn; when it fails none is, although the socket may have taken
the first frames. The tickets of deferred events are published with their frames.
-/

namespace CmppProtocol

/-- How the write of a batch ends, with the number of octets that the socket has taken. -/
inductive WriteOutcome
  | complete
  | error (message : String) (accepted : ℕ)
  | timeout (accepted : ℕ)
  | closed (accepted : ℕ)
  deriving DecidableEq, Repr

/-- What the writer has done when the write is over. -/
structure Flushed where
  published : List (ℕ × Event)
  completedHeartbeats : List HeartbeatAttemptKey
  peerTerminateResponseWritten : Bool
  terminateWritten : Bool
  signalled : List WrittenTx
  finish : Option Error
  deriving DecidableEq, Repr

def batchBuf (batch : List Outbound) : List UInt8 := batch.flatMap Outbound.packet

def WriteOutcome.accepted (batch : List Outbound) : WriteOutcome → ℕ
  | .complete => (batchBuf batch).length
  | .error _ accepted => accepted
  | .timeout accepted => accepted
  | .closed accepted => accepted

namespace Flushed

def nothing : Flushed := ⟨[], [], false, false, [], none⟩

/-- What follows the write for one frame. -/
def frame (flushed : Flushed) (outbound : Outbound) : Flushed where
  published := flushed.published ++ outbound.eventAfterWrite.toList
  completedHeartbeats := flushed.completedHeartbeats ++ outbound.heartbeatAttempt.toList
  peerTerminateResponseWritten :=
    flushed.peerTerminateResponseWritten || outbound.marksPeerTerminateResponse
  terminateWritten := flushed.terminateWritten || outbound.writtenFlag
  signalled := flushed.signalled ++ outbound.writtenTx.toList
  finish := flushed.finish

/-- The marker of a batch is answered when its frames are written. -/
def marker (flushed : Flushed) (pendingMarker : Option Outbound) : Flushed :=
  { flushed with
    signalled := flushed.signalled ++ (pendingMarker.bind Outbound.writtenTx).toList }

end Flushed

/-- The writer from the write of a batch to its next round or its end. -/
def flushBatch (batch : List Outbound) (pendingMarker : Option Outbound) : WriteOutcome → Flushed
  | .complete => (batch.foldl Flushed.frame .nothing).marker pendingMarker
  | .error message _ => { Flushed.nothing with finish := some (.io message) }
  | .timeout _ =>
    let batchHasBudget := batch.any fun outbound => outbound.responseBudgetStartedAt.isSome
    { Flushed.nothing with
      finish := some (if batchHasBudget then .timeout else .io "CMPP socket write 超时") }
  | .closed _ => .nothing

/-- The frame of the DELIVER_RESP that stands behind the first frames lies in the octets taken. -/
def Acknowledges (batch : List Outbound) (accepted : ℕ) (ticket : ℕ × Event) : Prop :=
  ∃ before outbound after, batch = before ++ outbound :: after ∧
    outbound.eventAfterWrite = some ticket ∧
    (batchBuf (before ++ [outbound])).length ≤ accepted

/-- Every DELIVER that was acknowledged is published. -/
def AcknowledgedPublished (batch : List Outbound) (pendingMarker : Option Outbound)
    (outcome : WriteOutcome) : Prop :=
  ∀ ticket, Acknowledges batch (outcome.accepted batch) ticket →
    ticket ∈ (flushBatch batch pendingMarker outcome).published

variable {batch : List Outbound} {pendingMarker : Option Outbound} {outcome : WriteOutcome}

theorem published_foldl (flushed : Flushed) (batch : List Outbound) :
    (batch.foldl Flushed.frame flushed).published =
      flushed.published ++ batch.filterMap Outbound.eventAfterWrite := by
  induction batch generalizing flushed with
  | nil => exact (List.append_nil _).symm
  | cons outbound batch ih =>
    rw [List.foldl_cons, ih, Flushed.frame, List.append_assoc]
    cases houtbound : outbound.eventAfterWrite with
    | none => rw [List.filterMap_cons_none houtbound]; rfl
    | some ticket => rw [List.filterMap_cons_some houtbound]; rfl

theorem flushBatch_complete :
    (flushBatch batch pendingMarker .complete).published =
      batch.filterMap Outbound.eventAfterWrite :=
  published_foldl .nothing batch

theorem flushBatch_broken (h : outcome ≠ .complete) :
    (flushBatch batch pendingMarker outcome).published = [] := by
  cases outcome with
  | complete => exact absurd rfl h
  | error message accepted => rfl
  | timeout accepted => rfl
  | closed accepted => rfl

/-- The acknowledged events are published exactly when the write is complete or breaks off
before the first DELIVER_RESP frame of the batch is out. -/
theorem acknowledged_published_iff :
    AcknowledgedPublished batch pendingMarker outcome ↔ outcome = .complete ∨
      ∀ before outbound after, batch = before ++ outbound :: after →
        outbound.eventAfterWrite.isSome →
          outcome.accepted batch < (batchBuf (before ++ [outbound])).length := by
  constructor
  · intro hall
    by_cases hcomplete : outcome = .complete
    · exact Or.inl hcomplete
    right
    rintro before outbound after hbatch hsome
    obtain ⟨ticket, hticket⟩ := Option.isSome_iff_exists.mp hsome
    by_contra hinside
    have hmem := hall ticket ⟨before, outbound, after, hbatch, hticket, not_lt.mp hinside⟩
    rw [flushBatch_broken hcomplete] at hmem
    exact absurd hmem List.not_mem_nil
  · rintro (rfl | hbefore) ticket ⟨before, outbound, after, hbatch, hticket, hinside⟩
    · rw [flushBatch_complete, hbatch]
      refine List.mem_filterMap.mpr ⟨outbound, ?_, hticket⟩
      exact List.mem_append_right _ List.mem_cons_self
    · have hlt := hbefore before outbound after hbatch (Option.isSome_iff_exists.mpr ⟨_, hticket⟩)
      exact absurd hinside (not_le.mpr hlt)

/-- The socket takes the DELIVER_RESP of a batch and fails in the SUBMIT behind it. -/
theorem acknowledged_lost :
    ¬ ∀ (batch : List Outbound) (pendingMarker : Option Outbound) (outcome : WriteOutcome),
      AcknowledgedPublished batch pendingMarker outcome := by
  intro hall
  let deliver : Deliver := ⟨.replicate 8 0, "", "", 0, 0, 0, "", 0, []⟩
  let submit : Submit :=
    { (SubmitOptions.new "SMS" "901234" "1065" "13800000000").buildSubmitTemplate with
      msgContent := [104, 105] }
  let response := Outbound.afterWrite (encodePdu (.deliverResp ⟨.replicate 8 0, 0⟩) 7) 0 0
    (.deliver deliver)
  let attempt := Outbound.submit (encodePdu (.submit submit) 2) ⟨2, 1, 1⟩
  have hmem := hall [response, attempt] none (.error "broken pipe" 22) (0, .deliver deliver)
    ⟨[], response, [attempt], rfl, rfl, by decide +kernel⟩
  exact absurd hmem List.not_mem_nil

/-! ## The steps of the writer -/

namespace Connection

variable {gbk : Gbk} {config : ConnectionConfig} {clock : ℕ} {udhCounter : UInt32}
  {s : Connection} {writtenAt : ℕ}

/-- The ticket that a step publishes. -/
def publishes (s : Connection) : ConnectionEvent → List (ℕ × Event)
  | .writer .advance =>
    match s.writer.stage with
    | .publishing (outbound :: _) => outbound.eventAfterWrite.toList
    | _ => []
  | _ => []

/-- The machine with a record of the tickets that are published. -/
def ticketMachine (gbk : Gbk) (config : ConnectionConfig) (clock : ℕ) (udhCounter : UInt32) :
    Machine (Connection × List (ℕ × Event)) ConnectionEvent :=
  (machine gbk config clock udhCounter).recorded [] fun tickets s e _ => tickets ++ s.publishes e

/-- The state behind the write agrees with what the writer has done. -/
structure FlushedTo (flushed : Flushed) (s t : Connection) : Prop where
  signalled : t.signalled = s.signalled ++ flushed.signalled
  peerTerminateResponseWritten : t.peerTerminateResponseWritten =
    (s.peerTerminateResponseWritten || flushed.peerTerminateResponseWritten)
  terminateWritten : t.terminateWritten = (s.terminateWritten || flushed.terminateWritten)

variable (gbk config clock udhCounter) in
/-- Frame by frame, the writer does what follows the write. -/
theorem publishing_path (rest : List Outbound) (tickets : List (ℕ × Event)) {flushed : Flushed}
    {origin : Connection} (hstage : s.writer.stage = .publishing rest)
    (hstatus : s.writer.status = .completed writtenAt) (horigin : FlushedTo flushed origin s) :
    ∃ t, (ticketMachine gbk config clock udhCounter).Reaches (s, tickets)
        (t, tickets ++ rest.filterMap Outbound.eventAfterWrite) ∧
      t.writer.stage = .publishing [] ∧ t.writer.pendingMarker = s.writer.pendingMarker ∧
      FlushedTo (rest.foldl Flushed.frame flushed) origin t := by
  induction rest generalizing s flushed tickets with
  | nil => exact ⟨s, by simpa using Machine.Reaches.refl _, hstage, rfl, horigin⟩
  | cons outbound rest ih =>
    obtain ⟨heartbeatPending, hpublish⟩ := s.publishFrame_eq outbound writtenAt rest
    let t := ({ s with
      heartbeatPending
      peerTerminateResponseWritten :=
        s.peerTerminateResponseWritten || outbound.marksPeerTerminateResponse
      terminateWritten := s.terminateWritten || outbound.writtenFlag } : Connection).setStage
        (.signalling outbound.writtenTx rest)
    have hfirst : (ticketMachine gbk config clock udhCounter).step (s, tickets) (.writer .advance)
        (t, tickets ++ outbound.eventAfterWrite.toList) := by
      refine ⟨?_, ?_⟩
      · change s.writerAdvance config = some t
        rw [writerAdvance, hstage]
        dsimp only
        rw [hstatus]
        exact congrArg some hpublish
      · dsimp only [publishes]
        rw [hstage]
    let u :=
      ({ t with signalled := t.signalled ++ outbound.writtenTx.toList } : Connection).setStage
      (.publishing rest)
    have hsecond : (ticketMachine gbk config clock udhCounter).step
        (t, tickets ++ outbound.eventAfterWrite.toList) (.writer .advance)
        (u, tickets ++ outbound.eventAfterWrite.toList) := by
      refine ⟨?_, ?_⟩
      · rfl
      · exact (List.append_nil _).symm
    have hflushed : FlushedTo (flushed.frame outbound) origin u := by
      constructor
      · change s.signalled ++ outbound.writtenTx.toList = _
        rw [horigin.signalled, List.append_assoc]
        rfl
      · change (s.peerTerminateResponseWritten || outbound.marksPeerTerminateResponse) = _
        rw [horigin.peerTerminateResponseWritten, Bool.or_assoc]
        rfl
      · change (s.terminateWritten || outbound.writtenFlag) = _
        rw [horigin.terminateWritten, Bool.or_assoc]
        rfl
    obtain ⟨v, hreach, hend, hmarker, hv⟩ :=
      ih (s := u) (tickets ++ outbound.eventAfterWrite.toList) rfl hstatus hflushed
    refine ⟨v, ?_, hend, hmarker, hv⟩
    have htickets : tickets ++ (outbound :: rest).filterMap Outbound.eventAfterWrite =
        tickets ++ outbound.eventAfterWrite.toList ++
          rest.filterMap Outbound.eventAfterWrite := by
      rw [List.append_assoc]
      cases houtbound : outbound.eventAfterWrite with
      | none => rw [List.filterMap_cons_none houtbound]; rfl
      | some ticket => rw [List.filterMap_cons_some houtbound]; rfl
    rw [htickets]
    exact (Machine.Reaches.step hfirst).trans ((Machine.Reaches.step hsecond).trans hreach)

theorem step_silent {t : Connection} {e : ConnectionEvent} {tickets : List (ℕ × Event)}
    (hnext : s.next gbk config e = some t) (hsilent : s.publishes e = []) :
    (ticketMachine gbk config clock udhCounter).Reaches (s, tickets) (t, tickets) := by
  refine Machine.Reaches.step (e := e) ⟨hnext, ?_⟩
  dsimp only
  rw [hsilent, List.append_nil]

variable (gbk config clock udhCounter) in
/-- After the frames the writer answers the marker, if the batch has one. -/
theorem ending_path (tickets : List (ℕ × Event)) (hstage : s.writer.stage = .publishing []) :
    ∃ t, (ticketMachine gbk config clock udhCounter).Reaches (s, tickets) (t, tickets) ∧
      t.writer.stage = .top ∧ t.signalled = s.signalled ++
        (s.writer.pendingMarker.bind Outbound.writtenTx).toList ∧
      t.peerTerminateResponseWritten = s.peerTerminateResponseWritten ∧
      t.terminateWritten = s.terminateWritten := by
  have hend : (ticketMachine gbk config clock udhCounter).Reaches (s, tickets)
      (s.afterBatch, tickets) := by
    refine step_silent (e := .writer .advance) ?_ ?_
    · change s.writerAdvance config = _
      rw [writerAdvance, hstage]
    · rw [publishes, hstage]
  cases hmarker : s.writer.pendingMarker with
  | none =>
    refine ⟨s.afterBatch, hend, ?_, (List.append_nil _).symm, rfl, rfl⟩
    simp only [afterBatch, hmarker, Option.isSome_none, Bool.false_eq_true, if_false]
  | some marker =>
    have hanswering : s.afterBatch.writer.stage = .answering := by
      simp only [afterBatch, hmarker, Option.isSome_some, if_true]
    have hanswer : (ticketMachine gbk config clock udhCounter).Reaches (s.afterBatch, tickets)
        (({ s.afterBatch with drainSubmitsOnClose := false } : Connection).setStage
          .signallingMarker, tickets) := step_silent (e := .writer .advance)
      (by change writerAdvance _ _ = _; rw [writerAdvance, hanswering])
      (by rw [publishes, hanswering])
    refine ⟨_, hend.trans (hanswer.trans (step_silent (e := .writer .advance) rfl rfl)), rfl, ?_,
      rfl, rfl⟩
    have hpending : s.afterBatch.writer.pendingMarker = some marker := hmarker
    simp only [setStage, hpending]
    rfl

/-- The writer of the machine does after a complete write what `flushBatch` says. -/
theorem flush_complete_path {tickets : List (ℕ × Event)} (hstage : s.writer.stage = .writing) :
    ∃ t, (ticketMachine gbk config clock udhCounter).Reaches (s, tickets)
        (t, tickets ++ (flushBatch s.writer.batch s.writer.pendingMarker .complete).published) ∧
      t.writer.stage = .top ∧
      FlushedTo (flushBatch s.writer.batch s.writer.pendingMarker .complete) s t := by
  let wrote : Connection := { s with
    writer := { s.writer with stage := .wrote, status := .written s.clock }
    log := { s.log with
      written := s.log.written ++ s.writer.batch.map fun outbound => (outbound, s.clock) } }
  have hwrote : (ticketMachine gbk config clock udhCounter).Reaches (s, tickets)
      (wrote, tickets) := by
    refine step_silent (e := .writer .written) ?_ rfl
    change s.writerNext config .written = _
    simp only [writerNext, hstage]
    rfl
  obtain ⟨completed, hcompleted, hpublishing, hstatus, hmarker, hflushed⟩ :
      ∃ t, (ticketMachine gbk config clock udhCounter).Reaches (wrote, tickets) (t, tickets) ∧
        t.writer.stage = .publishing s.writer.batch ∧ t.writer.status = .completed s.clock ∧
        t.writer.pendingMarker = s.writer.pendingMarker ∧ FlushedTo .nothing s t := by
    refine ⟨_, step_silent (e := .writer .advance) rfl rfl, rfl, rfl, rfl, ?_⟩
    exact ⟨(List.append_nil _).symm, (Bool.or_false _).symm, (Bool.or_false _).symm⟩
  obtain ⟨published, hpublished, hdone, hmarker', hflushed'⟩ :=
    publishing_path gbk config clock udhCounter s.writer.batch tickets hpublishing hstatus hflushed
  obtain ⟨t, ht, htop, hsignalled, hpeer, hterminate⟩ :=
    ending_path gbk config clock udhCounter
      (tickets ++ s.writer.batch.filterMap Outbound.eventAfterWrite) hdone
  refine ⟨t, ?_, htop, ?_, ?_, ?_⟩
  · rw [flushBatch_complete]
    exact hwrote.trans (hcompleted.trans (hpublished.trans ht))
  · rw [hsignalled, hflushed'.signalled, hmarker', hmarker, List.append_assoc]
    rfl
  · rw [hpeer, hflushed'.peerTerminateResponseWritten]
    rfl
  · rw [hterminate, hflushed'.terminateWritten]
    rfl

/-- After a write that breaks off the writer publishes nothing and stops. -/
theorem flush_broken_path {tickets : List (ℕ × Event)} (hstage : s.writer.stage = .writing) :
    ∃ t, (ticketMachine gbk config clock udhCounter).Reaches (s, tickets) (t, tickets) ∧
      t.writer.stage = .stopped ∧ t.phase = .closed := by
  have hfailed : (ticketMachine gbk config clock udhCounter).Reaches (s, tickets)
      (s.setStage .failing, tickets) := by
    refine step_silent (e := .writer .failed) ?_ rfl
    change s.writerNext config .failed = _
    simp only [writerNext, hstage]
  have hclosed : (s.setStage .failing).finish.phase = .closed := by
    unfold finish
    split_ifs with hphase
    · exact hphase
    · rfl
  exact ⟨_, hfailed.trans (step_silent (e := .writer .advance) rfl rfl), rfl, hclosed⟩

end Connection

end CmppProtocol
