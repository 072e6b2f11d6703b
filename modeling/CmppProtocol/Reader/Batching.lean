import CmppProtocol.Connection.Entries
import CmppProtocol.Reader.Task

/-! # The batching reader

A response that is handled on arrival answers the entry of its id at most once.
Matching touches the window only and reporting everything else, so that a batch
of responses leaves what the responses leave one after the other. The reader
with the buffer is then the reader that handles each frame on arrival.
-/

namespace CmppProtocol

namespace ReaderShared

variable {eventSpoolCapacity capacity : ℕ}

/-! ## One response on arrival -/

section Arrival

variable (s : ReaderShared eventSpoolCapacity capacity) (response : SubmitResponse)

/-- An answer is counted, and its event goes to the spool. After an overflow of the backlog the
event is counted as dropped. -/
def answered : ReaderShared eventSpoolCapacity capacity :=
  match s.spool.eventOverflowed with
  | true =>
    { s with submitResponses := s.submitResponses + 1, spool := s.spool.countDropped 1 }
  | false =>
    { s with submitResponses := s.submitResponses + 1 }.setSpool
      (s.spool.emitEvent (.submitResp response.sequenceId response.msgId
        response.result)).completeSend

/-- A response on its arrival: the entry of its id is answered once. While an attempt is on the wire
the entry stays until the write is over. -/
def onSubmitResp : ReaderShared eventSpoolCapacity capacity :=
  match s.pendingSubmits.find response.sequenceId with
  | none => s
  | some entry =>
    match entry.state with
    | .respondedWhileWriting _ => s
    | .writing attempt =>
      let entry := { entry with state := .respondedWhileWriting attempt }
      { s with pendingSubmits := s.pendingSubmits.set response.sequenceId entry }.answered response
    | .queued _ | .awaitingResponse _ _ =>
      { s with pendingSubmits := s.pendingSubmits.erase response.sequenceId }.answered response

end Arrival

/-! ## A batch of responses -/

variable {s : ReaderShared eventSpoolCapacity capacity}

theorem setSpool_setPending (pendingSubmits : PendingSubmits)
    (spool : EventSpool eventSpoolCapacity capacity) :
    { s with pendingSubmits }.setSpool spool = { s.setSpool spool with pendingSubmits } := by
  unfold setSpool
  dsimp only
  split_ifs
  · unfold beginClosing
    dsimp only
    cases s.phase <;> rfl
  · rfl

/-- Reporting does not look at the window. -/
theorem report_setPending (pendingSubmits : PendingSubmits) (response : SubmitResponse) :
    { s with pendingSubmits }.reportSubmitResp response =
      { s.reportSubmitResp response with pendingSubmits } := by
  unfold reportSubmitResp
  dsimp only
  split_ifs
  · rfl
  · exact setSpool_setPending (s := { s with submitResponses := s.submitResponses + 1 }) _ _

theorem reports_setPending (pendingSubmits : PendingSubmits) (responses : List SubmitResponse) :
    responses.foldl reportSubmitResp { s with pendingSubmits } =
      { responses.foldl reportSubmitResp s with pendingSubmits } := by
  induction responses generalizing s with
  | nil => rfl
  | cons response responses ih => rw [List.foldl_cons, report_setPending, ih, List.foldl_cons]

/-- The responses are matched one after the other, and those that match are reported. -/
theorem flush_of_sweep {responses matched : List SubmitResponse} {pendingSubmits : PendingSubmits}
    (h : Compaction.sweep matchSubmitResp s.pendingSubmits responses = (pendingSubmits, matched)) :
    s.flushSubmitResps responses = { matched.foldl reportSubmitResp s with pendingSubmits } := by
  unfold flushSubmitResps
  split_ifs with hempty
  · rw [hempty] at h
    cases h
    rfl
  · rw [matchSubmitResps_eq, h]
    exact reports_setPending _ _

theorem flush_nil : s.flushSubmitResps [] = s := if_pos rfl

theorem report_eq_answered (response : SubmitResponse) :
    s.reportSubmitResp response = s.answered response := by
  unfold reportSubmitResp answered
  dsimp only
  cases hoverflowed : s.spool.eventOverflowed with
  | true => rfl
  | false => rfl

/-- The response matches: it is answered with the window that is left. -/
theorem flush_answered {response : SubmitResponse} {pendingSubmits : PendingSubmits}
    (h : matchSubmitResp s.pendingSubmits response = (true, pendingSubmits)) :
    s.flushSubmitResps [response] = { s with pendingSubmits }.answered response := by
  have hsweep : Compaction.sweep matchSubmitResp s.pendingSubmits [response] =
      (pendingSubmits, [response]) := Compaction.sweep_keep h
  rw [flush_of_sweep hsweep, ← report_eq_answered]
  exact (report_setPending pendingSubmits response).symm

theorem flush_ignored {response : SubmitResponse}
    (h : matchSubmitResp s.pendingSubmits response = (false, s.pendingSubmits)) :
    s.flushSubmitResps [response] = s := by
  have hsweep : Compaction.sweep matchSubmitResp s.pendingSubmits [response] =
      (s.pendingSubmits, []) := Compaction.sweep_skip h
  rw [flush_of_sweep hsweep]
  rfl

/-- A flush of one response is its handling on arrival. -/
theorem flush_singleton (response : SubmitResponse) :
    s.flushSubmitResps [response] = s.onSubmitResp response := by
  unfold onSubmitResp
  cases hfind : s.pendingSubmits.find response.sequenceId with
  | none =>
    apply flush_ignored
    simp only [matchSubmitResp, hfind]
  | some entry =>
    dsimp only
    cases hstate : entry.state with
    | queued attempt =>
      apply flush_answered
      simp only [matchSubmitResp, hfind, hstate]
    | writing attempt =>
      apply flush_answered
      simp only [matchSubmitResp, hfind, hstate]
      rfl
    | awaitingResponse attempt writtenAt =>
      apply flush_answered
      simp only [matchSubmitResp, hfind, hstate]
    | respondedWhileWriting attempt =>
      apply flush_ignored
      simp only [matchSubmitResp, hfind, hstate]

theorem flush_append (responses responses' : List SubmitResponse) :
    s.flushSubmitResps (responses ++ responses') =
      (s.flushSubmitResps responses).flushSubmitResps responses' := by
  cases hfirst : Compaction.sweep matchSubmitResp s.pendingSubmits responses with
  | mk pending matched =>
    cases hsecond : Compaction.sweep matchSubmitResp pending responses' with
    | mk pending' matched' =>
      have hboth : Compaction.sweep matchSubmitResp s.pendingSubmits (responses ++ responses') =
          (pending', matched ++ matched') := by
        rw [Compaction.sweep_append, hfirst, hsecond]
      have hreports := flush_of_sweep (s := { matched.foldl reportSubmitResp s with
        pendingSubmits := pending }) hsecond
      have hset := reports_setPending (s := matched.foldl reportSubmitResp s) pending matched'
      rw [flush_of_sweep hboth, flush_of_sweep hfirst]
      refine Eq.trans ?_ hreports.symm
      rw [List.foldl_append]
      exact congrArg (fun t : ReaderShared eventSpoolCapacity capacity =>
        { t with pendingSubmits := pending' }) hset.symm

end ReaderShared

namespace ReaderTask

variable {eventSpoolCapacity capacity : ℕ}

/-! ## The frame-by-frame reader -/

section Alone

variable (t : ReaderTask eventSpoolCapacity capacity)

def onFrameAlone (frame : Frame) (o : FrameOutcome) : ReaderTask eventSpoolCapacity capacity :=
  match frame.submitResp? with
  | some response => { t with shared := t.shared.onSubmitResp response }
  | none => t.settle (t.shared.onFrame frame o)

def stepAlone (input : Frame × FrameOutcome) : ReaderTask eventSpoolCapacity capacity :=
  if t.exit.isSome then t else t.onFrameAlone input.1 input.2

def endingExit : ReaderEnding → ReaderExit
  | .closed => .returned
  | .decodeError error => .finished error
  | .closedWhileReading => .returned
  | .readError message => .finished (.io message)
  | .idle => .finished .timeout
  | .eof (.ok ()) => if t.localTerminateAcked then .returned else .finished .closed
  | .eof (.error error) => .finished error

def finishAlone (ending : ReaderEnding) : ReaderTask eventSpoolCapacity capacity :=
  if t.exit.isSome then t else t.exitWith (t.endingExit ending)

def runAlone (shared : ReaderShared eventSpoolCapacity capacity)
    (frames : List (Frame × FrameOutcome)) (ending : ReaderEnding) :
    ReaderTask eventSpoolCapacity capacity :=
  (frames.foldl stepAlone (start shared)).finishAlone ending

end Alone

/-! ## Refinement -/

variable {t a : ReaderTask eventSpoolCapacity capacity}

/-- The buffer is the only difference: what it holds was handled already by the other reader. -/
structure Buffers (t a : ReaderTask eventSpoolCapacity capacity) : Prop where
  shared : a.shared = t.flush.shared
  acked : a.localTerminateAcked = t.localTerminateAcked
  exit : a.exit = t.exit
  flushed : t.exit.isSome = true → t.pendingResps = []
  suspended : ∀ pendingResps ∈ t.suspended, pendingResps = []

theorem Buffers.flush (h : Buffers t a) : Buffers t.flush a := by
  refine ⟨h.shared.trans ?_, h.acked, h.exit, fun _ => rfl, h.suspended⟩
  exact ReaderShared.flush_nil.symm

theorem Buffers.suspend (h : Buffers t a) (hempty : t.pendingResps = []) (awaits : ℕ) :
    Buffers (t.suspend awaits) a := by
  refine ⟨h.shared, h.acked, h.exit, h.flushed, fun pendingResps hmem => ?_⟩
  rcases List.mem_append.mp hmem with hmem | hmem
  · exact h.suspended _ hmem
  · exact (List.eq_of_mem_replicate hmem).trans hempty

theorem Buffers.settle (h : Buffers t a) (hempty : t.pendingResps = [])
    (result : FrameResult eventSpoolCapacity capacity) :
    Buffers (t.settle result) (a.settle result) := by
  have hsuspended := h.suspend hempty result.awaits
  refine ⟨?_, ?_, rfl, fun _ => hempty, hsuspended.suspended⟩
  · change result.shared = result.shared.flushSubmitResps t.pendingResps
    rw [hempty, ReaderShared.flush_nil]
  · exact congrArg (· || result.acked) h.acked

theorem Buffers.push (h : Buffers t a) (hrunning : ¬ t.exit.isSome = true)
    (response : SubmitResponse) :
    Buffers { t with pendingResps := t.pendingResps ++ [response] }
      { a with shared := a.shared.onSubmitResp response } := by
  refine ⟨?_, h.acked, h.exit, fun hexit => absurd hexit hrunning, h.suspended⟩
  change a.shared.onSubmitResp response =
    t.shared.flushSubmitResps (t.pendingResps ++ [response])
  rw [ReaderShared.flush_append, ReaderShared.flush_singleton, h.shared]
  rfl

theorem Buffers.onFrame (h : Buffers t a) (hrunning : ¬ t.exit.isSome = true) (frame : Frame)
    (o : FrameOutcome) : Buffers (t.onFrame frame o) (a.onFrameAlone frame o) := by
  unfold ReaderTask.onFrame onFrameAlone
  cases frame.submitResp? with
  | none =>
    have hshared : t.flush.shared = a.shared := h.shared.symm
    dsimp only
    rw [hshared]
    exact h.flush.settle rfl _
  | some response =>
    dsimp only
    split_ifs
    · exact (h.push hrunning response).flush
    · exact h.push hrunning response

/-- One input: a frame is a step of both readers, a read is one of the batching reader alone. -/
theorem Buffers.step (h : Buffers t a) (input : ReaderInput) :
    Buffers (t.step input) (input.frame?.toList.foldl stepAlone a) := by
  cases input with
  | exhausted =>
    unfold ReaderTask.step
    dsimp only
    split_ifs
    · exact h
    · exact h.flush.suspend rfl 1
  | frame frame o =>
    change Buffers (t.step (.frame frame o)) (a.stepAlone (frame, o))
    unfold ReaderTask.step stepAlone
    rw [h.exit]
    dsimp only
    split_ifs with hexit
    · exact h
    · exact h.onFrame hexit frame o

theorem Buffers.steps (h : Buffers t a) (inputs : List ReaderInput) :
    Buffers (inputs.foldl ReaderTask.step t)
      ((inputs.filterMap ReaderInput.frame?).foldl stepAlone a) := by
  induction inputs generalizing t a with
  | nil => exact h
  | cons input inputs ih =>
    have hstep := ih (h.step input)
    cases input with
    | exhausted => exact hstep
    | frame frame o => exact hstep

/-- Every exit has flushed. -/
theorem Buffers.finishLoop (h : Buffers t a) (ending : ReaderEnding) :
    Buffers (t.finishLoop ending) (a.finishAlone ending) ∧
      (t.finishLoop ending).pendingResps = [] := by
  have hexit {t a : ReaderTask eventSpoolCapacity capacity} (h : Buffers t a)
      (hempty : t.pendingResps = []) (exit : ReaderExit) :
      Buffers (t.exitWith exit) (a.exitWith exit) ∧ (t.exitWith exit).pendingResps = [] :=
    ⟨⟨h.shared, h.acked, rfl, fun _ => hempty, h.suspended⟩, hempty⟩
  unfold ReaderTask.finishLoop finishAlone
  rw [h.exit]
  split_ifs with hended
  · exact ⟨h, h.flushed hended⟩
  · cases ending with
    | closed => exact hexit h.flush rfl _
    | decodeError error => exact hexit h.flush rfl _
    | closedWhileReading => exact hexit (h.flush.suspend rfl 1) rfl _
    | readError message => exact hexit (h.flush.suspend rfl 1) rfl _
    | idle => exact hexit (h.flush.suspend rfl 1) rfl _
    | eof decoded =>
      have hflushed := (h.flush.suspend rfl 1).flush
      cases decoded with
      | ok _ =>
        have hsame := hexit hflushed rfl (a.endingExit (.eof (.ok ())))
        unfold endingExit at hsame
        rw [h.acked] at hsame
        unfold endingExit
        rw [h.acked]
        exact hsame
      | error error => exact hexit hflushed rfl _

/-- For every cut of the frames into reads the batching reader leaves what the frame-by-frame reader
leaves: the window, the counters, the admission with all that went into the spool in order, the
frames put into the control queue, and the exit. Its buffer is empty at every suspension and every
exit. -/
theorem batching_refines (shared : ReaderShared eventSpoolCapacity capacity)
    (inputs : List ReaderInput) (ending : ReaderEnding) :
    (run shared inputs ending).shared =
      (runAlone shared (inputs.filterMap ReaderInput.frame?) ending).shared ∧
    (run shared inputs ending).exit =
      (runAlone shared (inputs.filterMap ReaderInput.frame?) ending).exit ∧
    (run shared inputs ending).pendingResps = [] ∧
    ∀ pendingResps ∈ (run shared inputs ending).suspended, pendingResps = [] := by
  have hstart : Buffers (start shared) (start shared) :=
    ⟨ReaderShared.flush_nil.symm, rfl, rfl, fun _ => rfl, List.forall_mem_nil _⟩
  obtain ⟨h, hempty⟩ := (hstart.steps inputs).finishLoop ending
  have hempty : (run shared inputs ending).pendingResps = [] := hempty
  refine ⟨?_, h.exit.symm, hempty, h.suspended⟩
  have hshared : (runAlone shared (inputs.filterMap ReaderInput.frame?) ending).shared =
      (run shared inputs ending).shared.flushSubmitResps (run shared inputs ending).pendingResps :=
    h.shared
  rw [hshared, hempty, ReaderShared.flush_nil]

end ReaderTask

end CmppProtocol
