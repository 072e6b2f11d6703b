import CmppProtocol.Connection.Entries
import CmppProtocol.Connection.State

/-! # The way of a SUBMIT through the connection

An abstract machine for what happens to accepted SUBMITs. The frames that are
not claimed yet stand in one line: those the writer has taken up already, then
those of the queue. A claimed frame is held until its batch is completed. The
calls, the control frames and the stages of the writer are left out.
-/

namespace CmppProtocol

def Outbound.isSubmit (outbound : Outbound) : Bool := outbound.submitAttempt.isSome

/-- Frames that stand in the line: SUBMITs and the marker that ends a drain. -/
def Outbound.standsInLine (outbound : Outbound) : Bool :=
  outbound.submitAttempt.isSome || outbound.submitDrainMarker

/-- The batches of drained ids that were not sent. -/
def CleanupStage.batches : CleanupStage → List (List ℕ)
  | .sending batches => batches
  | .aborted batches => batches
  | _ => []

@[ext]
structure Window where
  clock : ℕ
  phase : ConnectionPhase
  draining : Bool
  pending : PendingSubmits
  line : List Outbound
  held : List Outbound
  status : BatchStatus
  drained : Bool
  emitting : List SubmitResponse
  now : ℕ
  expired : List SubmitAttemptKey
  closer : CloserStage
  cleanups : List CleanupStage
  log : ConnectionLog
  metrics : Metrics

namespace Window

def canSendSubmit (w : Window) : Bool :=
  w.phase = .opened || (w.phase = .closing && w.draining)

/-- The steps of the machine. -/
inductive Step (config : ConnectionConfig) (w : Window) : Window → Prop
  | clock (duration : ℕ) : Step config w { w with clock := w.clock + duration }
  | finish : Step config w { w with
      phase := .closed
      log := { w.log with drainCut := w.log.drainCut || w.phase ≠ .closed } }
  | finishStores :
    w.phase = .closed →
    Step config w { w with draining := false, cleanups := w.cleanups ++ [.starting] }
  | beginClosing (draining : Bool) (closer : CloserStage) :
    w.phase = .opened → closer = w.closer ∨ w.closer = .idle ∧ closer = .marking ∧ draining = true →
    Step config w { w with phase := .closing, draining, closer }
  | cutDrain (closer : CloserStage) :
    closer = w.closer ∨ closer = .cleared →
    Step config w { w with
      draining := false, closer, log := { w.log with drainCut := true } }
  | closer (closer : CloserStage) :
    closer ≠ .idle → closer ≠ .marking → closer ≠ .awaitingMarker →
    Step config w { w with closer }
  | closeLast (closer : CloserStage) :
    closer ≠ .idle → closer ≠ .marking → closer ≠ .awaitingMarker →
    Step config w { w with
      phase := .closed
      closer
      log := { w.log with drainCut := w.log.drainCut || w.phase ≠ .closed } }
  | marker :
    w.closer = .marking →
    Step config w { w with line := w.line ++ [.drainMarker], closer := .awaitingMarker }
  | admitSubmit (admission : Admission) (entry : PendingSubmit) :
    w.phase = .opened → (∀ a ∈ w.log.admissions, a.sequenceId ≠ admission.sequenceId) →
    w.pending.find admission.sequenceId = none →
    entry.submissionId = admission.submissionId → entry.packet = admission.packet →
    entry.state = .queued 1 →
    Step config w { w with
      pending := w.pending.insert admission.sequenceId entry
      line := w.line ++
        [.submit admission.packet ⟨admission.sequenceId, admission.submissionId, 1⟩]
      metrics := { w.metrics with submitsAdmitted := w.metrics.submitsAdmitted + 1 }
      log := { w.log with
        admissions := w.log.admissions ++ [admission]
        enqueued := w.log.enqueued ++
          [(⟨admission.sequenceId, admission.submissionId, 1⟩, w.clock)] } }
  | claim (batch rest : List Outbound) :
    w.line = batch.filter Outbound.isSubmit ++ rest → w.status = .collecting → w.held = [] →
    Step config w { w with
      pending := (claimSubmitAttempts w.canSendSubmit w.pending batch).1
      line := rest
      held := (claimSubmitAttempts w.canSendSubmit w.pending batch).2.filter Outbound.isSubmit
      status := .claimed
      log := { w.log with claimed := w.log.claimed ++
        (claimSubmitAttempts w.canSendSubmit w.pending batch).2.filter Outbound.isSubmit } }
  | rest :
    w.held = [] → Step config w { w with status := .collecting }
  | hand (batch : List Outbound) :
    w.held = batch.filter Outbound.isSubmit → w.status = .claimed →
    Step config w { w with
      status := .handed, log := { w.log with handed := w.log.handed ++ batch } }
  | write (batch : List Outbound) :
    w.held = batch.filter Outbound.isSubmit → w.status = .handed →
    Step config w { w with
      status := .written w.clock
      log := { w.log with
        written := w.log.written ++ batch.map fun outbound => (outbound, w.clock) } }
  | complete (batch : List Outbound) (writtenAt : ℕ) :
    w.held = batch.filter Outbound.isSubmit → w.status = .written writtenAt →
    Step config w { w with
      pending := completeSubmitAttempts writtenAt w.pending (batch.filterMap Outbound.submitAttempt)
      held := []
      status := .completed writtenAt }
  | endDrain (rest : List Outbound) :
    w.line = .drainMarker :: rest → w.held = [] →
    Step config w { w with draining := false, drained := true }
  | answer (rest : List Outbound) :
    w.line = .drainMarker :: rest → w.drained = true →
    Step config w { w with line := rest }
  | matchResps (responses : List SubmitResponse) :
    w.emitting = [] →
    Step config w { w with
      pending := (matchSubmitResps w.pending responses).1
      emitting := (matchSubmitResps w.pending responses).2 }
  | emitResp (response : SubmitResponse) (emitting : List SubmitResponse) (sent : Bool) :
    w.emitting = response :: emitting →
    Step config w { w with
      emitting
      metrics := { w.metrics with
        submitResponses := w.metrics.submitResponses + 1
        eventsDropped := w.metrics.eventsDropped + if sent then 0 else 1 }
      log := { w.log with
        responded := w.log.responded ++ [response.sequenceId]
        puts := if sent then
            w.log.puts ++ [.submitResp response.sequenceId response.msgId response.result]
          else w.log.puts
        lost := if sent then w.log.lost else w.log.lost ++ [response.sequenceId] } }
  | attend (now : ℕ) (expired : List SubmitAttemptKey) :
    now ≤ w.clock → (expired = [] ∨ now = w.now ∧ expired ⊆ w.expired) →
    Step config w { w with now, expired }
  | scan :
    Step config w { w with
      expired := expiredSubmits w.pending w.now config.responseTimeout config.submitRetryBatchSize }
  | giveUpLost (key : SubmitAttemptKey) (keys : List SubmitAttemptKey) :
    w.expired = key :: keys →
    Step config w { w with
      expired := keys
      metrics := { w.metrics with eventsDropped := w.metrics.eventsDropped + 1 } }
  | giveUp (key : SubmitAttemptKey) (keys : List SubmitAttemptKey) (entry : PendingSubmit) :
    w.expired = key :: keys → config.retryCount ≤ key.attempt →
    stillAwaiting w.pending key = some entry →
    Step config w { w with
      pending := w.pending.erase key.sequenceId
      expired := keys
      metrics := { w.metrics with submitTimeouts := w.metrics.submitTimeouts + 1 }
      log := { w.log with
        timedOut := w.log.timedOut ++ [key.sequenceId]
        puts := w.log.puts ++ [.submitTimeout key.sequenceId key.attempt] } }
  | retry (key : SubmitAttemptKey) (keys : List SubmitAttemptKey) (entry : PendingSubmit) :
    w.phase = .opened → w.expired = key :: keys → key.attempt < config.retryCount →
    stillAwaiting w.pending key = some entry →
    Step config w { w with
      pending := setState w.pending key.sequenceId entry (.queued (key.attempt + 1))
      line := w.line ++ [.submit entry.packet { key with attempt := key.attempt + 1 }]
      expired := keys
      metrics := { w.metrics with submitRetries := w.metrics.submitRetries + 1 }
      log := { w.log with enqueued := w.log.enqueued ++
        [({ key with attempt := key.attempt + 1 }, w.clock)] } }
  | startCleanup :
    w.phase = .closed → Step config w { w with cleanups := w.cleanups ++ [.starting] }
  | drain (index : ℕ) (order : List ℕ) :
    w.cleanups[index]? = some .starting → order.Perm (unresponded w.pending) →
    Step config w { w with
      pending := .empty
      cleanups := w.cleanups.set index
        (.sending (Greedy.chunks SUBMIT_DROPPED_BATCH_SIZE order))
      log := { w.log with drained := w.log.drained ++ order } }
  | sendDropped (index : ℕ) (batch : List ℕ) (batches : List (List ℕ)) (sent : Bool) :
    w.cleanups[index]? = some (.sending (batch :: batches)) →
    Step config w { w with
      cleanups := w.cleanups.set index (.sending batches)
      metrics := { w.metrics with
        eventsDropped := w.metrics.eventsDropped + if sent then 0 else batch.length }
      log := { w.log with
        puts := if sent then w.log.puts ++ batch.map .submitDropped else w.log.puts
        lost := if sent then w.log.lost else w.log.lost ++ batch } }
  | endCleanup (index : ℕ) (stage stage' : CleanupStage) :
    w.cleanups[index]? = some stage → stage ≠ .starting → stage' ≠ .starting →
    stage'.batches = stage.batches →
    Step config w { w with cleanups := w.cleanups.set index stage' }

end Window

end CmppProtocol
