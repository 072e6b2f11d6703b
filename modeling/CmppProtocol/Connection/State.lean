import CmppProtocol.Connection.Attempts
import CmppProtocol.Submit.Template

/-! # The state of a connection

The fields that the tasks share, under the words of the source, and what each
task keeps between two of its steps. The log records what has happened: it is
read by no step.
-/

namespace CmppProtocol

/-- The parameters that the configuration check lets through. -/
structure ConnectionConfig where
  responseTimeout : ℕ
  retryCount : ℕ
  windowSize : ℕ
  writeBatchMaxFrames : ℕ
  writeBatchMaxBytes : ℕ
  responseTimeout_pos : 0 < responseTimeout
  retryCount_pos : 0 < retryCount
  windowSize_pos : 0 < windowSize
  writeBatchMaxFrames_pos : 0 < writeBatchMaxFrames
  writeBatchMaxBytes_pos : 0 < writeBatchMaxBytes

def MAX_SUBMIT_RETRY_SPREAD_TICKS : ℕ := 4
def CONTROL_BURST_LIMIT : ℕ := 16
def SUBMIT_RESP_BATCH_MAX : ℕ := 256
def SUBMIT_DROPPED_BATCH_SIZE : ℕ := 128

def ConnectionConfig.submitRetryBatchSize (config : ConnectionConfig) : ℕ :=
  min (max (divCeil config.windowSize MAX_SUBMIT_RETRY_SPREAD_TICKS) 1) config.windowSize

/-! ## Submit calls -/

/-- Where a call of `submit` stands. From `permitted` on it holds a window permit. -/
inductive CallStage
  | entered
  | looping
  | sending (lease : Option SequenceLease)
  | permitted (lease : Option SequenceLease)
  | encoded (lease : SequenceLease) (packet : List UInt8) (key : SubmitAttemptKey)
  | reserved (lease : SequenceLease) (packet : List UInt8) (key : SubmitAttemptKey)
  | failing (lease : Option SequenceLease) (error : Error)
  | returned (result : Except Error (List ℕ))
  | cancelled

structure SubmitCall where
  base : Option UInt32
  plan : SubmitContentPlan
  template : Submit
  /-- The reference of the UDH lease and whether the lease was marked exposed. -/
  udhReference : Option UInt8
  udhExposed : Bool
  manualSequenceLeases : List SequenceLease
  sequenceIds : List ℕ
  stage : CallStage

namespace SubmitCall

def segmentCount (call : SubmitCall) : ℕ := call.plan.ranges.length

/-- The lease that travels through `send_submit`. -/
def lease (call : SubmitCall) : Option SequenceLease :=
  match call.stage with
  | .sending lease => lease
  | .permitted lease => lease
  | .encoded lease _ _ => some lease
  | .reserved lease _ _ => some lease
  | .failing lease _ => lease
  | _ => none

def leases (call : SubmitCall) : List SequenceLease :=
  call.lease.toList ++ call.manualSequenceLeases

def holdsPermit (call : SubmitCall) : Bool :=
  match call.stage with
  | .permitted _ | .encoded _ _ _ | .reserved _ _ _ | .failing _ _ => true
  | _ => false

def ended (call : SubmitCall) : Bool :=
  match call.stage with
  | .returned _ | .cancelled => true
  | _ => false

end SubmitCall

/-! ## Background tasks -/

/-- How far the frames of the batch have come. -/
inductive BatchStatus
  | collecting
  | claimed
  | handed
  | written (writtenAt : ℕ)
  | completed (writtenAt : ℕ)
  deriving DecidableEq, Repr

inductive WriterStage
  | top
  | selecting (canSendSubmit : Bool)
  | selectingSecond (canSendSubmit : Bool)
  | received (outbound : Outbound) (isSubmit : Bool)
  | screened (outbound : Outbound)
  | admitted (outbound : Outbound)
  | harvesting
  | picking (canSubmitNow : Bool)
  | pickingSecond (canSubmitNow : Bool)
  | assembled
  | claimed
  | writing
  | wrote
  | publishing (rest : List Outbound)
  | signalling (writtenTx : Option WrittenTx) (rest : List Outbound)
  | answering
  | signallingMarker
  | failing
  | stopped
  deriving DecidableEq, Repr

structure Writer where
  stage : WriterStage
  controlBurst : ℕ
  batch : List Outbound
  batchBytes : ℕ
  pendingMarker : Option Outbound
  status : BatchStatus
  deriving DecidableEq, Repr

inductive ReaderStage
  | reading
  | answeringTerminate (sequenceId : UInt32)
  | awaitingAnswer
  | stopped
  deriving DecidableEq, Repr

/-- The responses decoded and not matched yet, and those matched and not reported yet. -/
structure Reader where
  stage : ReaderStage
  pendingResps : List SubmitResponse
  emitting : List SubmitResponse
  deriving DecidableEq, Repr

inductive HeartbeatStage
  | waiting
  | prepared (lease : SequenceLease) (key : HeartbeatAttemptKey)
  | stopped
  deriving DecidableEq, Repr

inductive TimeoutStage
  | waiting
  | ticked (now : ℕ)
  | heartbeatExpired (now : ℕ) (key : HeartbeatAttemptKey)
  | heartbeatSlot (now : ℕ) (key : HeartbeatAttemptKey)
  | heartbeatExhausted
  | heartbeatChecked (now : ℕ)
  | expired (now : ℕ) (keys : List SubmitAttemptKey)
  | retrySlot (now : ℕ) (key : SubmitAttemptKey) (keys : List SubmitAttemptKey)
  | failing
  | stopped
  deriving DecidableEq, Repr

/-- The driver of a graceful close. -/
inductive CloserStage
  | idle
  | marking
  | awaitingMarker
  | drainOver
  | cleared
  | leased (terminateSequence : ℕ)
  | awaitingTerminate (terminateSequence : ℕ)
  | handshakeOver (terminateSequence : ℕ)
  | forgetting (terminateSequence : ℕ)
  | ended
  deriving DecidableEq, Repr

/-- A cleanup after the end: drain the window, send the drained ids in batches, sweep the rest.
A cleanup that a time limit cuts off leaves the batches that it has not sent. -/
inductive CleanupStage
  | starting
  | sending (batches : List (List ℕ))
  | swept
  | aborted (batches : List (List ℕ))
  deriving DecidableEq, Repr

/-! ## The log -/

structure Admission where
  call : ℕ
  segment : ℕ
  sequenceId : ℕ
  submissionId : UInt64
  packet : List UInt8
  deriving DecidableEq, Repr

structure ConnectionLog where
  admissions : List Admission
  enqueued : List (SubmitAttemptKey × ℕ)
  claimed : List Outbound
  handed : List Outbound
  written : List (Outbound × ℕ)
  puts : List Event
  responded : List ℕ
  timedOut : List ℕ
  drained : List ℕ
  lost : List ℕ
  retireFailed : List ℕ
  /-- The drain flag was cleared, but not by the writer that answers the marker. For `finish` this
  is set with the phase already, before `finishStores` clears the flag. -/
  drainCut : Bool
  deriving DecidableEq, Repr

structure Metrics where
  submitsAdmitted : ℕ
  submitResponses : ℕ
  submitRetries : ℕ
  submitTimeouts : ℕ
  eventsDropped : ℕ
  deriving DecidableEq, Repr

structure Connection where
  clock : ℕ
  phase : ConnectionPhase
  drainSubmitsOnClose : Bool
  /-- The winning `finish` still has its stores outside the locks to make. -/
  finishing : Bool
  windowClosed : Bool
  windowPermits : ℕ
  sequenceRegistry : SequenceState
  udhCounter : UInt32
  nextSubmissionId : UInt64
  nextHeartbeatId : UInt64
  pendingSubmits : PendingSubmits
  heartbeatPending : OrderedMap ℕ PendingHeartbeat
  submitQueue : List Outbound
  controlQueue : List Outbound
  peerTerminateSeen : Bool
  peerTerminateResponseWritten : Bool
  pendingTerminate : Option SequenceLease
  terminateWritten : Bool
  signalled : List WrittenTx
  calls : List SubmitCall
  writer : Writer
  reader : Reader
  heartbeat : HeartbeatStage
  timeout : TimeoutStage
  closer : CloserStage
  cleanups : List CleanupStage
  metrics : Metrics
  log : ConnectionLog

namespace Connection

/-- After the login: the automatic cursor starts at 2. -/
def initial (config : ConnectionConfig) (clock : ℕ) (udhCounter : UInt32) : Connection where
  clock := clock
  phase := .opened
  drainSubmitsOnClose := false
  finishing := false
  windowClosed := false
  windowPermits := config.windowSize
  sequenceRegistry := .new 2
  udhCounter := udhCounter
  nextSubmissionId := 1
  nextHeartbeatId := 1
  pendingSubmits := .empty
  heartbeatPending := .empty
  submitQueue := []
  controlQueue := []
  peerTerminateSeen := false
  peerTerminateResponseWritten := false
  pendingTerminate := none
  terminateWritten := false
  signalled := []
  calls := []
  writer := ⟨.top, 0, [], 0, none, .collecting⟩
  reader := ⟨.reading, [], []⟩
  heartbeat := .waiting
  timeout := .waiting
  closer := .idle
  cleanups := []
  metrics := ⟨0, 0, 0, 0, 0⟩
  log := ⟨[], [], [], [], [], [], [], [], [], [], [], false⟩

/-- SUBMIT frames may be sent: also while a graceful close drains them. -/
def canSendSubmit (s : Connection) : Bool :=
  s.phase = .opened || (s.phase = .closing && s.drainSubmitsOnClose)

/-- `begin_closing`, under the admission lock. -/
def beginClosing (s : Connection) (drainSubmits : Bool) : Bool × Connection :=
  match s.phase with
  | .opened => (true, { s with drainSubmitsOnClose := drainSubmits, phase := .closing })
  | .closing =>
    (false,
      if drainSubmits then s
      else { s with drainSubmitsOnClose := false, log := { s.log with drainCut := true } })
  | .closed => (false, s)

/-- `finish` up to the end of its locks; the first call wins. -/
def finish (s : Connection) : Connection :=
  if s.phase = .closed then s
  else { s with phase := .closed, finishing := true, log := { s.log with drainCut := true } }

/-- Drop leases, releasing the ids that they still hold. -/
def dropLeases (registry : SequenceState) (leases : List SequenceLease) : SequenceState :=
  leases.foldl (fun registry lease => lease.drop registry) registry

end Connection

end CmppProtocol
