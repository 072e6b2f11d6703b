import CmppProtocol.Teardown.Machine

/-! # The graceful close

Behind the answer to its TERMINATE the driver of a close waits for the tickets
before it calls `finish`, while the reader and the writer still watch the
socket. The end of the file is expected then. Every other failure of theirs
calls `finish` with a reason, and such a call can win.
-/

namespace CmppProtocol

/-- The driver waits for the queued submissions, for the answer and for the tickets. -/
inductive GracefulStage
  | idle
  | submitting
  | handshaking
  | draining
  | finishing
  | ended
  deriving DecidableEq, Repr

/-- Why the reader leaves its loop through `finish`; `frame` is what a frame came to. -/
inductive ReaderFailure
  | eof
  | truncated
  | readError (message : String)
  | readIdle
  | frame (reason : Error)
  deriving DecidableEq, Repr

def ReaderFailure.reason : ReaderFailure → Error
  | .eof => .closed
  | .truncated => .io "bytes remaining on stream"
  | .readError message => .io message
  | .readIdle => .timeout
  | .frame reason => reason

inductive WriterFailure
  | writeError (message : String)
  | writeTimeout
  | responseBudget
  | queueClosed
  deriving DecidableEq, Repr

def WriterFailure.reason : WriterFailure → Error
  | .writeError message => .io message
  | .writeTimeout => .io "CMPP socket write 超时"
  | .responseBudget => .timeout
  | .queueClosed => .channelClosed

/-- `pendingTerminate` is the TERMINATE of the driver while its answer may come. -/
structure Graceful (eventSpoolCapacity capacity : ℕ) where
  teardown : Teardown eventSpoolCapacity capacity
  closer : GracefulStage
  pendingTerminate : Bool
  readerRunning : Bool
  localTerminateAcked : Bool
  writerRunning : Bool

inductive GracefulEvent
  | close
  | sequenceExhausted
  | terminate
  | handshakeOver
  | ticketsDrained
  | finish
  | dropTerminate
  | terminateResp
  | readerReturns
  | readerFails (failure : ReaderFailure)
  | writerClosed
  | writerFails (failure : WriterFailure)
  | teardown (event : TeardownStep)

def Event.isDisconnected : Event → Bool
  | .disconnected _ => true
  | _ => false

/-- The dispatcher alone says that the connection is gone. -/
def TeardownStep.isOrdinary : TeardownStep → Bool
  | .spool (.emitEvent event) | .spool (.publish _ event) => !event.isDisconnected
  | _ => true

namespace Graceful

variable {eventSpoolCapacity capacity : ℕ}

def initial (eventSpoolCapacity capacity : ℕ) : Graceful eventSpoolCapacity capacity where
  teardown := .initial _ _
  closer := .idle
  pendingTerminate := false
  readerRunning := true
  localTerminateAcked := false
  writerRunning := true

variable (s : Graceful eventSpoolCapacity capacity)

def callFinish (reason : Option Error) : Graceful eventSpoolCapacity capacity :=
  { s with teardown := { s.teardown with finishes := s.teardown.finishes ++ [.called reason] } }

/-- The end of the file is no failure behind the answer to TERMINATE. -/
def readerFails (failure : ReaderFailure) : Graceful eventSpoolCapacity capacity :=
  if failure = .eof ∧ s.localTerminateAcked then { s with readerRunning := false }
  else { s.callFinish (some failure.reason) with readerRunning := false }

/-- The steps of `close` and `graceful_close_task`, of the reader, of the writer, and of all
others. -/
def next : GracefulEvent → Option (Graceful eventSpoolCapacity capacity)
  | .close =>
    if s.closer = .idle ∧ s.teardown.submitAdmission = none ∧ s.teardown.phase = .opened then
      some { s with teardown := s.teardown.beginClosing true, closer := .submitting }
    else none
  | .sequenceExhausted =>
    if s.closer = .submitting then
      some { s.callFinish (some .channelClosed) with closer := .ended }
    else none
  | .terminate =>
    if s.closer = .submitting then
      some { s with
        teardown := { s.teardown with drainSubmitsOnClose := false }
        pendingTerminate := true
        closer := .handshaking }
    else none
  | .handshakeOver =>
    if s.closer = .handshaking then some { s with closer := .draining } else none
  | .ticketsDrained =>
    if s.closer = .draining then some { s with closer := .finishing } else none
  | .finish =>
    if s.closer = .finishing then
      some { s.callFinish (if s.teardown.peerTerminateSeen then some .terminated else none) with
        closer := .ended }
    else none
  | .dropTerminate =>
    -- The driver after its `finish`, or a cleanup.
    if s.closer = .ended ∨ s.teardown.spool.cleanups ≠ [] then
      some { s with pendingTerminate := false }
    else none
  | .terminateResp =>
    if s.readerRunning ∧ s.pendingTerminate then
      some { s with pendingTerminate := false, localTerminateAcked := true }
    else none
  | .readerReturns =>
    -- The connection is closed, or there is no ticket for a DELIVER.
    if s.readerRunning ∧ (s.teardown.phaseTx = .closed ∨ s.teardown.spool.admission ≠ .opened ∧
        s.teardown.spool.admission ≠ .draining) then
      some { s with readerRunning := false }
    else none
  | .readerFails failure => if s.readerRunning then some (s.readerFails failure) else none
  | .writerClosed =>
    if s.writerRunning ∧ s.teardown.phase = .closed then some { s with writerRunning := false }
    else none
  | .writerFails failure =>
    if s.writerRunning then
      some { s.callFinish (some failure.reason) with writerRunning := false }
    else none
  | .teardown event =>
    if event.isOrdinary then (s.teardown.next event).map fun teardown => { s with teardown }
    else none

def machine (eventSpoolCapacity capacity : ℕ) :
    Machine (Graceful eventSpoolCapacity capacity) GracefulEvent :=
  .ofNext (initial eventSpoolCapacity capacity) next

end Graceful

end CmppProtocol
