import CmppProtocol.Connection.Attempts
import CmppProtocol.Connection.State
import CmppProtocol.Events.Spool

/-! # The reader

The reader takes the frames one after the other. Responses to SUBMIT wait in a
buffer; they are matched and reported together, before every other frame, when
the buffer is full, before every read and at every exit. No other task comes in
between here; what the reader learns from others is part of the input.
-/

namespace CmppProtocol

inductive EventReservationError
  | closed
  | overflowed
  deriving DecidableEq, Repr

namespace EventSpool

variable {eventSpoolCapacity capacity : ℕ} (s : EventSpool eventSpoolCapacity capacity)

/-- The rest of a section of the admission lock. -/
def completeSend : EventSpool eventSpoolCapacity capacity :=
  match s.holder with
  | some holder => (s.raiseHolder holder).sendHolder { holder with raised := true }
  | none => s

/-- The admission has switched over, so that the overload close starts. -/
def overflowedBy (s' : EventSpool eventSpoolCapacity capacity) : Bool :=
  (s.admission = .opened || s.admission = .draining) && s'.admission = .overflowed

end EventSpool

/-- What the reader shares with the other tasks. The frames that it has put into the control queue
are a log. -/
structure ReaderShared (eventSpoolCapacity capacity : ℕ) where
  pendingSubmits : PendingSubmits
  spool : EventSpool eventSpoolCapacity capacity
  phase : ConnectionPhase
  drainSubmitsOnClose : Bool
  peerTerminateSeen : Bool
  heartbeatPending : OrderedMap ℕ PendingHeartbeat
  pendingTerminate : Option ℕ
  terminateAnswered : Bool
  submitResponses : ℕ
  deliversReceived : ℕ
  unexpectedPdus : ℕ
  control : List Outbound

inductive SendOutcome
  | sent
  | closed
  | timedOut
  deriving DecidableEq, Repr

/-- What the reader meets while it handles a frame. -/
structure FrameOutcome where
  budgetStartedAt : ℕ
  budgetLeft : Bool
  send : SendOutcome
  phaseClosed : Bool
  responseWritten : Bool
  localTerminateWritten : Bool

/-- `finished` is an exit through `finish`. -/
inductive ReaderExit
  | returned
  | finished (reason : Error)
  deriving DecidableEq, Repr

/-- What handling a frame comes to. The task is suspended at each of the awaits. -/
structure FrameResult (eventSpoolCapacity capacity : ℕ) where
  shared : ReaderShared eventSpoolCapacity capacity
  awaits : ℕ
  acked : Bool
  exit : Option ReaderExit

namespace ReaderShared

variable {eventSpoolCapacity capacity : ℕ} (s : ReaderShared eventSpoolCapacity capacity)

def beginClosing (drainSubmits : Bool) : ReaderShared eventSpoolCapacity capacity :=
  match s.phase with
  | .opened => { s with drainSubmitsOnClose := drainSubmits, phase := .closing }
  | .closing => if drainSubmits then s else { s with drainSubmitsOnClose := false }
  | .closed => s

def setSpool (spool : EventSpool eventSpoolCapacity capacity) :
    ReaderShared eventSpoolCapacity capacity :=
  if s.spool.overflowedBy spool then { s with spool }.beginClosing false else { s with spool }

def emitEvent (event : Event) : ReaderShared eventSpoolCapacity capacity :=
  s.setSpool (s.spool.emitEvent event).completeSend

def reserveDeferredEvent :
    ReaderShared eventSpoolCapacity capacity × Except EventReservationError ℕ :=
  match s.spool.admission with
  | .terminal | .sealed => (s, .error .closed)
  | .overflowed => (s, .error .overflowed)
  | .opened | .draining =>
    (s.setSpool s.spool.reserveDeferredEvent.completeSend,
      match s.spool.stream.spool.trySend 0 (.deferred s.spool.nextTicket) with
      | .ok _ => .ok s.spool.nextTicket
      | .error _ => .error .overflowed)

/-- A frame that is not sent is dropped, and its ticket with it. -/
def dropTicket (ticket : ℕ) : ReaderShared eventSpoolCapacity capacity :=
  { s with spool := (s.spool.settleTicket ticket .abandoned).getD s.spool }

/-- Report one response that was matched. -/
def reportSubmitResp (response : SubmitResponse) : ReaderShared eventSpoolCapacity capacity :=
  let s := { s with submitResponses := s.submitResponses + 1 }
  if s.spool.eventOverflowed then { s with spool := s.spool.countDropped 1 }
  else s.emitEvent (.submitResp response.sequenceId response.msgId response.result)

def flushSubmitResps (pendingResps : List SubmitResponse) :
    ReaderShared eventSpoolCapacity capacity :=
  if pendingResps = [] then s
  else
    let (pendingSubmits, matched) := matchSubmitResps s.pendingSubmits pendingResps
    matched.foldl reportSubmitResp { s with pendingSubmits }

/-! ## Frames -/

def onDeliver (sequenceId : UInt32) (deliver : Deliver) (o : FrameOutcome) :
    FrameResult eventSpoolCapacity capacity :=
  match { s with deliversReceived := s.deliversReceived + 1 }.reserveDeferredEvent with
  | (s, .error _) => ⟨s, 0, false, some .returned⟩
  | (s, .ok ticket) =>
    let outbound := Outbound.afterWrite (encodePdu (.deliverResp ⟨deliver.msgId, 0⟩) sequenceId)
      o.budgetStartedAt ticket (.deliver deliver)
    if o.budgetLeft then
      match o.send with
      | .sent => ⟨{ s with control := s.control ++ [outbound] }, 1, false, none⟩
      | .closed =>
        ⟨s.dropTicket ticket, 1, false,
          some (if o.phaseClosed then .returned else .finished .channelClosed)⟩
      | .timedOut => ⟨s.dropTicket ticket, 1, false, some (.finished .timeout)⟩
    else ⟨s.dropTicket ticket, 0, false, some (.finished .timeout)⟩

def onActiveTest (sequenceId : UInt32) (o : FrameOutcome) :
    FrameResult eventSpoolCapacity capacity :=
  match o.send with
  | .sent =>
    ⟨{ s with control := s.control ++ [.plain (encodePdu .activeTestResp sequenceId)] }, 1, false,
      none⟩
  | _ => ⟨s, 1, false, some (.finished .channelClosed)⟩

def onTerminate (sequenceId : UInt32) (o : FrameOutcome) :
    FrameResult eventSpoolCapacity capacity :=
  let s := { s with peerTerminateSeen := true }.beginClosing false
  let s := { s with spool := s.spool.beginEventDrain }
  let outbound := Outbound.peerTerminateResponse (encodePdu .terminateResp sequenceId)
  let s := if o.send = .sent then { s with control := s.control ++ [outbound] } else s
  let responseWritten := o.send = .sent && o.responseWritten
  let localTerminateWritten := s.pendingTerminate.isSome && o.localTerminateWritten
  if responseWritten && localTerminateWritten then ⟨s, 2, false, none⟩
  else ⟨s, 2, false, some (.finished .terminated)⟩

def onTerminateResp (sequenceId : UInt32) : FrameResult eventSpoolCapacity capacity :=
  if s.pendingTerminate = some sequenceId.toNat then
    ⟨{ s with pendingTerminate := none, terminateAnswered := true }, 1, true, none⟩
  else ⟨s, 1, false, none⟩

/-- A frame that is not a response to SUBMIT, after the flush. -/
def onFrame (frame : Frame) (o : FrameOutcome) : FrameResult eventSpoolCapacity capacity :=
  match frame.pdu with
  | .deliver deliver => s.onDeliver frame.sequenceId deliver o
  | .activeTest => s.onActiveTest frame.sequenceId o
  | .activeTestResp =>
    ⟨{ s with heartbeatPending := s.heartbeatPending.erase frame.sequenceId.toNat }, 0, false, none⟩
  | .terminate => s.onTerminate frame.sequenceId o
  | .terminateResp => s.onTerminateResp frame.sequenceId
  | _ => ⟨{ s with unexpectedPdus := s.unexpectedPdus + 1 }, 0, false, none⟩

end ReaderShared

/-- The buffer at each suspension is a log. -/
structure ReaderTask (eventSpoolCapacity capacity : ℕ) where
  shared : ReaderShared eventSpoolCapacity capacity
  pendingResps : List SubmitResponse
  localTerminateAcked : Bool
  exit : Option ReaderExit
  suspended : List (List SubmitResponse)

/-- The next frame of the read buffer, or none, so that the task waits for a read. -/
inductive ReaderInput
  | frame (frame : Frame) (o : FrameOutcome)
  | exhausted

/-- How the loop ends, unless a frame ends it. -/
inductive ReaderEnding
  | closed
  | decodeError (error : Error)
  | closedWhileReading
  | readError (message : String)
  | idle
  | eof (decoded : Except Error Unit)

def ReaderInput.frame? : ReaderInput → Option (Frame × FrameOutcome)
  | .frame f o => some (f, o)
  | .exhausted => none

def Frame.submitResp? (frame : Frame) : Option SubmitResponse :=
  match frame.pdu with
  | .submitResp resp => some ⟨frame.sequenceId.toNat, resp.msgId, resp.result⟩
  | _ => none

namespace ReaderTask

variable {eventSpoolCapacity capacity : ℕ}

def start (shared : ReaderShared eventSpoolCapacity capacity) :
    ReaderTask eventSpoolCapacity capacity where
  shared := shared
  pendingResps := []
  localTerminateAcked := false
  exit := none
  suspended := []

variable (t : ReaderTask eventSpoolCapacity capacity)

def flush : ReaderTask eventSpoolCapacity capacity :=
  { t with shared := t.shared.flushSubmitResps t.pendingResps, pendingResps := [] }

def suspend (awaits : ℕ) : ReaderTask eventSpoolCapacity capacity :=
  { t with suspended := t.suspended ++ List.replicate awaits t.pendingResps }

def exitWith (exit : ReaderExit) : ReaderTask eventSpoolCapacity capacity :=
  { t with exit := some exit }

def settle (result : FrameResult eventSpoolCapacity capacity) :
    ReaderTask eventSpoolCapacity capacity :=
  { t.suspend result.awaits with
    shared := result.shared
    localTerminateAcked := t.localTerminateAcked || result.acked
    exit := result.exit }

def onFrame (frame : Frame) (o : FrameOutcome) : ReaderTask eventSpoolCapacity capacity :=
  match frame.submitResp? with
  | some response =>
    let t := { t with pendingResps := t.pendingResps ++ [response] }
    if SUBMIT_RESP_BATCH_MAX ≤ t.pendingResps.length then t.flush else t
  | none => t.flush.settle (t.flush.shared.onFrame frame o)

def step : ReaderInput → ReaderTask eventSpoolCapacity capacity
  | .frame frame o => if t.exit.isSome then t else t.onFrame frame o
  | .exhausted => if t.exit.isSome then t else t.flush.suspend 1

def onEnding : ReaderEnding → ReaderTask eventSpoolCapacity capacity
  | .closed => t.flush.exitWith .returned
  | .decodeError error => t.flush.exitWith (.finished error)
  | .closedWhileReading => (t.flush.suspend 1).exitWith .returned
  | .readError message => (t.flush.suspend 1).exitWith (.finished (.io message))
  | .idle => (t.flush.suspend 1).exitWith (.finished .timeout)
  | .eof decoded =>
    let t := (t.flush.suspend 1).flush
    match decoded with
    | .ok () => t.exitWith (if t.localTerminateAcked then .returned else .finished .closed)
    | .error error => t.exitWith (.finished error)

def finishLoop (ending : ReaderEnding) : ReaderTask eventSpoolCapacity capacity :=
  if t.exit.isSome then t else t.onEnding ending

/-- `reader_task`. -/
def run (shared : ReaderShared eventSpoolCapacity capacity) (inputs : List ReaderInput)
    (ending : ReaderEnding) : ReaderTask eventSpoolCapacity capacity :=
  (inputs.foldl step (start shared)).finishLoop ending

end ReaderTask

end CmppProtocol
