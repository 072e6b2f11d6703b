import CmppProtocol.Events.Deferred

/-! # A DELIVER and its response

The reader reserves a ticket for a DELIVER and queues the response with it. The
writer takes the frames of the queue into a batch, writes the batch and then
publishes its tickets. A frame that is dropped on its way gives its ticket up.
-/

namespace CmppProtocol

/-- A DELIVER, and the state of the admission when the reader had its lock. -/
structure Arrival where
  sequenceId : UInt32
  deliver : Deliver
  admission : EventAdmissionState
  deriving DecidableEq, Repr

def Arrival.isAdmitted (arrival : Arrival) : Bool :=
  arrival.admission = .opened || arrival.admission = .draining

/-- The frame with the response, which holds the ticket of the event. -/
def Arrival.response (arrival : Arrival) (responseBudgetStartedAt ticket : ℕ) : Outbound :=
  .afterWrite (encodePdu (.deliverResp ⟨arrival.deliver.msgId, 0⟩) arrival.sequenceId)
    responseBudgetStartedAt ticket (.deliver arrival.deliver)

/-- The command of the frame is DELIVER_RESP. -/
def Outbound.isDeliverResp (outbound : Outbound) : Bool :=
  (outbound.packet.drop 4).take 4 = [0x80, 0, 0, 5]

/-- The other frames of the control queue. -/
inductive ControlFrame
  | activeTest (key : HeartbeatAttemptKey)
  | activeTestResp
  | terminate
  | terminateResp
  deriving DecidableEq, Repr

def ControlFrame.outbound (sequenceId : UInt32) : ControlFrame → Outbound
  | .activeTest key => .heartbeat (encodePdu .activeTest sequenceId) key
  | .activeTestResp => .plain (encodePdu .activeTestResp sequenceId)
  | .terminate => .localTerminate (encodePdu .terminate sequenceId)
  | .terminateResp => .peerTerminateResponse (encodePdu .terminateResp sequenceId)

/-- The reader in `reserve_deferred_event`, or with a response that is to be queued. -/
inductive DeliverStage
  | reading
  | reserving (arrival : Arrival)
  | sending (outbound : Outbound)
  | stopped
  deriving DecidableEq, Repr

/-- The writer collects a batch, writes it or publishes the tickets of the frames that it wrote. -/
inductive DeliveryWriterStage
  | collecting
  | writing
  | publishing (rest : List Outbound)
  | stopped
  deriving DecidableEq, Repr

/-- What has arrived, the responses with a ticket, the frames that were queued and those that were
written are logs. -/
structure Delivery (eventSpoolCapacity capacity : ℕ) where
  spool : EventSpool eventSpoolCapacity capacity
  reader : DeliverStage
  control : List Outbound
  writer : DeliveryWriterStage
  batch : List Outbound
  dropping : List Outbound
  arrived : List Arrival
  reserved : List Outbound
  queued : List Outbound
  written : List Outbound

inductive DeliveryEvent
  | deliver (sequenceId : UInt32) (deliver : Deliver)
  | raise
  | send (responseBudgetStartedAt : ℕ)
  | queue
  | giveUp
  | stopReader
  | queueControl (sequenceId : UInt32) (frame : ControlFrame)
  | take
  | skip
  | takeSubmit (packet : List UInt8) (key : SubmitAttemptKey)
  | write
  | wrote
  | publish
  | endBatch
  | stopWriter
  | drop
  | spool (event : SpoolEvent)

namespace Delivery

variable {eventSpoolCapacity capacity : ℕ}

def initial (eventSpoolCapacity capacity : ℕ) : Delivery eventSpoolCapacity capacity where
  spool := .initial _ _
  reader := .reading
  control := []
  writer := .collecting
  batch := []
  dropping := []
  arrived := []
  reserved := []
  queued := []
  written := []

variable (s : Delivery eventSpoolCapacity capacity)

/-! ## The reader -/

/-- `reserve_deferred_event` behind its lock. There is no answer where it fails. -/
def meet (arrival : Arrival) (spool : EventSpool eventSpoolCapacity capacity) :
    Delivery eventSpoolCapacity capacity :=
  { s with
    spool
    reader := if arrival.isAdmitted then .reserving arrival else .stopped
    arrived := s.arrived ++ [arrival] }

/-- The item of the ticket is put; when the spool takes it, the reader has its ticket. -/
def reserve (responseBudgetStartedAt : ℕ) : Option (Delivery eventSpoolCapacity capacity) :=
  match s.reader, s.spool.holder with
  | .reserving arrival, some ⟨.deferred ticket, _, _⟩ =>
    (s.spool.next .send).map fun spool =>
      match s.spool.trySend (.deferred ticket) with
      | .ok _ => { s with
          spool
          reader := .sending (arrival.response responseBudgetStartedAt ticket)
          reserved := s.reserved ++ [arrival.response responseBudgetStartedAt ticket] }
      | .error _ => { s with spool, reader := .stopped }
  | _, _ => none

/-! ## The writer -/

/-- A frame that may be dropped instead of being written. -/
def isSkippable (outbound : Outbound) : Bool :=
  outbound.openOnly || outbound.cancelAfterPeerTerminate || outbound.heartbeatAttempt.isSome

/-- Publish the ticket of a frame, or give it up. -/
def settle (outbound : Outbound) (event : ℕ → Event → SpoolEvent) :
    Option (Delivery eventSpoolCapacity capacity) :=
  match outbound.eventAfterWrite with
  | some (ticket, shown) => (s.spool.next (event ticket shown)).map fun spool => { s with spool }
  | none => some s

/-- The tasks have gone, and no frame is left that they would drop. -/
def isDeserted : Bool := s.reader = .stopped && s.writer = .stopped && s.dropping = []

def next : DeliveryEvent → Option (Delivery eventSpoolCapacity capacity)
  | .deliver sequenceId deliver =>
    if s.reader = .reading then
      (s.spool.next .reserveDeferredEvent).map (s.meet ⟨sequenceId, deliver, s.spool.admission⟩)
    else none
  | .raise =>
    match s.reader with
    | .reserving _ => (s.spool.next .raise).map fun spool => { s with spool }
    | _ => none
  | .send responseBudgetStartedAt => s.reserve responseBudgetStartedAt
  | .queue =>
    match s.reader with
    | .sending outbound =>
      if s.writer = .stopped then none
      else some { s with
        reader := .reading
        control := s.control ++ [outbound]
        queued := s.queued ++ [outbound] }
    | _ => none
  | .giveUp =>
    match s.reader with
    | .sending outbound => some { s with reader := .stopped, dropping := s.dropping ++ [outbound] }
    | _ => none
  | .stopReader => if s.reader = .reading then some { s with reader := .stopped } else none
  | .queueControl sequenceId frame =>
    if s.writer = .stopped then none
    else some { s with
      control := s.control ++ [frame.outbound sequenceId]
      queued := s.queued ++ [frame.outbound sequenceId] }
  | .take =>
    match s.writer, s.control with
    | .collecting, outbound :: rest =>
      some { s with control := rest, batch := s.batch ++ [outbound] }
    | _, _ => none
  | .skip =>
    match s.writer, s.control with
    | .collecting, outbound :: rest =>
      if isSkippable outbound then
        some { s with control := rest, dropping := s.dropping ++ [outbound] }
      else none
    | _, _ => none
  | .takeSubmit packet key =>
    if s.writer = .collecting then some { s with batch := s.batch ++ [.submit packet key] }
    else none
  | .write =>
    if s.writer = .collecting ∧ s.batch ≠ [] then some { s with writer := .writing } else none
  | .wrote =>
    if s.writer = .writing then
      some { s with
        writer := .publishing s.batch
        batch := []
        written := s.written ++ s.batch }
    else none
  | .publish =>
    match s.writer with
    | .publishing (outbound :: rest) =>
      { s with writer := .publishing rest }.settle outbound .publish
    | _ => none
  | .endBatch => if s.writer = .publishing [] then some { s with writer := .collecting } else none
  | .stopWriter =>
    -- A failure, the end of the connection or an abort; the queue goes with the writer.
    if s.writer = .collecting ∨ s.writer = .writing then
      some { s with
        writer := .stopped
        batch := []
        control := []
        dropping := s.dropping ++ s.batch ++ s.control }
    else none
  | .drop =>
    match s.dropping with
    | outbound :: rest =>
      { s with dropping := rest }.settle outbound fun ticket _ => .dropTicket ticket
    | [] => none
  | .spool .dropConnection =>
    if s.isDeserted then (s.spool.next .dropConnection).map fun spool => { s with spool } else none
  | .spool event =>
    if s.spool.sparesTickets event then (s.spool.next event).map fun spool => { s with spool }
    else none

def machine (eventSpoolCapacity capacity : ℕ) :
    Machine (Delivery eventSpoolCapacity capacity) DeliveryEvent :=
  .ofNext (initial eventSpoolCapacity capacity) next

end Delivery

end CmppProtocol
