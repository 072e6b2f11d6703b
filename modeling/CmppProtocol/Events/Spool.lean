import CmppProtocol.Connection.State
import CmppProtocol.Events.Stream
import CmppProtocol.Library.Greedy

/-! # Access to the event spool

What the tasks of a connection do with the spool: events are emitted and tickets
reserved under the admission lock, tickets are published or dropped, and each
cleanup drains the window, sends the drained ids in batches past the admission
and closes the spool. Sections of one lock exclude each other; a section that
the dispatcher or a cleanup can come in between is several steps.
-/

namespace CmppProtocol

inductive EventAdmissionState
  | opened
  | draining
  | overflowed
  | sealed
  | terminal
  deriving DecidableEq, Repr

/-- A call of `emit_event` or `reserve_deferred_event` that holds the admission lock: the item that
it will try to send, what the check of the depth gave and whether the depth was raised for it. -/
structure AdmissionHolder where
  item : EventSpoolItem
  hasCapacity : Bool
  raised : Bool
  deriving DecidableEq, Repr

/-- `close_event_spool` behind its lock: the reason is still to be taken, or the item is to be
sent. -/
inductive TerminalStage
  | idle
  | locked
  | sending (reason : Option Error)
  | ended
  deriving DecidableEq, Repr

/-- The cleanup of `finish`, or the fallback. `holding` has a batch that it tries to send. -/
inductive TeardownStage
  | starting
  | sending (batches : List (List ℕ))
  | holding (batch : List ℕ) (batches : List (List ℕ))
  | ended
  deriving DecidableEq, Repr

/-- The events that were admitted beyond the capacity are a log. -/
structure EventSpool (eventSpoolCapacity capacity : ℕ) where
  stream : EventStream (eventSpoolCapacity + 2) capacity
  admission : EventAdmissionState
  eventOverflowed : Bool
  holder : Option AdmissionHolder
  ticketsPending : ℕ
  nextTicket : ℕ
  terminal : TerminalStage
  closed : Bool
  pending : List ℕ
  cleanups : List TeardownStage
  overflowing : List EventSpoolItem

inductive TeardownEvent
  | drain (order : List ℕ)
  | takeBatch
  | sendBatch
  | giveUp
  | closeSpool
  | abort
  deriving DecidableEq, Repr

inductive SpoolEvent
  | emitEvent (event : Event)
  | reserveDeferredEvent
  | raise
  | send
  | publish (ticket : ℕ) (event : Event)
  | dropTicket (ticket : ℕ)
  | beginEventDrain
  | sealIfIdle
  | sealAdmission
  | admitSubmit (sequenceId : ℕ)
  | settleSubmit (sequenceId : ℕ)
  | finish
  | fallback
  | cleanup (index : ℕ) (event : TeardownEvent)
  | takeReason (reason : Option Error)
  | sendTerminal
  | dropConnection
  | read
  | dropReceiver
  | dispatcher (event : DispatcherEvent)

/-- The steps of tasks other than cleanups; the window is not theirs. -/
def SpoolEvent.isShared : SpoolEvent → Bool
  | .admitSubmit _ | .settleSubmit _ | .finish | .fallback | .cleanup _ _ | .takeReason _
  | .dropConnection => false
  | _ => true

def EventSpoolItem.isDeferred : EventSpoolItem → Bool
  | .deferred _ => true
  | _ => false

/-- An item that goes through the admission. -/
def EventSpoolItem.isAdmitted : EventSpoolItem → Bool
  | .direct _ | .deferred _ => true
  | _ => false

namespace EventSpool

variable {eventSpoolCapacity capacity : ℕ}

def initial (eventSpoolCapacity capacity : ℕ) : EventSpool eventSpoolCapacity capacity where
  stream := .initial _ _
  admission := .opened
  eventOverflowed := false
  holder := none
  ticketsPending := 0
  nextTicket := 0
  terminal := .idle
  closed := false
  pending := []
  cleanups := []
  overflowing := []

variable (s : EventSpool eventSpoolCapacity capacity)

/-- Other tasks count the events that they lose. -/
def countDropped (count : ℕ) : EventSpool eventSpoolCapacity capacity :=
  { s with stream := { s.stream with
      eventsDropped := s.stream.eventsDropped + count
      droppedElsewhere := s.stream.droppedElsewhere + count } }

def raiseDepth (count : ℕ) : EventSpool eventSpoolCapacity capacity :=
  { s with stream := { s.stream with eventDepth := s.stream.eventDepth + count } }

def lowerDepth (count : ℕ) : EventSpool eventSpoolCapacity capacity :=
  { s with stream := { s.stream with eventDepth := s.stream.eventDepth - count } }

/-- `try_send` of the spool's sender. -/
def trySend (item : EventSpoolItem) :
    Except Channel.SendError (EventSpool eventSpoolCapacity capacity) :=
  (s.stream.spool.trySend 0 item).map fun spool => { s with stream := { s.stream with spool } }

theorem trySend_ok {s s' : EventSpool eventSpoolCapacity capacity} {item : EventSpoolItem}
    (hput : s.trySend item = .ok s') : ∃ spool, s.stream.spool.trySend 0 item = .ok spool ∧
      s' = { s with stream := { s.stream with spool } } := by
  unfold trySend at hput
  cases hspool : s.stream.spool.trySend 0 item with
  | error error =>
    rw [hspool] at hput
    cases hput
  | ok spool =>
    rw [hspool] at hput
    cases hput
    exact ⟨spool, rfl, rfl⟩

/-! ## Admission -/

/-- The check under the admission lock, while events are admitted. -/
def enter (item : EventSpoolItem) : EventSpool eventSpoolCapacity capacity :=
  if s.stream.eventDepth < eventSpoolCapacity then { s with holder := some ⟨item, true, false⟩ }
  else { s with
    holder := some ⟨item, false, false⟩
    admission := .overflowed
    eventOverflowed := true
    overflowing := s.overflowing ++ [item] }

def emitEvent (event : Event) : EventSpool eventSpoolCapacity capacity :=
  match s.admission with
  | .opened | .draining => s.enter (.direct event)
  | .overflowed | .sealed | .terminal => s.countDropped 1

def reserveDeferredEvent : EventSpool eventSpoolCapacity capacity :=
  match s.admission with
  | .opened | .draining => s.enter (.deferred s.nextTicket)
  | .overflowed | .sealed | .terminal => s

/-- The depth permit, and the guard of a ticket. -/
def raiseHolder (holder : AdmissionHolder) : EventSpool eventSpoolCapacity capacity :=
  { s.raiseDepth 1 with
    holder := some { holder with raised := true }
    ticketsPending := s.ticketsPending + if holder.item.isDeferred then 1 else 0
    nextTicket := s.nextTicket + if holder.item.isDeferred then 1 else 0 }

/-- The send under the admission lock. A failure in the presence of capacity is an overflow too. -/
def sendHolder (holder : AdmissionHolder) : EventSpool eventSpoolCapacity capacity :=
  match s.trySend holder.item with
  | .ok s => { s with holder := none }
  | .error _ =>
    { (s.lowerDepth 1).countDropped (if holder.item.isDeferred then 0 else 1) with
      holder := none
      ticketsPending := s.ticketsPending - if holder.item.isDeferred then 1 else 0
      admission := if holder.hasCapacity then .overflowed else s.admission
      eventOverflowed := s.eventOverflowed || holder.hasCapacity }

/-- The owner of a ticket publishes or drops it, and its guard goes. -/
def settleTicket (ticket : ℕ) (state : EventTicket) :
    Option (EventSpool eventSpoolCapacity capacity) :=
  if ticket < s.nextTicket then
    (s.stream.resolve ticket state).map fun stream =>
      { s with stream, ticketsPending := s.ticketsPending - 1 }
  else none

def beginEventDrain : EventSpool eventSpoolCapacity capacity :=
  if s.admission = .opened then { s with admission := .draining } else s

/-- `seal_event_admission_if_idle`. -/
def sealIfIdle : EventSpool eventSpoolCapacity capacity :=
  if s.admission = .sealed ∨ s.admission = .terminal then s
  else if s.ticketsPending ≠ 0 then s
  else { s with admission := .sealed }

/-- `seal_event_admission`. -/
def sealAdmission : EventSpool eventSpoolCapacity capacity :=
  if s.admission ≠ .terminal then { s with admission := .sealed } else s

/-- `start_event_dispatch_backpressure_close`. -/
def backpressureClose : EventSpool eventSpoolCapacity capacity :=
  { s with
    eventOverflowed := true
    admission :=
      if s.admission = .opened ∨ s.admission = .draining then .overflowed else s.admission }

/-! ## Teardown -/

def setCleanup (index : ℕ) (stage : TeardownStage) : EventSpool eventSpoolCapacity capacity :=
  { s with cleanups := s.cleanups.set index stage }

/-- `close_event_spool` up to the end of its lock. -/
def closeEventSpool : EventSpool eventSpoolCapacity capacity :=
  if s.admission = .terminal then s else { s with admission := .terminal, terminal := .locked }

/-- A batch cannot be sent any more, as the dispatcher is gone; nor can those behind it. -/
def spoolClosed (index : ℕ) (batch : List ℕ) (batches : List (List ℕ)) :
    EventSpool eventSpoolCapacity capacity :=
  ((s.lowerDepth batch.length).countDropped (batch.length + batches.flatten.length)).setCleanup
    index (.sending [])

def cleanupNext (index : ℕ) : TeardownEvent → Option (EventSpool eventSpoolCapacity capacity)
  | .drain order =>
    match s.cleanups[index]? with
    | some .starting =>
      if order.Perm s.pending then
        some ({ s with pending := [] }.setCleanup index
          (.sending (Greedy.chunks SUBMIT_DROPPED_BATCH_SIZE order)))
      else none
    | _ => none
  | .takeBatch =>
    match s.cleanups[index]? with
    | some (.sending (batch :: batches)) =>
      some ((s.raiseDepth batch.length).setCleanup index (.holding batch batches))
    | _ => none
  | .sendBatch =>
    match s.cleanups[index]? with
    | some (.holding batch batches) =>
      match s.trySend (.batch (batch.map .submitDropped)) with
      | .ok s => some (s.setCleanup index (.sending batches))
      | .error .full => some s
      | .error .closed => some (s.spoolClosed index batch batches)
    | _ => none
  | .giveUp =>
    match s.cleanups[index]? with
    | some (.holding batch batches) =>
      some (((s.lowerDepth batch.length).countDropped batch.length).setCleanup index
        (.sending batches))
    | _ => none
  | .closeSpool =>
    match s.cleanups[index]? with
    | some (.sending []) =>
      if s.holder = none then some (s.closeEventSpool.setCleanup index .ended) else none
    | _ => none
  | .abort =>
    match s.cleanups[index]? with
    | some (.holding batch _) => some ((s.lowerDepth batch.length).setCleanup index .ended)
    | some _ => some (s.setCleanup index .ended)
    | none => none

/-- The item that ends the stream; `try_send` is repeated while the spool is full. -/
def sendTerminal (reason : Option Error) : EventSpool eventSpoolCapacity capacity :=
  match s.trySend (.terminal reason) with
  | .ok s => { s with terminal := .ended }
  | .error .full => s
  | .error .closed => { s.lowerDepth 1 with terminal := .ended }

/-- The tasks that keep the connection object alive have ended. -/
def released : Bool :=
  s.holder.isNone && s.cleanups.all (· = .ended) && (s.terminal = .idle || s.terminal = .ended) &&
    match s.stream.stage with
    | .closing _ => false
    | _ => true

/-- A step of a task that owns the connection object. -/
def ownedNext : SpoolEvent → Option (EventSpool eventSpoolCapacity capacity)
  | .emitEvent event => if s.holder = none then some (s.emitEvent event) else none
  | .reserveDeferredEvent => if s.holder = none then some s.reserveDeferredEvent else none
  | .raise =>
    match s.holder with
    | some holder => if holder.raised then none else some (s.raiseHolder holder)
    | none => none
  | .send =>
    match s.holder with
    | some holder => if holder.raised then some (s.sendHolder holder) else none
    | none => none
  | .publish ticket event => s.settleTicket ticket (.published event)
  | .dropTicket ticket => s.settleTicket ticket .abandoned
  | .beginEventDrain => if s.holder = none then some s.beginEventDrain else none
  | .sealIfIdle => if s.holder = none then some s.sealIfIdle else none
  | .sealAdmission => if s.holder = none then some s.sealAdmission else none
  | .admitSubmit sequenceId =>
    if s.closed then none else some { s with pending := s.pending ++ [sequenceId] }
  | .settleSubmit sequenceId => some { s with pending := s.pending.erase sequenceId }
  | .finish =>
    if s.closed then none else some { s with closed := true, cleanups := s.cleanups ++ [.starting] }
  | .fallback =>
    if s.closed then some { s with cleanups := s.cleanups ++ [.starting] } else none
  | .cleanup index event => s.cleanupNext index event
  | .takeReason reason =>
    match s.terminal with
    | .locked => some { s.raiseDepth 1 with terminal := .sending reason }
    | _ => none
  | .sendTerminal =>
    match s.terminal with
    | .sending reason => some (s.sendTerminal reason)
    | _ => none
  | _ => none

def next : SpoolEvent → Option (EventSpool eventSpoolCapacity capacity)
  | .dropConnection =>
    if s.released then some { s with stream := { s.stream with alive := false } } else none
  | .read => (s.stream.next .read).map fun stream => { s with stream }
  | .dropReceiver => some { s with stream := { s.stream with events := s.stream.events.close } }
  | .dispatcher event =>
    match s.stream.stage with
    | .closing _ =>
      if s.holder = none then
        (s.stream.dispatcherNext event).map fun stream => { s.backpressureClose with stream }
      else none
    | _ => (s.stream.dispatcherNext event).map fun stream => { s with stream }
  | event => if s.stream.alive then s.ownedNext event else none

def machine (eventSpoolCapacity capacity : ℕ) :
    Machine (EventSpool eventSpoolCapacity capacity) SpoolEvent :=
  .ofNext (initial eventSpoolCapacity capacity) next

/-! ## What a step does -/

/-- The steps by who takes them. The dispatcher that closes for backpressure takes the admission
lock; what a task does that owns the connection object is left to `ownedNext`. -/
inductive Move (s : EventSpool eventSpoolCapacity capacity) :
    SpoolEvent → EventSpool eventSpoolCapacity capacity → Prop
  | dropConnection (hreleased : s.released = true) :
    Move s .dropConnection { s with stream := { s.stream with alive := false } }
  | read (stream : EventStream (eventSpoolCapacity + 2) capacity)
      (hread : s.stream.next .read = some stream) :
    Move s .read { s with stream }
  | dropReceiver :
    Move s .dropReceiver { s with stream := { s.stream with events := s.stream.events.close } }
  | backpressure (event : DispatcherEvent) (stream : EventStream (eventSpoolCapacity + 2) capacity)
      (hholder : s.holder = none) (hstream : s.stream.dispatcherNext event = some stream) :
    Move s (.dispatcher event) { s.backpressureClose with stream }
  | dispatcher (event : DispatcherEvent) (stream : EventStream (eventSpoolCapacity + 2) capacity)
      (hstream : s.stream.dispatcherNext event = some stream) :
    Move s (.dispatcher event) { s with stream }
  | owned (event : SpoolEvent) (s' : EventSpool eventSpoolCapacity capacity)
      (halive : s.stream.alive = true) (hnext : s.ownedNext event = some s') :
    Move s event s'

/-- The steps of a task that owns the connection object. A call enters the admission, and its state
changes, only while no other call is inside. -/
inductive OwnedMove (s : EventSpool eventSpoolCapacity capacity) :
    SpoolEvent → EventSpool eventSpoolCapacity capacity → Prop
  | emitEvent (event : Event) (hholder : s.holder = none)
      (hadmits : s.admission = .opened ∨ s.admission = .draining) :
    OwnedMove s (.emitEvent event) (s.enter (.direct event))
  | emitDropped (event : Event) (hholder : s.holder = none) :
    OwnedMove s (.emitEvent event) (s.countDropped 1)
  | reserveDeferredEvent (hholder : s.holder = none)
      (hadmits : s.admission = .opened ∨ s.admission = .draining) :
    OwnedMove s .reserveDeferredEvent (s.enter (.deferred s.nextTicket))
  | raise (holder : AdmissionHolder) (hholder : s.holder = some holder)
      (hraised : holder.raised = false) :
    OwnedMove s .raise (s.raiseHolder holder)
  | send (holder : AdmissionHolder) (hholder : s.holder = some holder)
      (hraised : holder.raised = true) :
    OwnedMove s .send (s.sendHolder holder)
  | publish (ticket : ℕ) (event : Event) (s' : EventSpool eventSpoolCapacity capacity)
      (hsettle : s.settleTicket ticket (.published event) = some s') :
    OwnedMove s (.publish ticket event) s'
  | dropTicket (ticket : ℕ) (s' : EventSpool eventSpoolCapacity capacity)
      (hsettle : s.settleTicket ticket .abandoned = some s') :
    OwnedMove s (.dropTicket ticket) s'
  | beginEventDrain (hholder : s.holder = none) (hopened : s.admission = .opened) :
    OwnedMove s .beginEventDrain { s with admission := .draining }
  | sealed (event : SpoolEvent) (hevent : event = .sealIfIdle ∨ event = .sealAdmission)
      (hholder : s.holder = none) (hterminal : s.admission ≠ .terminal) :
    OwnedMove s event { s with admission := .sealed }
  | still (event : SpoolEvent)
      (hevent : event ∈ [.reserveDeferredEvent, .beginEventDrain, .sealIfIdle, .sealAdmission])
      (hholder : s.holder = none) :
    OwnedMove s event s
  | admitSubmit (sequenceId : ℕ) (hopen : s.closed = false) :
    OwnedMove s (.admitSubmit sequenceId) { s with pending := s.pending ++ [sequenceId] }
  | settleSubmit (sequenceId : ℕ) :
    OwnedMove s (.settleSubmit sequenceId) { s with pending := s.pending.erase sequenceId }
  | finish (hopen : s.closed = false) :
    OwnedMove s .finish { s with closed := true, cleanups := s.cleanups ++ [.starting] }
  | fallback (hclosed : s.closed = true) :
    OwnedMove s .fallback { s with cleanups := s.cleanups ++ [.starting] }
  | cleanup (index : ℕ) (event : TeardownEvent) (s' : EventSpool eventSpoolCapacity capacity)
      (hnext : s.cleanupNext index event = some s') :
    OwnedMove s (.cleanup index event) s'
  | takeReason (reason : Option Error) (hlocked : s.terminal = .locked) :
    OwnedMove s (.takeReason reason) { s.raiseDepth 1 with terminal := .sending reason }
  | sendTerminal (reason : Option Error) (hsending : s.terminal = .sending reason) :
    OwnedMove s .sendTerminal (s.sendTerminal reason)

variable {s} {s' : EventSpool eventSpoolCapacity capacity}

theorem ownedNext_move {event : SpoolEvent} (hnext : s.ownedNext event = some s') :
    OwnedMove s event s' := by
  cases event with
  | emitEvent event =>
    simp only [ownedNext] at hnext
    split_ifs at hnext with hholder
    cases hnext
    unfold EventSpool.emitEvent
    split
    · next hopened => exact .emitEvent event hholder (Or.inl hopened)
    · next hdraining => exact .emitEvent event hholder (Or.inr hdraining)
    all_goals exact .emitDropped event hholder
  | reserveDeferredEvent =>
    simp only [ownedNext] at hnext
    split_ifs at hnext with hholder
    cases hnext
    unfold EventSpool.reserveDeferredEvent
    split
    · next hopened => exact .reserveDeferredEvent hholder (Or.inl hopened)
    · next hdraining => exact .reserveDeferredEvent hholder (Or.inr hdraining)
    all_goals exact .still _ (by simp) hholder
  | raise =>
    simp only [ownedNext] at hnext
    split at hnext
    · next holder hholder =>
      split_ifs at hnext with hraised
      cases hnext
      exact .raise holder hholder (Bool.eq_false_of_not_eq_true hraised)
    · cases hnext
  | send =>
    simp only [ownedNext] at hnext
    split at hnext
    · next holder hholder =>
      split_ifs at hnext with hraised
      cases hnext
      exact .send holder hholder hraised
    · cases hnext
  | publish ticket event => exact .publish ticket event s' hnext
  | dropTicket ticket => exact .dropTicket ticket s' hnext
  | beginEventDrain =>
    simp only [ownedNext, EventSpool.beginEventDrain] at hnext
    split_ifs at hnext with hholder hopened
    · cases hnext
      exact .beginEventDrain hholder hopened
    · cases hnext
      exact .still _ (by simp) hholder
  | sealIfIdle =>
    simp only [ownedNext, EventSpool.sealIfIdle] at hnext
    split_ifs at hnext with hholder hsealed htickets
    · cases hnext
      exact .still _ (by simp) hholder
    · cases hnext
      exact .still _ (by simp) hholder
    · cases hnext
      exact .sealed _ (Or.inl rfl) hholder fun hterminal => hsealed (Or.inr hterminal)
  | sealAdmission =>
    simp only [ownedNext, EventSpool.sealAdmission] at hnext
    split_ifs at hnext with hholder hterminal
    · cases hnext
      exact .sealed _ (Or.inr rfl) hholder hterminal
    · cases hnext
      exact .still _ (by simp) hholder
  | admitSubmit sequenceId =>
    simp only [ownedNext] at hnext
    split_ifs at hnext with hclosed
    cases hnext
    exact .admitSubmit sequenceId (Bool.eq_false_of_not_eq_true hclosed)
  | settleSubmit sequenceId =>
    cases hnext
    exact .settleSubmit sequenceId
  | finish =>
    simp only [ownedNext] at hnext
    split_ifs at hnext with hclosed
    cases hnext
    exact .finish (Bool.eq_false_of_not_eq_true hclosed)
  | fallback =>
    simp only [ownedNext] at hnext
    split_ifs at hnext with hclosed
    cases hnext
    exact .fallback hclosed
  | cleanup index event => exact .cleanup index event s' hnext
  | takeReason reason =>
    simp only [ownedNext] at hnext
    split at hnext
    · next hlocked =>
      cases hnext
      exact .takeReason reason hlocked
    · cases hnext
  | sendTerminal =>
    simp only [ownedNext] at hnext
    split at hnext
    · next reason hsending =>
      cases hnext
      exact .sendTerminal reason hsending
    · cases hnext
  | _ => cases hnext

theorem next_move {event : SpoolEvent} (hnext : s.next event = some s') : Move s event s' := by
  cases event with
  | dropConnection =>
    simp only [next] at hnext
    split_ifs at hnext with hreleased
    cases hnext
    exact .dropConnection hreleased
  | read =>
    obtain ⟨stream, hread, rfl⟩ := Option.map_eq_some_iff.mp hnext
    exact .read _ hread
  | dropReceiver =>
    cases hnext
    exact .dropReceiver
  | dispatcher event =>
    simp only [next] at hnext
    split at hnext
    · split_ifs at hnext with hholder
      obtain ⟨stream, hstream, rfl⟩ := Option.map_eq_some_iff.mp hnext
      exact .backpressure _ _ hholder hstream
    · obtain ⟨stream, hstream, rfl⟩ := Option.map_eq_some_iff.mp hnext
      exact .dispatcher _ _ hstream
  | _ =>
    simp only [next] at hnext
    split_ifs at hnext with halive
    exact .owned _ _ halive hnext

end EventSpool

end CmppProtocol
