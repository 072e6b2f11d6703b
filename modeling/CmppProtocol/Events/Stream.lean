import CmppProtocol.Connection.Types
import CmppProtocol.Library.Channel
import CmppProtocol.Library.Machine
import Mathlib.Algebra.GroupWithZero.Nat

/-! # The event stream

Events go through a bounded spool to one dispatcher, which sends them to the
public channel. An event whose place is fixed before it may be seen waits in the
spool as a ticket. Any task may put items into the spool, publish or give up a
ticket; the consumer reads, waits or drops its receiver.
-/

namespace CmppProtocol

inductive EventSpoolItem
  | direct (event : Event)
  | batch (events : List Event)
  | deferred (ticket : ℕ)
  | terminal (reason : Option Error)
  deriving DecidableEq, Repr

/-- The count of the depth permit that the item carries. -/
def EventSpoolItem.depth : EventSpoolItem → ℕ
  | .batch events => events.length
  | _ => 1

/-- The oneshot channel of a deferred event. -/
inductive EventTicket
  | reserved
  | published (event : Event)
  | abandoned
  deriving DecidableEq, Repr

inductive EventDispatchError
  | closed
  | backpressure
  deriving DecidableEq, Repr

/-- Where the dispatcher stands: `publishing` is the branch of a deferred event, `reserving` waits
for two free slots, `closing` reports the backpressure. -/
inductive DispatcherStage
  | receiving
  | dispatching (events : List Event)
  | awaiting (ticket : ℕ)
  | publishing (event : Event)
  | reserving (event : Event) (rest : List Event)
  | closing (rest : List Event)
  | exited
  deriving DecidableEq, Repr

/-- What became of an ordinary event or of a ticket. -/
inductive DispatchOutcome
  | sent (event : Event)
  | failed (event : Event)
  | discarded (event : Event)
  | skipped (ticket : ℕ)
  | abandoned (ticket : ℕ)
  deriving DecidableEq, Repr

/-- The outcomes and the drops that other tasks have counted are a log, read by no step. -/
structure EventStream (spoolCapacity capacity : ℕ) where
  spool : Channel EventSpoolItem spoolCapacity
  tickets : ℕ → EventTicket
  events : Channel Event capacity
  stage : DispatcherStage
  discardEvents : Bool
  depthPermit : ℕ
  eventDepth : ℕ
  eventsDropped : ℕ
  /-- The connection object exists, so that `upgrade` succeeds. -/
  alive : Bool
  outcomes : List DispatchOutcome
  droppedElsewhere : ℕ

inductive DispatcherEvent
  | advance
  | timeout
  deriving DecidableEq, Repr

inductive StreamEvent
  | raiseDepth (count : ℕ)
  | lowerDepth (count : ℕ)
  | put (item : EventSpoolItem)
  | publish (ticket : ℕ) (event : Event)
  | abandon (ticket : ℕ)
  | countDropped (count : ℕ)
  | dropConnection
  | read
  | dropReceiver
  | dispatcher (event : DispatcherEvent)

/-- The slots of the public channel. -/
def INCOMING_CHANNEL_CAPACITY : ℕ := 1000

namespace EventStream

variable {spoolCapacity capacity : ℕ}

def initial (spoolCapacity capacity : ℕ) : EventStream spoolCapacity capacity where
  spool := .empty _ _
  tickets _ := .reserved
  events := .empty _ _
  stage := .receiving
  discardEvents := false
  depthPermit := 0
  eventDepth := 0
  eventsDropped := 0
  alive := true
  outcomes := []
  droppedElsewhere := 0

variable (s : EventStream spoolCapacity capacity)

/-- Note what became of an event. One that was not sent is counted while there is a connection. -/
def settle (outcome : DispatchOutcome) : EventStream spoolCapacity capacity :=
  { s with
    outcomes := s.outcomes ++ [outcome]
    eventsDropped :=
      match outcome with
      | .sent _ => s.eventsDropped
      | _ => s.eventsDropped + if s.alive then 1 else 0 }

/-- The item is dropped, and with it its depth permit. -/
def finishItem : EventStream spoolCapacity capacity :=
  { s with stage := .receiving, eventDepth := s.eventDepth - s.depthPermit, depthPermit := 0 }

/-- The dispatcher ends; the items that are left in the spool are dropped with it. -/
def exit : EventStream spoolCapacity capacity :=
  { s with
    stage := .exited
    spool := s.spool.close
    eventDepth := s.eventDepth - s.depthPermit - (s.spool.queued.map EventSpoolItem.depth).sum
    depthPermit := 0 }

/-- An event that could not be sent puts the dispatcher into the discard mode. -/
def failDispatch (event : Event) (rest : List Event) (error : EventDispatchError) :
    EventStream spoolCapacity capacity :=
  { s.settle (.failed event) with
    discardEvents := true
    stage :=
      match error with
      | .backpressure => if s.alive then .closing rest else .dispatching rest
      | .closed => .dispatching rest }

def sendEvent (event : Event) (rest : List Event) (events : Channel Event capacity) :
    EventStream spoolCapacity capacity :=
  { s.settle (.sent event) with events, stage := .dispatching rest }

/-- `dispatch_event_with_budget` up to the wait. -/
def tryDispatch (event : Event) (rest : List Event) : EventStream spoolCapacity capacity :=
  match s.events.trySend 1 event with
  | .ok events => s.sendEvent event rest events
  | .error .closed => s.failDispatch event rest .closed
  | .error .full => { s with stage := .reserving event rest }

/-- The last item; a slot is kept free for the reason. -/
def terminate (reason : Option Error) : EventStream spoolCapacity capacity :=
  match reason with
  | none => s.exit
  | some reason =>
    match s.events.trySend 0 (.disconnected reason) with
    | .ok events => { s with events }.exit
    | .error _ => s.exit

/-- The dispatcher begins with an item. -/
def startItem (item : EventSpoolItem) : EventStream spoolCapacity capacity :=
  let s := { s with depthPermit := item.depth }
  match item with
  | .direct event => { s with stage := .dispatching [event] }
  | .batch events => { s with stage := .dispatching events }
  | .deferred ticket =>
    if s.discardEvents then (s.settle (.skipped ticket)).finishItem
    else { s with stage := .awaiting ticket }
  | .terminal reason => s.terminate reason

def dispatcherAdvance : Option (EventStream spoolCapacity capacity) :=
  match s.stage with
  | .receiving =>
    match s.spool.recv with
    | some (item, spool) => some ({ s with spool }.startItem item)
    | none => if s.alive then none else some s.exit
  | .dispatching [] => some s.finishItem
  | .dispatching (event :: rest) =>
    if s.discardEvents then some { s.settle (.discarded event) with stage := .dispatching rest }
    else some (s.tryDispatch event rest)
  | .awaiting ticket =>
    match s.tickets ticket with
    | .reserved => none
    | .published event => some { s with stage := .publishing event }
    | .abandoned => some (s.settle (.abandoned ticket)).finishItem
  | .publishing event =>
    -- In this branch nothing is counted when events are discarded.
    if s.discardEvents then some s.finishItem else some (s.tryDispatch event [])
  | .reserving event rest =>
    match s.events.trySend 1 event with
    | .ok events => some (s.sendEvent event rest events)
    | .error .closed => some (s.failDispatch event rest .closed)
    | .error .full => none
  | .closing rest => some { s with stage := .dispatching rest }
  | .exited => none

def dispatcherNext : DispatcherEvent → Option (EventStream spoolCapacity capacity)
  | .advance => s.dispatcherAdvance
  | .timeout =>
    match s.stage with
    | .reserving event rest => some (s.failDispatch event rest .backpressure)
    | _ => none

/-- A ticket is published or given up once. -/
def resolve (ticket : ℕ) (state : EventTicket) : Option (EventStream spoolCapacity capacity) :=
  match s.tickets ticket with
  | .reserved =>
    some { s with tickets := fun other => if other = ticket then state else s.tickets other }
  | _ => none

def next : StreamEvent → Option (EventStream spoolCapacity capacity)
  | .raiseDepth count => some { s with eventDepth := s.eventDepth + count }
  | .lowerDepth count => some { s with eventDepth := s.eventDepth - count }
  | .put item =>
    match s.spool.trySend 0 item with
    | .ok spool => some { s with spool }
    | .error _ => none
  | .publish ticket event => s.resolve ticket (.published event)
  | .abandon ticket => s.resolve ticket .abandoned
  | .countDropped count =>
    if s.alive then
      some { s with
        eventsDropped := s.eventsDropped + count
        droppedElsewhere := s.droppedElsewhere + count }
    else none
  | .dropConnection => some { s with alive := false }
  | .read =>
    if s.events.closed then none
    else
      match s.events.recv with
      | some (_, events) => some { s with events }
      | none => none
  | .dropReceiver => some { s with events := s.events.close }
  | .dispatcher event => s.dispatcherNext event

def machine (spoolCapacity capacity : ℕ) :
    Machine (EventStream spoolCapacity capacity) StreamEvent :=
  .ofNext (initial spoolCapacity capacity) next

/-! ## What a step does -/

/-- The steps of the dispatcher by its stage. -/
inductive DispatcherMove (s : EventStream spoolCapacity capacity) :
    DispatcherEvent → EventStream spoolCapacity capacity → Prop
  | take (item : EventSpoolItem) (spool : Channel EventSpoolItem spoolCapacity)
      (hstage : s.stage = .receiving) (hrecv : s.spool.recv = some (item, spool)) :
    DispatcherMove s .advance ({ s with spool }.startItem item)
  | leave (hstage : s.stage = .receiving) (hrecv : s.spool.recv = none)
      (halive : s.alive = false) :
    DispatcherMove s .advance s.exit
  | finish (hstage : s.stage = .dispatching []) : DispatcherMove s .advance s.finishItem
  | discard (event : Event) (rest : List Event) (hstage : s.stage = .dispatching (event :: rest))
      (hdiscard : s.discardEvents = true) :
    DispatcherMove s .advance { s.settle (.discarded event) with stage := .dispatching rest }
  | dispatch (event : Event) (rest : List Event) (hstage : s.stage = .dispatching (event :: rest))
      (hdiscard : s.discardEvents = false) :
    DispatcherMove s .advance (s.tryDispatch event rest)
  | published (ticket : ℕ) (event : Event) (hstage : s.stage = .awaiting ticket)
      (hticket : s.tickets ticket = .published event) :
    DispatcherMove s .advance { s with stage := .publishing event }
  | abandoned (ticket : ℕ) (hstage : s.stage = .awaiting ticket)
      (hticket : s.tickets ticket = .abandoned) :
    DispatcherMove s .advance (s.settle (.abandoned ticket)).finishItem
  | withhold (event : Event) (hstage : s.stage = .publishing event)
      (hdiscard : s.discardEvents = true) :
    DispatcherMove s .advance s.finishItem
  | publish (event : Event) (hstage : s.stage = .publishing event)
      (hdiscard : s.discardEvents = false) :
    DispatcherMove s .advance (s.tryDispatch event [])
  | reserved (event : Event) (rest : List Event) (events : Channel Event capacity)
      (hstage : s.stage = .reserving event rest) (hput : s.events.trySend 1 event = .ok events) :
    DispatcherMove s .advance (s.sendEvent event rest events)
  | refused (event : Event) (rest : List Event) (hstage : s.stage = .reserving event rest)
      (hput : s.events.trySend 1 event = .error .closed) :
    DispatcherMove s .advance (s.failDispatch event rest .closed)
  | reported (rest : List Event) (hstage : s.stage = .closing rest) :
    DispatcherMove s .advance { s with stage := .dispatching rest }
  | timeout (event : Event) (rest : List Event) (hstage : s.stage = .reserving event rest) :
    DispatcherMove s .timeout (s.failDispatch event rest .backpressure)

variable {s} {s' : EventStream spoolCapacity capacity}

theorem dispatcherNext_move {event : DispatcherEvent} (hnext : s.dispatcherNext event = some s') :
    DispatcherMove s event s' := by
  cases event with
  | advance =>
    simp only [dispatcherNext, dispatcherAdvance] at hnext
    split at hnext
    · next hstage =>
      split at hnext
      · next item spool hrecv =>
        cases hnext
        exact .take _ _ hstage hrecv
      · next hrecv =>
        split_ifs at hnext with halive
        cases hnext
        exact .leave hstage hrecv (Bool.eq_false_of_not_eq_true halive)
    · next hstage =>
      cases hnext
      exact .finish hstage
    · next event rest hstage =>
      split_ifs at hnext with hdiscard
      · cases hnext
        exact .discard _ _ hstage hdiscard
      · cases hnext
        exact .dispatch _ _ hstage (Bool.eq_false_of_not_eq_true hdiscard)
    · next ticket hstage =>
      split at hnext
      · cases hnext
      · next event hticket =>
        cases hnext
        exact .published _ _ hstage hticket
      · next hticket =>
        cases hnext
        exact .abandoned _ hstage hticket
    · next event hstage =>
      split_ifs at hnext with hdiscard
      · cases hnext
        exact .withhold _ hstage hdiscard
      · cases hnext
        exact .publish _ hstage (Bool.eq_false_of_not_eq_true hdiscard)
    · next event rest hstage =>
      split at hnext
      · next events hput =>
        cases hnext
        exact .reserved _ _ _ hstage hput
      · next hput =>
        cases hnext
        exact .refused _ _ hstage hput
      · cases hnext
    · next rest hstage =>
      cases hnext
      exact .reported _ hstage
    · cases hnext
  | timeout =>
    simp only [dispatcherNext] at hnext
    split at hnext
    · next event rest hstage =>
      cases hnext
      exact .timeout _ _ hstage
    · cases hnext

theorem next_put {item : EventSpoolItem} (hnext : s.next (.put item) = some s') :
    ∃ spool, s.spool.trySend 0 item = .ok spool ∧ s' = { s with spool } := by
  simp only [next] at hnext
  split at hnext
  · next spool hput =>
    cases hnext
    exact ⟨spool, hput, rfl⟩
  · cases hnext

theorem next_read (hnext : s.next .read = some s') :
    ∃ event events, s.events.recv = some (event, events) ∧ s' = { s with events } := by
  simp only [next] at hnext
  split_ifs at hnext
  split at hnext
  · next event events hrecv =>
    cases hnext
    exact ⟨event, events, hrecv, rfl⟩
  · cases hnext

end EventStream

end CmppProtocol
