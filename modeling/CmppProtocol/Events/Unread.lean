import CmppProtocol.Events.Dispatcher
import CmppProtocol.Events.Spool

/-! # Events that nobody reads

An event that was sent to the public channel and that nobody reads takes a slot
there and changes nothing else. Behind such events a run goes on as it would in a
channel that is smaller by their number.
-/

namespace CmppProtocol

namespace EventStream

variable {spoolCapacity capacity : ℕ}

/-- The stream behind events that were sent and are not read. -/
def behind (unread : List Event) (s : EventStream spoolCapacity capacity) :
    EventStream spoolCapacity (capacity + unread.length) where
  spool := s.spool.after (unread.map .direct)
  tickets := s.tickets
  events := s.events.behind unread
  stage := s.stage
  discardEvents := s.discardEvents
  depthPermit := s.depthPermit
  eventDepth := s.eventDepth
  eventsDropped := s.eventsDropped
  alive := s.alive
  outcomes := unread.map .sent ++ s.outcomes
  droppedElsewhere := s.droppedElsewhere

variable (unread : List Event) (s : EventStream spoolCapacity capacity)

@[simp] theorem behind_spool : (s.behind unread).spool = s.spool.after (unread.map .direct) := rfl

@[simp] theorem behind_tickets : (s.behind unread).tickets = s.tickets := rfl

@[simp] theorem behind_events : (s.behind unread).events = s.events.behind unread := rfl

@[simp] theorem behind_stage : (s.behind unread).stage = s.stage := rfl

@[simp] theorem behind_discardEvents : (s.behind unread).discardEvents = s.discardEvents := rfl

@[simp] theorem behind_alive : (s.behind unread).alive = s.alive := rfl

theorem behind_settle (outcome : DispatchOutcome) :
    (s.behind unread).settle outcome = (s.settle outcome).behind unread := by
  unfold settle
  rw [show (s.behind unread).outcomes ++ [outcome] =
    unread.map .sent ++ (s.outcomes ++ [outcome]) from List.append_assoc _ _ _]
  rfl

theorem behind_exit : (s.behind unread).exit = s.exit.behind unread := by
  simp only [exit, behind, Channel.after_queued]
  rfl

theorem behind_failDispatch (event : Event) (rest : List Event) (error : EventDispatchError) :
    (s.behind unread).failDispatch event rest error =
      (s.failDispatch event rest error).behind unread := by
  unfold failDispatch
  rw [behind_settle]
  rfl

theorem behind_sendEvent (event : Event) (rest : List Event) (events : Channel Event capacity) :
    (s.behind unread).sendEvent event rest (events.behind unread) =
      (s.sendEvent event rest events).behind unread := by
  unfold sendEvent
  rw [behind_settle]
  rfl

theorem behind_tryDispatch (event : Event) (rest : List Event) :
    (s.behind unread).tryDispatch event rest = (s.tryDispatch event rest).behind unread := by
  unfold tryDispatch
  rw [behind_events, Channel.behind_trySend]
  cases s.events.trySend 1 event with
  | ok events => exact s.behind_sendEvent unread event rest events
  | error error =>
    cases error with
    | closed => exact s.behind_failDispatch unread event rest .closed
    | full => rfl

theorem behind_terminate (reason : Option Error) :
    (s.behind unread).terminate reason = (s.terminate reason).behind unread := by
  cases reason with
  | none => exact s.behind_exit unread
  | some reason =>
    unfold terminate
    dsimp only
    rw [behind_events, Channel.behind_trySend]
    cases s.events.trySend 0 (.disconnected reason) with
    | ok events => exact ({ s with events } : EventStream spoolCapacity capacity).behind_exit unread
    | error error => exact s.behind_exit unread

theorem behind_startItem (item : EventSpoolItem) :
    (s.behind unread).startItem item = (s.startItem item).behind unread := by
  cases item with
  | direct event => rfl
  | batch events => rfl
  | deferred ticket =>
    unfold startItem
    dsimp only
    rw [behind_discardEvents]
    split_ifs
    · exact congrArg finishItem (({ s with depthPermit := 1 } :
        EventStream spoolCapacity capacity).behind_settle unread (.skipped ticket))
    · rfl
  | terminal reason =>
    exact ({ s with depthPermit := 1 } : EventStream spoolCapacity capacity).behind_terminate
      unread reason

theorem behind_dispatcherAdvance :
    (s.behind unread).dispatcherAdvance = s.dispatcherAdvance.map (behind unread) := by
  unfold dispatcherAdvance
  rw [behind_stage]
  cases s.stage with
  | receiving =>
    dsimp only
    rw [behind_spool,
      Channel.after_recv]
    cases s.spool.recv with
    | none =>
      dsimp only [Option.map]
      rw [behind_alive, behind_exit]
      cases s.alive with
      | _ => rfl
    | some received =>
      exact congrArg some (({ s with spool := received.2 } :
        EventStream spoolCapacity capacity).behind_startItem unread received.1)
  | dispatching events =>
    cases events with
    | nil => rfl
    | cons event rest =>
      dsimp only
      rw [behind_discardEvents, behind_settle,
        behind_tryDispatch]
      cases s.discardEvents with
      | _ => rfl
  | awaiting ticket =>
    dsimp only
    rw [behind_tickets, behind_settle]
    cases s.tickets ticket with
    | _ => rfl
  | publishing event =>
    dsimp only
    rw [behind_discardEvents, behind_tryDispatch]
    cases s.discardEvents with
    | _ => rfl
  | reserving event rest =>
    dsimp only
    rw [behind_events, Channel.behind_trySend]
    cases s.events.trySend 1 event with
    | ok events => exact congrArg some (s.behind_sendEvent unread event rest events)
    | error error =>
      cases error with
      | closed => exact congrArg some (s.behind_failDispatch unread event rest .closed)
      | full => rfl
  | closing rest => rfl
  | exited => rfl

theorem behind_dispatcherNext (event : DispatcherEvent) :
    (s.behind unread).dispatcherNext event = (s.dispatcherNext event).map (behind unread) := by
  cases event with
  | advance => exact s.behind_dispatcherAdvance unread
  | timeout =>
    unfold dispatcherNext
    dsimp only
    rw [behind_stage]
    cases s.stage with
    | reserving event rest =>
      exact congrArg some (s.behind_failDispatch unread event rest .backpressure)
    | _ => rfl

theorem behind_resolve (ticket : ℕ) (state : EventTicket) :
    (s.behind unread).resolve ticket state = (s.resolve ticket state).map (behind unread) := by
  unfold resolve
  rw [behind_tickets]
  cases s.tickets ticket with
  | _ => rfl

end EventStream

def SpoolEvent.isRead : SpoolEvent → Bool
  | .read => true
  | _ => false

namespace EventSpool

variable {eventSpoolCapacity capacity : ℕ}

def behind (unread : List Event) (s : EventSpool eventSpoolCapacity capacity) :
    EventSpool eventSpoolCapacity (capacity + unread.length) where
  stream := s.stream.behind unread
  admission := s.admission
  eventOverflowed := s.eventOverflowed
  holder := s.holder
  ticketsPending := s.ticketsPending
  nextTicket := s.nextTicket
  terminal := s.terminal
  closed := s.closed
  pending := s.pending
  cleanups := s.cleanups
  overflowing := s.overflowing

variable (unread : List Event) (s : EventSpool eventSpoolCapacity capacity)

@[simp] theorem behind_stream : (s.behind unread).stream = s.stream.behind unread := rfl

@[simp] theorem behind_holder : (s.behind unread).holder = s.holder := rfl

@[simp] theorem behind_admission : (s.behind unread).admission = s.admission := rfl

@[simp] theorem behind_closed : (s.behind unread).closed = s.closed := rfl

@[simp] theorem behind_terminal : (s.behind unread).terminal = s.terminal := rfl

@[simp] theorem behind_pending : (s.behind unread).pending = s.pending := rfl

@[simp] theorem behind_cleanups : (s.behind unread).cleanups = s.cleanups := rfl

@[simp] theorem behind_released : (s.behind unread).released = s.released := rfl

@[simp] theorem behind_sentEvents :
    (s.behind unread).stream.sentEvents = unread ++ s.stream.sentEvents := by
  change (unread.map DispatchOutcome.sent ++ s.stream.outcomes).filterMap DispatchOutcome.event? = _
  rw [List.filterMap_append, List.filterMap_map]
  exact congrArg (· ++ s.stream.sentEvents) List.filterMap_some

@[simp] theorem behind_units : (s.behind unread).stream.spool.sent.flatMap EventSpoolItem.units =
    unread.map .event ++ s.stream.spool.sent.flatMap EventSpoolItem.units := by
  change (unread.map EventSpoolItem.direct ++ s.stream.spool.sent).flatMap EventSpoolItem.units = _
  rw [List.flatMap_append, List.flatMap_map, List.map_eq_flatMap]
  rfl

theorem behind_trySend (item : EventSpoolItem) :
    (s.behind unread).trySend item = (s.trySend item).map (behind unread) := by
  unfold trySend
  rw [behind_stream, EventStream.behind_spool,
    Channel.after_trySend]
  cases s.stream.spool.trySend 0 item with
  | ok spool => rfl
  | error error => rfl

theorem behind_enter (item : EventSpoolItem) :
    (s.behind unread).enter item = (s.enter item).behind unread := by
  unfold enter
  change (if s.stream.eventDepth < eventSpoolCapacity then _ else _) = _
  split_ifs
  · rfl
  · rfl

theorem behind_emitEvent (event : Event) :
    (s.behind unread).emitEvent event = (s.emitEvent event).behind unread := by
  unfold emitEvent
  rw [behind_admission, behind_enter]
  cases s.admission with
  | _ => rfl

theorem behind_reserveDeferredEvent :
    (s.behind unread).reserveDeferredEvent = s.reserveDeferredEvent.behind unread := by
  unfold reserveDeferredEvent
  rw [behind_admission, behind_enter]
  cases s.admission with
  | _ => rfl

theorem behind_sendHolder (holder : AdmissionHolder) :
    (s.behind unread).sendHolder holder = (s.sendHolder holder).behind unread := by
  unfold sendHolder
  rw [behind_trySend]
  cases s.trySend holder.item with
  | ok s' => rfl
  | error error => rfl

theorem behind_settleTicket (ticket : ℕ) (state : EventTicket) :
    (s.behind unread).settleTicket ticket state =
      (s.settleTicket ticket state).map (behind unread) := by
  unfold settleTicket
  rw [behind_stream, EventStream.behind_resolve]
  change (if ticket < s.nextTicket then _ else none) = _
  split_ifs
  · cases s.stream.resolve ticket state with
    | none => rfl
    | some stream => rfl
  · rfl

theorem behind_sealIfIdle : (s.behind unread).sealIfIdle = s.sealIfIdle.behind unread := by
  unfold sealIfIdle
  change (if s.admission = .sealed ∨ s.admission = .terminal then _
    else if s.ticketsPending ≠ 0 then _ else _) = _
  split_ifs
  · rfl
  · rfl
  · rfl

theorem behind_sendTerminal (reason : Option Error) :
    (s.behind unread).sendTerminal reason = (s.sendTerminal reason).behind unread := by
  unfold sendTerminal
  rw [behind_trySend]
  cases s.trySend (.terminal reason) with
  | ok s' => rfl
  | error error =>
    cases error with
    | full => rfl
    | closed => rfl

theorem behind_cleanupNext (index : ℕ) (event : TeardownEvent) :
    (s.behind unread).cleanupNext index event =
      (s.cleanupNext index event).map (behind unread) := by
  unfold cleanupNext
  rw [behind_cleanups]
  cases s.cleanups[index]? with
  | none =>
    cases event with
    | _ => rfl
  | some stage =>
    cases event with
    | drain order =>
      cases stage with
      | starting =>
        dsimp only
        rw [behind_pending]
        split_ifs
        · rfl
        · rfl
      | _ => rfl
    | sendBatch =>
      cases stage with
      | holding batch batches =>
        dsimp only
        rw [behind_trySend]
        cases s.trySend (.batch (batch.map .submitDropped)) with
        | ok s' => rfl
        | error error =>
          cases error with
          | full => rfl
          | closed => rfl
      | _ => rfl
    | takeBatch =>
      cases stage with
      | sending batches =>
        cases batches with
        | nil => rfl
        | cons batch batches => rfl
      | _ => rfl
    | giveUp =>
      cases stage with
      | _ => rfl
    | closeSpool =>
      cases stage with
      | sending batches =>
        cases batches with
        | nil =>
          dsimp only
          rw [behind_holder]
          unfold closeEventSpool
          rw [behind_admission]
          split_ifs
          · rfl
          · rfl
          · rfl
        | cons batch batches => rfl
      | _ => rfl
    | abort =>
      cases stage with
      | _ => rfl

theorem behind_ownedNext (event : SpoolEvent) :
    (s.behind unread).ownedNext event = (s.ownedNext event).map (behind unread) := by
  cases event with
  | emitEvent event =>
    unfold ownedNext
    dsimp only
    rw [behind_holder, behind_emitEvent]
    split_ifs
    · rfl
    · rfl
  | reserveDeferredEvent =>
    unfold ownedNext
    dsimp only
    rw [behind_holder, behind_reserveDeferredEvent]
    split_ifs
    · rfl
    · rfl
  | raise =>
    unfold ownedNext
    dsimp only
    rw [behind_holder]
    cases s.holder with
    | none => rfl
    | some holder =>
      dsimp only
      split_ifs
      · rfl
      · rfl
  | send =>
    unfold ownedNext
    dsimp only
    rw [behind_holder]
    cases s.holder with
    | none => rfl
    | some holder =>
      dsimp only
      rw [behind_sendHolder]
      split_ifs
      · rfl
      · rfl
  | publish ticket event => exact s.behind_settleTicket unread ticket (.published event)
  | dropTicket ticket => exact s.behind_settleTicket unread ticket .abandoned
  | sealIfIdle =>
    unfold ownedNext
    dsimp only
    rw [behind_holder, behind_sealIfIdle]
    split_ifs
    · rfl
    · rfl
  | beginEventDrain =>
    unfold ownedNext beginEventDrain
    dsimp only
    rw [behind_holder,
      behind_admission]
    split_ifs
    · rfl
    · rfl
    · rfl
  | sealAdmission =>
    unfold ownedNext sealAdmission
    dsimp only
    rw [behind_holder,
      behind_admission]
    split_ifs
    · rfl
    · rfl
    · rfl
  | admitSubmit sequenceId =>
    unfold ownedNext
    dsimp only
    rw [behind_closed]
    split_ifs
    · rfl
    · rfl
  | finish =>
    unfold ownedNext
    dsimp only
    rw [behind_closed]
    split_ifs
    · rfl
    · rfl
  | fallback =>
    unfold ownedNext
    dsimp only
    rw [behind_closed]
    split_ifs
    · rfl
    · rfl
  | cleanup index event => exact s.behind_cleanupNext unread index event
  | takeReason reason =>
    unfold ownedNext
    dsimp only
    rw [behind_terminal]
    cases s.terminal with
    | _ => rfl
  | sendTerminal =>
    unfold ownedNext
    dsimp only
    rw [behind_terminal]
    cases s.terminal with
    | sending reason => exact congrArg some (s.behind_sendTerminal unread reason)
    | _ => rfl
  | _ => rfl

/-- Nobody reads, and every other step goes the same way. -/
theorem behind_next {event : SpoolEvent} (hread : event.isRead = false) :
    (s.behind unread).next event = (s.next event).map (behind unread) := by
  cases event with
  | read => cases hread
  | dropConnection =>
    unfold next
    dsimp only
    rw [behind_released]
    split_ifs
    · rfl
    · rfl
  | dropReceiver => rfl
  | dispatcher event =>
    unfold next
    dsimp only
    rw [behind_stream,
      EventStream.behind_dispatcherNext, EventStream.behind_stage,
      behind_holder]
    cases s.stream.stage with
    | closing rest =>
      dsimp only
      split_ifs
      · cases s.stream.dispatcherNext event with
        | _ => rfl
      · rfl
    | _ =>
      dsimp only
      cases s.stream.dispatcherNext event with
      | _ => rfl
  | _ =>
    unfold next
    dsimp only
    rw [behind_stream, EventStream.behind_alive, behind_ownedNext]
    split_ifs
    · rfl
    · rfl

theorem behind_exec {history : List SpoolEvent} (hread : ∀ event ∈ history, event.isRead = false) :
    Machine.exec next (s.behind unread) history =
      (Machine.exec next s history).map (behind unread) := by
  induction history generalizing s with
  | nil => rfl
  | cons event history ih =>
    rw [Machine.exec, Machine.exec, behind_next unread s (hread event List.mem_cons_self)]
    cases s.next event with
    | none => rfl
    | some s' => exact ih s' fun e he => hread e (List.mem_cons_of_mem _ he)

/-! ## A channel that is nearly full -/

/-- The event goes through the spool into the public channel. -/
def delivered (event : Event) : List SpoolEvent :=
  [.emitEvent event, .raise, .send] ++ List.replicate 3 (.dispatcher .advance)

theorem isRead_of_delivered (event : Event) : ∀ e ∈ delivered event, e.isRead = false := by
  simp [delivered, SpoolEvent.isRead]

theorem exec_delivered (hcapacity : 2 ≤ capacity) (event : Event) :
    Machine.exec next (initial (eventSpoolCapacity + 1) (capacity + 1)) (delivered event) =
      some ((initial (eventSpoolCapacity + 1) capacity).behind [event]) := by
  obtain ⟨n, rfl⟩ := Nat.exists_eq_add_of_le' hcapacity
  rfl

/-- Events are delivered that nobody reads, and the rest goes as in a channel with the slots that
are left. -/
theorem exec_unread (hcapacity : 2 ≤ capacity) (unread : List Event) {history : List SpoolEvent}
    (hread : ∀ event ∈ history, event.isRead = false) :
    Machine.exec next (initial (eventSpoolCapacity + 1) (capacity + unread.length))
        (unread.flatMap delivered ++ history) =
      (Machine.exec next (initial (eventSpoolCapacity + 1) capacity) history).map
        (behind unread) := by
  induction unread with
  | nil =>
    exact Option.map_id'.symm
  | cons event unread ih =>
    have hroom : 2 ≤ capacity + unread.length := hcapacity.trans (Nat.le_add_right _ _)
    have hrest : ∀ e ∈ unread.flatMap delivered ++ history, e.isRead = false := by
      intro e he
      rcases List.mem_append.mp he with he | he
      · obtain ⟨event', _, he⟩ := List.mem_flatMap.mp he
        exact isRead_of_delivered event' e he
      · exact hread e he
    rw [List.flatMap_cons, List.append_assoc, Machine.exec_append]
    have hfirst :
        Machine.exec next (initial (eventSpoolCapacity + 1) (capacity + unread.length + 1))
        (delivered event) = some ((initial _ _).behind [event]) := exec_delivered hroom event
    change (Machine.exec next (initial _ (capacity + unread.length + 1)) _).bind _ = _
    rw [hfirst]
    change Machine.exec next (behind [event] _) _ = _
    rw [behind_exec _ _ hrest, ih, Option.map_map]
    rfl

/-- What a run comes to behind the events that nobody reads. -/
theorem exists_exec_unread (hcapacity : 2 ≤ capacity) {unread : List Event} {total : ℕ}
    (htotal : capacity + unread.length = total) {history : List SpoolEvent}
    (hread : ∀ event ∈ history, event.isRead = false)
    {s : EventSpool (eventSpoolCapacity + 1) capacity}
    (hexec : Machine.exec next (initial _ _) history = some s) :
    ∃ s' : EventSpool (eventSpoolCapacity + 1) total,
      Machine.exec next (initial _ _) (unread.flatMap delivered ++ history) = some s' ∧
      s'.stream.stage = s.stream.stage ∧
      s'.stream.eventsDropped = s.stream.eventsDropped ∧
      s'.stream.outcomes = unread.map .sent ++ s.stream.outcomes ∧
      s'.stream.sentEvents = unread ++ s.stream.sentEvents ∧
      s'.stream.spool.sent.flatMap EventSpoolItem.units =
        unread.map .event ++ s.stream.spool.sent.flatMap EventSpoolItem.units := by
  subst htotal
  have hunread : Machine.exec next (initial (eventSpoolCapacity + 1) (capacity + unread.length))
      (unread.flatMap delivered ++ history) = _ := exec_unread hcapacity unread hread
  rw [hexec, Option.map_some] at hunread
  exact ⟨s.behind unread, hunread, rfl, rfl, rfl, behind_sentEvents unread s, behind_units unread s⟩

end EventSpool

end CmppProtocol
