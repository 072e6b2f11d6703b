import CmppProtocol.Events.Admission

/-! # What the public channel can show

An event comes to the public channel from an item of the spool, through a ticket
or as the reason of the last item. What holds of every event that is put in
holds of every event that comes out.
-/

namespace CmppProtocol

def EventSpoolItem.Shows (p : Event → Prop) : EventSpoolItem → Prop
  | .direct event => p event
  | .batch events => ∀ event ∈ events, p event
  | .deferred _ => True
  | .terminal reason => ∀ error, reason = some error → p (.disconnected error)

/-- The events in the dispatcher's hand. -/
def DispatcherStage.events : DispatcherStage → List Event
  | .dispatching events => events
  | .publishing event => [event]
  | .reserving event rest => event :: rest
  | .closing rest => rest
  | _ => []

variable {p : Event → Prop}

namespace EventStream

variable {spoolCapacity capacity : ℕ} {s s' : EventStream spoolCapacity capacity}

structure Shows (p : Event → Prop) (s : EventStream spoolCapacity capacity) : Prop where
  items : ∀ item ∈ s.spool.sent, item.Shows p
  tickets : ∀ ticket event, s.tickets ticket = .published event → p event
  stage : ∀ event ∈ s.stage.events, p event
  sent : ∀ event ∈ s.events.sent, p event

section Dispatch

variable {event : Event} {rest : List Event}

theorem Shows.sendEvent (h : s.Shows p) {n : ℕ} {channel : Channel Event capacity}
    (hput : s.events.Sent channel n event) (hevents : ∀ e ∈ event :: rest, p e) :
    (s.sendEvent event rest channel).Shows p := by
  obtain ⟨hevent, hrest⟩ := List.forall_mem_cons.mp hevents
  refine ⟨h.items, h.tickets, hrest, ?_⟩
  change ∀ e ∈ channel.sent, p e
  rw [hput.sent, List.forall_mem_append]
  exact ⟨h.sent, List.forall_mem_singleton.mpr hevent⟩

theorem Shows.failDispatch (h : s.Shows p) (hrest : ∀ e ∈ rest, p e) (error : EventDispatchError) :
    (s.failDispatch event rest error).Shows p := by
  refine ⟨h.items, h.tickets, ?_, h.sent⟩
  unfold EventStream.failDispatch
  cases error with
  | closed => exact hrest
  | backpressure =>
    dsimp only
    split_ifs
    · exact hrest
    · exact hrest

theorem Shows.tryDispatch (h : s.Shows p) (hevents : ∀ e ∈ event :: rest, p e) :
    (s.tryDispatch event rest).Shows p := by
  unfold EventStream.tryDispatch
  split
  · next channel hput => exact h.sendEvent (Channel.trySend_ok hput) hevents
  · exact h.failDispatch (List.forall_mem_cons.mp hevents).2 .closed
  · exact ⟨h.items, h.tickets, hevents, h.sent⟩

theorem Shows.exit (h : s.Shows p) : s.exit.Shows p :=
  ⟨h.items, h.tickets, List.forall_mem_nil _, h.sent⟩

theorem Shows.terminate (h : s.Shows p) {reason : Option Error}
    (hreason : (EventSpoolItem.terminal reason).Shows p) : (s.terminate reason).Shows p := by
  unfold EventStream.terminate
  split
  · exact h.exit
  · next error =>
    split
    · next channel hput =>
      refine Shows.exit ⟨h.items, h.tickets, h.stage, ?_⟩
      rw [(Channel.trySend_ok hput).sent, List.forall_mem_append]
      exact ⟨h.sent, List.forall_mem_singleton.mpr (hreason error rfl)⟩
    · exact h.exit

theorem Shows.startItem (h : s.Shows p) {item : EventSpoolItem} (hitem : item.Shows p) :
    (s.startItem item).Shows p := by
  cases item with
  | direct event => exact ⟨h.items, h.tickets, List.forall_mem_singleton.mpr hitem, h.sent⟩
  | batch events => exact ⟨h.items, h.tickets, hitem, h.sent⟩
  | deferred ticket =>
    unfold EventStream.startItem
    dsimp only
    split_ifs
    · exact ⟨h.items, h.tickets, List.forall_mem_nil _, h.sent⟩
    · exact ⟨h.items, h.tickets, List.forall_mem_nil _, h.sent⟩
  | terminal reason =>
    have hdepth : Shows p { s with depthPermit := 1 } := ⟨h.items, h.tickets, h.stage, h.sent⟩
    exact hdepth.terminate hitem

end Dispatch

theorem Shows.dispatcherNext (h : s.Shows p) {event : DispatcherEvent}
    (hnext : s.dispatcherNext event = some s') : s'.Shows p := by
  have hstages := h.stage
  cases dispatcherNext_move hnext with
  | take item spool _ hrecv =>
    have hrecv := Channel.recv_some hrecv
    have hitem : item ∈ s.spool.sent := by
      apply List.mem_of_mem_drop (i := s.spool.taken)
      change item ∈ s.spool.queued
      rw [hrecv.queued]
      exact List.mem_cons_self
    have hspool : Shows p { s with spool } :=
      ⟨hrecv.sent ▸ h.items, h.tickets, h.stage, h.sent⟩
    exact hspool.startItem (h.items item hitem)
  | leave _ _ _ => exact h.exit
  | discard _ _ hstage _ =>
    rw [hstage] at hstages
    exact ⟨h.items, h.tickets, (List.forall_mem_cons.mp hstages).2, h.sent⟩
  | dispatch _ _ hstage _ =>
    rw [hstage] at hstages
    exact h.tryDispatch hstages
  | published _ _ _ hticket =>
    exact ⟨h.items, h.tickets, List.forall_mem_singleton.mpr (h.tickets _ _ hticket), h.sent⟩
  | publish _ hstage _ =>
    rw [hstage] at hstages
    exact h.tryDispatch hstages
  | reserved _ _ _ hstage hput =>
    rw [hstage] at hstages
    exact h.sendEvent (Channel.trySend_ok hput) hstages
  | refused _ _ hstage _ =>
    rw [hstage] at hstages
    exact h.failDispatch (List.forall_mem_cons.mp hstages).2 .closed
  | reported _ hstage =>
    rw [hstage] at hstages
    exact ⟨h.items, h.tickets, hstages, h.sent⟩
  | timeout _ _ hstage =>
    rw [hstage] at hstages
    exact h.failDispatch (List.forall_mem_cons.mp hstages).2 .backpressure
  | finish _ | abandoned _ _ _ | withhold _ _ _ =>
    exact ⟨h.items, h.tickets, List.forall_mem_nil _, h.sent⟩

theorem Shows.resolve (h : s.Shows p) {ticket : ℕ} {state : EventTicket}
    (hstate : ∀ event, state = .published event → p event)
    (hnext : s.resolve ticket state = some s') : s'.Shows p := by
  unfold EventStream.resolve at hnext
  split at hnext
  · cases hnext
    refine ⟨h.items, fun other event hother => ?_, h.stage, h.sent⟩
    dsimp only at hother
    split_ifs at hother
    · exact hstate event hother
    · exact h.tickets other event hother
  · cases hnext

theorem Shows.put (h : s.Shows p) {spool : Channel EventSpoolItem spoolCapacity}
    {item : EventSpoolItem} {n : ℕ} (hitem : item.Shows p) (hput : s.spool.Sent spool n item) :
    Shows p { s with spool } := by
  refine ⟨?_, h.tickets, h.stage, h.sent⟩
  rw [hput.sent, List.forall_mem_append]
  exact ⟨h.items, List.forall_mem_singleton.mpr hitem⟩

end EventStream

/-- The events that the step brings to the spool. -/
def SpoolEvent.Brings (p : Event → Prop) : SpoolEvent → Prop
  | .emitEvent event | .publish _ event => p event
  | .takeReason reason => (EventSpoolItem.terminal reason).Shows p
  | _ => True

namespace EventSpool

variable {eventSpoolCapacity capacity : ℕ} {s s' : EventSpool eventSpoolCapacity capacity}

structure Shows (p : Event → Prop) (s : EventSpool eventSpoolCapacity capacity) : Prop where
  stream : s.stream.Shows p
  holder : ∀ holder, s.holder = some holder → holder.item.Shows p
  terminal : ∀ reason, s.terminal = .sending reason → (EventSpoolItem.terminal reason).Shows p

theorem Shows.initial : (initial eventSpoolCapacity capacity).Shows p :=
  ⟨⟨List.forall_mem_nil _, by rintro _ _ ⟨⟩, List.forall_mem_nil _, List.forall_mem_nil _⟩,
    by rintro _ ⟨⟩, by rintro _ ⟨⟩⟩

/-- The counters and the states of the admission show nothing. -/
theorem Shows.congr (h : s.Shows p) (hspool : s'.stream.spool = s.stream.spool)
    (htickets : s'.stream.tickets = s.stream.tickets) (hstage : s'.stream.stage = s.stream.stage)
    (hevents : s'.stream.events = s.stream.events) (hholder : s'.holder = s.holder)
    (hterminal : s'.terminal = s.terminal) : s'.Shows p :=
  ⟨⟨hspool ▸ h.stream.items, htickets ▸ h.stream.tickets, hstage ▸ h.stream.stage,
    hevents ▸ h.stream.sent⟩, hholder ▸ h.holder, hterminal ▸ h.terminal⟩

theorem Shows.trySend (h : s.Shows p) {item : EventSpoolItem} (hitem : item.Shows p)
    (hput : s.trySend item = .ok s') : s'.Shows p := by
  obtain ⟨spool, hspool, rfl⟩ := trySend_ok hput
  exact ⟨h.stream.put hitem (Channel.trySend_ok hspool), h.holder, h.terminal⟩

theorem Shows.enter (h : s.Shows p) {item : EventSpoolItem} (hitem : item.Shows p) :
    (s.enter item).Shows p := by
  unfold EventSpool.enter
  split_ifs
  · refine ⟨h.stream, ?_, h.terminal⟩
    rintro holder ⟨⟩
    exact hitem
  · refine ⟨h.stream, ?_, h.terminal⟩
    rintro holder ⟨⟩
    exact hitem

theorem Shows.sendHolder (h : s.Shows p) {holder : AdmissionHolder}
    (hitem : holder.item.Shows p) : (s.sendHolder holder).Shows p := by
  unfold EventSpool.sendHolder
  split
  · next hput =>
    have hput := h.trySend hitem hput
    exact ⟨hput.stream, by rintro _ ⟨⟩, hput.terminal⟩
  · exact ⟨⟨h.stream.items, h.stream.tickets, h.stream.stage, h.stream.sent⟩, by rintro _ ⟨⟩,
      h.terminal⟩

theorem Shows.settleTicket (h : s.Shows p) {ticket : ℕ} {state : EventTicket}
    (hstate : ∀ event, state = .published event → p event)
    (hnext : s.settleTicket ticket state = some s') : s'.Shows p := by
  unfold EventSpool.settleTicket at hnext
  split_ifs at hnext
  obtain ⟨stream, hresolve, rfl⟩ := Option.map_eq_some_iff.mp hnext
  exact ⟨h.stream.resolve hstate hresolve, h.holder, h.terminal⟩

theorem Shows.takeReason (h : s.Shows p) {reason : Option Error}
    (hreason : (EventSpoolItem.terminal reason).Shows p) :
    Shows p { s.raiseDepth 1 with terminal := .sending reason } := by
  refine ⟨⟨h.stream.items, h.stream.tickets, h.stream.stage, h.stream.sent⟩, h.holder, ?_⟩
  rintro _ ⟨⟩
  exact hreason

theorem Shows.sendTerminal (h : s.Shows p) {reason : Option Error}
    (hreason : (EventSpoolItem.terminal reason).Shows p) : (s.sendTerminal reason).Shows p := by
  unfold EventSpool.sendTerminal
  split
  · next hput =>
    have hput := h.trySend hreason hput
    exact ⟨hput.stream, hput.holder, by rintro _ ⟨⟩⟩
  · exact h
  · exact ⟨⟨h.stream.items, h.stream.tickets, h.stream.stage, h.stream.sent⟩, h.holder,
      by rintro _ ⟨⟩⟩

section Cleanup

variable (hdropped : ∀ sequenceId, p (.submitDropped sequenceId))
include hdropped

theorem Shows.cleanupNext (h : s.Shows p) {index : ℕ} {event : TeardownEvent}
    (hnext : s.cleanupNext index event = some s') : s'.Shows p := by
  unfold EventSpool.cleanupNext at hnext
  cases event with
  | drain order =>
    dsimp only at hnext
    split at hnext
    · split_ifs at hnext
      cases hnext
      exact h.congr rfl rfl rfl rfl rfl rfl
    · cases hnext
  | takeBatch =>
    dsimp only at hnext
    split at hnext
    · cases hnext
      exact h.congr rfl rfl rfl rfl rfl rfl
    · cases hnext
  | sendBatch =>
    dsimp only at hnext
    split at hnext
    · next batch batches _ =>
      split at hnext
      · next hput =>
        cases hnext
        have hbatch : (EventSpoolItem.batch (batch.map .submitDropped)).Shows p := by
          intro event hmem
          obtain ⟨sequenceId, _, rfl⟩ := List.mem_map.mp hmem
          exact hdropped sequenceId
        exact (h.trySend hbatch hput).congr rfl rfl rfl rfl rfl rfl
      · cases hnext
        exact h
      · cases hnext
        exact h.congr rfl rfl rfl rfl rfl rfl
    · cases hnext
  | giveUp =>
    dsimp only at hnext
    split at hnext
    · cases hnext
      exact h.congr rfl rfl rfl rfl rfl rfl
    · cases hnext
  | closeSpool =>
    dsimp only at hnext
    split at hnext
    · split_ifs at hnext
      cases hnext
      unfold EventSpool.closeEventSpool
      split_ifs
      · exact h.congr rfl rfl rfl rfl rfl rfl
      · exact ⟨h.stream, h.holder, by rintro _ ⟨⟩⟩
    · cases hnext
  | abort =>
    dsimp only at hnext
    split at hnext
    · cases hnext
      exact h.congr rfl rfl rfl rfl rfl rfl
    · cases hnext
      exact h.congr rfl rfl rfl rfl rfl rfl
    · cases hnext

theorem Shows.ownedNext (h : s.Shows p) {event : SpoolEvent} (hbrings : event.Brings p)
    (hnext : s.ownedNext event = some s') : s'.Shows p := by
  cases ownedNext_move hnext with
  | emitEvent event _ _ => exact h.enter hbrings
  | reserveDeferredEvent _ _ => exact h.enter trivial
  | raise holder hholder _ =>
    refine ⟨⟨h.stream.items, h.stream.tickets, h.stream.stage, h.stream.sent⟩, ?_, h.terminal⟩
    rintro _ ⟨⟩
    exact h.holder holder hholder
  | send holder hholder _ => exact h.sendHolder (h.holder holder hholder)
  | publish ticket event _ hsettle =>
    refine h.settleTicket ?_ hsettle
    rintro _ ⟨⟩
    exact hbrings
  | dropTicket _ _ hsettle => exact h.settleTicket (by rintro _ ⟨⟩) hsettle
  | still _ _ _ => exact h
  | cleanup _ _ _ hnext => exact h.cleanupNext hdropped hnext
  | takeReason reason _ => exact h.takeReason hbrings
  | sendTerminal reason hsending => exact h.sendTerminal (h.terminal reason hsending)
  | emitDropped _ _ | beginEventDrain _ _ | sealed _ _ _ _ | admitSubmit _ _ | settleSubmit _
    | finish _ | fallback _ =>
    exact h.congr rfl rfl rfl rfl rfl rfl

theorem Shows.next (h : s.Shows p) {event : SpoolEvent} (hbrings : event.Brings p)
    (hnext : s.next event = some s') : s'.Shows p := by
  cases next_move hnext with
  | dropConnection _ => exact h.congr rfl rfl rfl rfl rfl rfl
  | read _ hread =>
    obtain ⟨event, events, hrecv, rfl⟩ := EventStream.next_read hread
    exact ⟨⟨h.stream.items, h.stream.tickets, h.stream.stage,
      (Channel.recv_some hrecv).sent ▸ h.stream.sent⟩, h.holder, h.terminal⟩
  | dropReceiver =>
    exact ⟨⟨h.stream.items, h.stream.tickets, h.stream.stage, h.stream.sent⟩, h.holder, h.terminal⟩
  | backpressure _ _ _ hstream => exact ⟨h.stream.dispatcherNext hstream, h.holder, h.terminal⟩
  | dispatcher _ _ hstream => exact ⟨h.stream.dispatcherNext hstream, h.holder, h.terminal⟩
  | owned _ _ _ hnext => exact h.ownedNext hdropped hbrings hnext

end Cleanup

end EventSpool

end CmppProtocol
