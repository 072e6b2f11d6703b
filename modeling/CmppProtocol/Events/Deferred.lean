import CmppProtocol.Events.Capacity
import CmppProtocol.Events.Refinement
import Mathlib.Data.List.Flatten

/-! # Deferred events

The tickets stand in the spool in the order in which they were reserved. Where
no item carries a DELIVER itself, the DELIVERs of the public channel are the
published ones of a part of these tickets, in the same order.
-/

namespace CmppProtocol

def Event.deliver? : Event → Option Deliver
  | .deliver message => some message
  | _ => none

def EventSpoolItem.ticket? : EventSpoolItem → Option ℕ
  | .deferred ticket => some ticket
  | _ => none

def SpoolUnit.ticket? : SpoolUnit → Option ℕ
  | .ticket number => some number
  | .event _ => none

/-- The item carries no DELIVER itself. -/
def EventSpoolItem.IsPlain (item : EventSpoolItem) : Prop :=
  ∀ event, .event event ∈ item.units → event.deliver? = none

theorem EventSpoolItem.units_ticket? (item : EventSpoolItem) :
    item.units.filterMap SpoolUnit.ticket? = item.ticket?.toList := by
  cases item with
  | batch events =>
    change (events.map SpoolUnit.event).filterMap SpoolUnit.ticket? = []
    rw [List.filterMap_map]
    exact List.filterMap_eq_nil_iff.mpr fun _ _ => rfl
  | _ => rfl

theorem tickets_of_units (items : List EventSpoolItem) :
    (items.flatMap EventSpoolItem.units).filterMap SpoolUnit.ticket? =
      items.filterMap EventSpoolItem.ticket? := by
  induction items with
  | nil => rfl
  | cons item items ih =>
    rw [List.flatMap_cons, List.filterMap_append, ih, item.units_ticket?, List.filterMap_cons]
    cases item.ticket? with
    | none => rfl
    | some ticket => rfl

/-- The DELIVERs among the events that were sent, and the tickets that brought them. -/
theorem delivers_of_settles {tickets : ℕ → EventTicket} {units : List SpoolUnit}
    {outcomes : List DispatchOutcome} (h : List.Forall₂ (SpoolUnit.Settles tickets) units outcomes)
    (hplain : ∀ event, .event event ∈ units → event.deliver? = none) :
    ∃ shown, shown.Sublist (units.filterMap SpoolUnit.ticket?) ∧
      List.Forall₂ (fun ticket deliver => tickets ticket = .published (.deliver deliver)) shown
        ((outcomes.filterMap DispatchOutcome.event?).filterMap Event.deliver?) := by
  induction h with
  | nil => exact ⟨[], .slnil, .nil⟩
  | @cons unit outcome units outcomes hsettles _ ih =>
    obtain ⟨shown, hshown, hdelivers⟩ :=
      ih fun event hmem => hplain event (List.mem_cons_of_mem _ hmem)
    have hrest : shown.Sublist ((unit :: units).filterMap SpoolUnit.ticket?) :=
      hshown.trans ((List.sublist_cons_self unit units).filterMap _)
    cases hsettles with
    | @sent _ event hcarries =>
      cases event with
      | deliver deliver =>
        rcases hcarries with rfl | ⟨ticket, rfl, hpublished⟩
        · cases hplain _ List.mem_cons_self
        · exact ⟨ticket :: shown, hshown.cons_cons ticket, .cons hpublished hdelivers⟩
      | _ => exact ⟨shown, hrest, hdelivers⟩
    | _ => exact ⟨shown, hrest, hdelivers⟩

namespace EventStream

variable {spoolCapacity capacity : ℕ} {s s' : EventStream spoolCapacity capacity}

/-- The tickets of the spool, in order. -/
def deferredTickets (s : EventStream spoolCapacity capacity) : List ℕ :=
  s.spool.sent.filterMap EventSpoolItem.ticket?

theorem mem_deferredTickets {ticket : ℕ} :
    ticket ∈ s.deferredTickets ↔ .deferred ticket ∈ s.spool.sent := by
  unfold deferredTickets
  rw [List.mem_filterMap]
  constructor
  · rintro ⟨item, hmem, hticket⟩
    cases item with
    | deferred number =>
      obtain rfl := Option.some.inj hticket
      exact hmem
    | _ => cases hticket
  · intro hmem
    exact ⟨_, hmem, rfl⟩

/-- Behind the ordinary events the reason of the end at most is sent. -/
def Ended (s : EventStream spoolCapacity capacity) : Prop :=
  ∃ last : Option Error, s.events.sent = s.sentEvents ++ (last.map Event.disconnected).toList

theorem terminate_events (reason : Option Error) : (s.terminate reason).outcomes = s.outcomes ∧
    ∃ last : Option Error, (s.terminate reason).events.sent =
      s.events.sent ++ (last.map Event.disconnected).toList := by
  unfold EventStream.terminate
  split
  · exact ⟨rfl, none, (List.append_nil _).symm⟩
  · next error =>
    split
    · next events hput => exact ⟨rfl, some error, (Channel.trySend_ok hput).sent⟩
    · exact ⟨rfl, none, (List.append_nil _).symm⟩

theorem tryDispatch_stage (event : Event) (rest : List Event) :
    (s.tryDispatch event rest).stage ≠ .exited := by
  unfold EventStream.tryDispatch
  split
  · rintro ⟨⟩
  · exact (failDispatch_stage event rest .closed).2
  · rintro ⟨⟩

/-- The dispatcher ends without settling anything. -/
theorem exits_of_dispatcher {event : DispatcherEvent} (hnext : s.dispatcherNext event = some s')
    (hexited : s'.stage = .exited) : s'.outcomes = s.outcomes ∧
      ∃ last : Option Error,
        s'.events.sent = s.events.sent ++ (last.map Event.disconnected).toList := by
  cases dispatcherNext_move hnext with
  | take item spool _ _ =>
    cases item with
    | direct event => cases hexited
    | batch events => cases hexited
    | deferred ticket =>
      unfold EventStream.startItem at hexited
      dsimp only at hexited
      split_ifs at hexited
      cases hexited
    | terminal reason => exact terminate_events reason
  | leave _ _ _ => exact ⟨rfl, none, (List.append_nil _).symm⟩
  | dispatch _ _ _ _ => exact absurd hexited (tryDispatch_stage _ _)
  | publish _ _ _ => exact absurd hexited (tryDispatch_stage _ _)
  | refused _ _ _ _ => exact absurd hexited (failDispatch_stage _ _ _).2
  | timeout _ _ _ => exact absurd hexited (failDispatch_stage _ _ _).2
  | finish _ | discard _ _ _ _ | published _ _ _ _ | abandoned _ _ _ | withhold _ _ _
    | reserved _ _ _ _ _
  | reported _ _ =>
    cases hexited

theorem exits_of_next (hrunning : s.stage ≠ .exited) {event : StreamEvent}
    (hnext : s.next event = some s') (hexited : s'.stage = .exited) : s'.outcomes = s.outcomes ∧
      ∃ last : Option Error,
        s'.events.sent = s.events.sent ++ (last.map Event.disconnected).toList := by
  cases event with
  | publish ticket event =>
    rw [(keepsTickets_of_resolve hnext).2] at hexited
    exact absurd hexited hrunning
  | abandon ticket =>
    rw [(keepsTickets_of_resolve hnext).2] at hexited
    exact absurd hexited hrunning
  | put item =>
    obtain ⟨spool, _, rfl⟩ := next_put hnext
    exact absurd hexited hrunning
  | countDropped count =>
    simp only [EventStream.next] at hnext
    split_ifs at hnext
    cases hnext
    exact absurd hexited hrunning
  | read =>
    obtain ⟨event, events, _, rfl⟩ := next_read hnext
    exact absurd hexited hrunning
  | dispatcher event => exact exits_of_dispatcher hnext hexited
  | _ =>
    cases hnext
    exact absurd hexited hrunning

theorem ended_run {history : List StreamEvent} (hcapacity : 2 ≤ capacity)
    (hrun : (machine spoolCapacity capacity).Run history s) : s.Ended := by
  refine (hrun.invariant (I := fun history s =>
    (machine spoolCapacity capacity).Run history s ∧ s.Ended) ?_ ?_).2
  · rintro s rfl
    exact ⟨Machine.Run.start rfl, none, rfl⟩
  · rintro history s event s' ⟨hrun, last, hlast⟩ hnext
    have hrun' := hrun.snoc hnext
    refine ⟨hrun', ?_⟩
    by_cases hexited' : s'.stage = .exited
    · by_cases hexited : s.stage = .exited
      · obtain ⟨_, hsent, houtcomes⟩ := next_of_exited hexited hnext
        refine ⟨last, ?_⟩
        rw [hsent, hlast, sentEvents, sentEvents, houtcomes]
      · obtain ⟨houtcomes, last, hsent⟩ := exits_of_next hexited hnext hexited'
        refine ⟨last, ?_⟩
        rw [hsent, (inv_run hcapacity hrun).sent hexited, sentEvents, sentEvents, houtcomes]
    · exact ⟨none, ((inv_run hcapacity hrun').sent hexited').trans (List.append_nil _).symm⟩

theorem Ended.delivers (h : s.Ended) :
    s.events.sent.filterMap Event.deliver? = s.sentEvents.filterMap Event.deliver? := by
  obtain ⟨last, hlast⟩ := h
  rw [hlast, List.filterMap_append]
  cases last with
  | none => exact List.append_nil _
  | some reason => exact List.append_nil _

/-- The DELIVERs of the public channel come from tickets of the spool, in their order. -/
theorem delivers_run {history : List StreamEvent} (hcapacity : 2 ≤ capacity)
    (hrun : (machine spoolCapacity capacity).Run history s)
    (hplain : ∀ item ∈ s.spool.sent, item.IsPlain) :
    ∃ shown, shown.Sublist s.deferredTickets ∧
      List.Forall₂ (fun ticket deliver => s.tickets ticket = .published (.deliver deliver)) shown
        (s.events.sent.filterMap Event.deliver?) := by
  obtain ⟨work, hsettled, _⟩ := (inv_run hcapacity hrun).settled
  obtain ⟨done, htaken, hdone⟩ := hsettled.units
  have hfront : done.Sublist (s.spool.sent.flatMap EventSpoolItem.units) := by
    calc
      done.Sublist s.takenUnits := htaken ▸ List.sublist_append_left done work
      s.takenUnits.Sublist (s.spool.sent.flatMap EventSpoolItem.units) :=
        (List.take_sublist _ _).flatMap _
  have hunits (event : Event) (hmem : .event event ∈ done) : event.deliver? = none := by
    obtain ⟨item, hitem, hunit⟩ := List.mem_flatMap.mp (hfront.subset hmem)
    exact hplain item hitem event hunit
  obtain ⟨shown, hshown, hdelivers⟩ := delivers_of_settles hdone hunits
  rw [(ended_run hcapacity hrun).delivers]
  refine ⟨shown, hshown.trans ?_, hdelivers⟩
  rw [deferredTickets, ← tickets_of_units]
  exact hfront.filterMap _

/-- A step of the dispatcher leaves the tickets alone. -/
theorem tickets_of_dispatcher {event : DispatcherEvent} (hnext : s.dispatcherNext event = some s') :
    s'.tickets = s.tickets := by
  have hterminate {t : EventStream spoolCapacity capacity} (reason : Option Error) :
      (t.terminate reason).tickets = t.tickets := by
    obtain ⟨events, hends⟩ := terminate_eq (s := t) reason
    rw [hends]
    rfl
  have htry (event : Event) (rest : List Event) :
      (s.tryDispatch event rest).tickets = s.tickets := by
    unfold EventStream.tryDispatch
    split <;> rfl
  cases dispatcherNext_move hnext with
  | take item spool _ _ =>
    cases item with
    | direct event => rfl
    | batch events => rfl
    | deferred ticket =>
      unfold EventStream.startItem
      dsimp only
      split_ifs <;> rfl
    | terminal reason => exact hterminate reason
  | dispatch _ _ _ _ => exact htry _ _
  | publish _ _ _ => exact htry _ _
  | _ => rfl

end EventStream

namespace EventSpool

variable {eventSpoolCapacity capacity : ℕ} {s s' : EventSpool eventSpoolCapacity capacity}

/-- No item that was put or is to be put carries a DELIVER itself. -/
structure Plain (s : EventSpool eventSpoolCapacity capacity) : Prop where
  items : ∀ item ∈ s.stream.spool.sent, item.IsPlain
  holder : ∀ holder, s.holder = some holder → holder.item.IsPlain

/-- The call of `reserve_deferred_event` that holds the admission lock. -/
def deferredHolder (s : EventSpool eventSpoolCapacity capacity) : Option AdmissionHolder :=
  s.holder.filter fun holder => holder.item.isDeferred

/-- The step is not one of the reader that reserves a ticket, nor of the owner of a ticket. -/
def sparesTickets (s : EventSpool eventSpoolCapacity capacity) : SpoolEvent → Bool
  | .emitEvent event => event.deliver?.isNone
  | .raise | .send => s.deferredHolder.isNone
  | .reserveDeferredEvent | .publish _ _ | .dropTicket _ => false
  | _ => true

/-- What such a step leaves. -/
structure Spares (s s' : EventSpool eventSpoolCapacity capacity) : Prop where
  tickets : s'.stream.tickets = s.stream.tickets
  deferred : s'.stream.deferredTickets = s.stream.deferredTickets
  ticketsPending : s'.ticketsPending = s.ticketsPending
  nextTicket : s'.nextTicket = s.nextTicket
  holder : s'.deferredHolder = s.deferredHolder
  plain : s.Plain → s'.Plain

theorem Spares.refl (s : EventSpool eventSpoolCapacity capacity) : s.Spares s :=
  ⟨rfl, rfl, rfl, rfl, rfl, fun h => h⟩

theorem Spares.of_same (htickets : s'.stream.tickets = s.stream.tickets)
    (hsent : s'.stream.spool.sent = s.stream.spool.sent)
    (hpending : s'.ticketsPending = s.ticketsPending) (hnumber : s'.nextTicket = s.nextTicket)
    (hholder : s'.holder = s.holder) : s.Spares s' := by
  refine ⟨htickets, ?_, hpending, hnumber, ?_, fun h => ⟨hsent ▸ h.items, hholder ▸ h.holder⟩⟩
  · rw [EventStream.deferredTickets, hsent]
    rfl
  · rw [deferredHolder, hholder]
    rfl

/-- An item that is not a ticket and carries no DELIVER is put. -/
theorem Spares.of_put {item : EventSpoolItem} (hticket : item.ticket? = none)
    (hitem : s.Plain → item.IsPlain) (hput : s.trySend item = .ok s') : s.Spares s' := by
  obtain ⟨spool, hspool, rfl⟩ := trySend_ok hput
  have hsent := (Channel.trySend_ok hspool).sent
  refine ⟨rfl, ?_, rfl, rfl, rfl, fun h => ⟨?_, h.holder⟩⟩
  · change spool.sent.filterMap _ = _
    rw [hsent, List.filterMap_append, List.filterMap_cons, hticket]
    exact List.append_nil _
  · change ∀ item ∈ spool.sent, item.IsPlain
    rw [hsent, List.forall_mem_append]
    exact ⟨h.items, List.forall_mem_singleton.mpr (hitem h)⟩

theorem spares_enter (hholder : s.holder = none) {event : Event} (hevent : event.deliver? = none) :
    s.Spares (s.enter (.direct event)) := by
  have hplain : (EventSpoolItem.direct event).IsPlain := by
    intro other hmem
    cases List.mem_singleton.mp hmem
    exact hevent
  have hfree : s.deferredHolder = none := by
    rw [deferredHolder, hholder]
    rfl
  unfold enter
  split_ifs
  · refine ⟨rfl, rfl, rfl, rfl, hfree.symm, fun h => ⟨h.items, ?_⟩⟩
    rintro _ ⟨⟩
    exact hplain
  · refine ⟨rfl, rfl, rfl, rfl, hfree.symm, fun h => ⟨h.items, ?_⟩⟩
    rintro _ ⟨⟩
    exact hplain

/-- The holder is a call of `emit_event`. -/
theorem isDeferred_of_free {holder : AdmissionHolder} (hholder : s.holder = some holder)
    (hfree : s.deferredHolder = none) : holder.item.isDeferred = false := by
  rw [deferredHolder, hholder, Option.filter_some] at hfree
  split_ifs at hfree with hdeferred
  exact Bool.eq_false_of_not_eq_true hdeferred

theorem ticket?_of_not_isDeferred {item : EventSpoolItem} (h : item.isDeferred = false) :
    item.ticket? = none := by
  cases item with
  | deferred ticket => cases h
  | _ => rfl

theorem spares_raiseHolder {holder : AdmissionHolder} (hholder : s.holder = some holder)
    (hfree : s.deferredHolder = none) : s.Spares (s.raiseHolder holder) := by
  have hdeferred := isDeferred_of_free hholder hfree
  refine ⟨rfl, rfl, ?_, ?_, ?_, fun h => ⟨h.items, ?_⟩⟩
  · simp only [raiseHolder, hdeferred, Bool.false_eq_true, if_false, Nat.add_zero]
  · simp only [raiseHolder, hdeferred, Bool.false_eq_true, if_false, Nat.add_zero]
  · rw [hfree, deferredHolder]
    change Option.filter _ (some _) = none
    rw [Option.filter_some, if_neg (by rw [hdeferred]; exact Bool.false_ne_true)]
  · rintro _ ⟨⟩
    exact h.holder holder hholder

theorem spares_sendHolder {holder : AdmissionHolder} (hholder : s.holder = some holder)
    (hfree : s.deferredHolder = none) : s.Spares (s.sendHolder holder) := by
  have hdeferred := isDeferred_of_free hholder hfree
  unfold sendHolder
  split
  · next hput =>
    have hspares := Spares.of_put (ticket?_of_not_isDeferred hdeferred)
      (fun h => h.holder holder hholder) hput
    exact ⟨hspares.tickets, hspares.deferred, hspares.ticketsPending, hspares.nextTicket,
      hfree.symm, fun h => ⟨(hspares.plain h).items, by rintro _ ⟨⟩⟩⟩
  · refine ⟨rfl, rfl, ?_, rfl, hfree.symm, fun h => ⟨h.items, by rintro _ ⟨⟩⟩⟩
    simp only [hdeferred, Bool.false_eq_true, if_false, Nat.sub_zero]

theorem spares_cleanupNext {index : ℕ} {event : TeardownEvent}
    (hnext : s.cleanupNext index event = some s') : s.Spares s' := by
  unfold cleanupNext at hnext
  cases event with
  | drain order =>
    dsimp only at hnext
    split at hnext
    · split_ifs at hnext
      cases hnext
      exact .of_same rfl rfl rfl rfl rfl
    · cases hnext
  | sendBatch =>
    dsimp only at hnext
    split at hnext
    · next batch batches _ =>
      split at hnext
      · next hput =>
        cases hnext
        have hplain : (EventSpoolItem.batch (batch.map .submitDropped)).IsPlain := by
          intro event hmem
          obtain ⟨other, hother, heq⟩ := List.mem_map.mp hmem
          cases heq
          obtain ⟨sequenceId, _, rfl⟩ := List.mem_map.mp hother
          rfl
        have hspares := Spares.of_put rfl (fun _ => hplain) hput
        exact ⟨hspares.tickets, hspares.deferred, hspares.ticketsPending, hspares.nextTicket,
          hspares.holder, fun h => ⟨(hspares.plain h).items, (hspares.plain h).holder⟩⟩
      · cases hnext
        exact .refl s
      · cases hnext
        exact .of_same rfl rfl rfl rfl rfl
    · cases hnext
  | closeSpool =>
    dsimp only at hnext
    split at hnext
    · split_ifs at hnext
      cases hnext
      unfold closeEventSpool
      split_ifs
      · exact .of_same rfl rfl rfl rfl rfl
      · exact .of_same rfl rfl rfl rfl rfl
    · cases hnext
  | abort =>
    dsimp only at hnext
    split at hnext
    · cases hnext
      exact .of_same rfl rfl rfl rfl rfl
    · cases hnext
      exact .of_same rfl rfl rfl rfl rfl
    · cases hnext
  | _ =>
    dsimp only at hnext
    split at hnext
    · cases hnext
      exact .of_same rfl rfl rfl rfl rfl
    · cases hnext

theorem spares_sendTerminal (reason : Option Error) : s.Spares (s.sendTerminal reason) := by
  unfold sendTerminal
  split
  · next hput =>
    have hplain : (EventSpoolItem.terminal reason).IsPlain := by
      intro event hmem
      cases hmem
    have hspares := Spares.of_put rfl (fun _ => hplain) hput
    exact ⟨hspares.tickets, hspares.deferred, hspares.ticketsPending, hspares.nextTicket,
      hspares.holder, fun h => ⟨(hspares.plain h).items, (hspares.plain h).holder⟩⟩
  · exact .refl s
  · exact .of_same rfl rfl rfl rfl rfl

theorem spares_ownedNext {event : SpoolEvent} (hspares : s.sparesTickets event = true)
    (hnext : s.ownedNext event = some s') : s.Spares s' := by
  cases ownedNext_move hnext with
  | emitEvent event hholder _ =>
    have hevent := Option.isNone_iff_eq_none.mp hspares
    exact spares_enter hholder hevent
  | reserveDeferredEvent _ _ => cases hspares
  | raise holder hholder _ =>
    have hfree := Option.isNone_iff_eq_none.mp hspares
    exact spares_raiseHolder hholder hfree
  | send holder hholder _ =>
    have hfree := Option.isNone_iff_eq_none.mp hspares
    exact spares_sendHolder hholder hfree
  | publish _ _ _ _ => cases hspares
  | dropTicket _ _ _ => cases hspares
  | still _ _ _ => exact .refl s
  | cleanup _ _ _ hnext => exact spares_cleanupNext hnext
  | sendTerminal reason _ => exact spares_sendTerminal reason
  | emitDropped _ _ | beginEventDrain _ _ | sealed _ _ _ _ | admitSubmit _ _ | settleSubmit _
    | finish _ | fallback _ | takeReason _ _ =>
    exact .of_same rfl rfl rfl rfl rfl

theorem spares_next {event : SpoolEvent} (hspares : s.sparesTickets event = true)
    (hnext : s.next event = some s') : s.Spares s' := by
  cases next_move hnext with
  | dropConnection _ => exact .of_same rfl rfl rfl rfl rfl
  | read _ hread =>
    obtain ⟨event, events, _, rfl⟩ := EventStream.next_read hread
    exact .of_same rfl rfl rfl rfl rfl
  | dropReceiver => exact .of_same rfl rfl rfl rfl rfl
  | backpressure _ _ _ hstream =>
    exact .of_same (EventStream.tickets_of_dispatcher hstream)
      (EventStream.dispatched hstream).sent rfl rfl rfl
  | dispatcher _ _ hstream =>
    exact .of_same (EventStream.tickets_of_dispatcher hstream)
      (EventStream.dispatched hstream).sent rfl rfl rfl
  | owned _ _ _ hnext => exact spares_ownedNext hspares hnext

/-! ## One ticket -/

/-- The guard of a ticket whose item is about to be put. -/
def raisedTickets (s : EventSpool eventSpoolCapacity capacity) : ℕ :=
  s.deferredHolder.elim 0 fun holder => if holder.raised then 1 else 0

theorem Spares.raisedTickets (h : s.Spares s') : s'.raisedTickets = s.raisedTickets :=
  congrArg (fun holder => Option.elim holder 0 _) h.holder

/-- A ticket is published or given up, and nothing else happens. -/
structure Settled (s s' : EventSpool eventSpoolCapacity capacity) (ticket : ℕ)
    (state : EventTicket) :
    Prop where
  reserved : s.stream.tickets ticket = .reserved
  tickets : s'.stream.tickets =
    fun other => if other = ticket then state else s.stream.tickets other
  spool : s'.stream.spool = s.stream.spool
  ticketsPending : s'.ticketsPending = s.ticketsPending - 1
  nextTicket : s'.nextTicket = s.nextTicket
  holder : s'.holder = s.holder

theorem Settled.deferredTickets {ticket : ℕ} {state : EventTicket} (h : s.Settled s' ticket state) :
    s'.stream.deferredTickets = s.stream.deferredTickets :=
  congrArg (fun spool => spool.sent.filterMap EventSpoolItem.ticket?) h.spool

theorem Settled.deferredHolder {ticket : ℕ} {state : EventTicket} (h : s.Settled s' ticket state) :
    s'.deferredHolder = s.deferredHolder :=
  congrArg (Option.filter _) h.holder

theorem settled_settleTicket {ticket : ℕ} {state : EventTicket}
    (hnext : s.settleTicket ticket state = some s') : s.Settled s' ticket state := by
  unfold settleTicket at hnext
  split_ifs at hnext
  obtain ⟨stream, hresolve, rfl⟩ := Option.map_eq_some_iff.mp hnext
  unfold EventStream.resolve at hresolve
  split at hresolve
  · next hreserved =>
    cases hresolve
    exact ⟨hreserved, rfl, rfl, rfl, rfl, rfl⟩
  · cases hresolve

theorem settled_publish {ticket : ℕ} {event : Event}
    (hnext : s.next (.publish ticket event) = some s') :
    s.Settled s' ticket (.published event) := by
  simp only [next] at hnext
  split_ifs at hnext
  exact settled_settleTicket hnext

theorem settled_dropTicket {ticket : ℕ} (hnext : s.next (.dropTicket ticket) = some s') :
    s.Settled s' ticket .abandoned := by
  simp only [next] at hnext
  split_ifs at hnext
  exact settled_settleTicket hnext

theorem deferred_isPlain (ticket : ℕ) : (EventSpoolItem.deferred ticket).IsPlain := by
  intro event hmem
  cases List.mem_singleton.mp hmem

/-- The admission lock was free, and the call goes on with a ticket or has failed. -/
theorem next_reserve (hnext : s.next .reserveDeferredEvent = some s') :
    s.deferredHolder = none ∧
    ((s.Admits ∧ s'.stream = s.stream ∧ s'.ticketsPending = s.ticketsPending ∧
      s'.nextTicket = s.nextTicket ∧
      ∃ hasCapacity, s'.holder = some ⟨.deferred s.nextTicket, hasCapacity, false⟩) ∨
    (¬ s.Admits ∧ s' = s)) := by
  simp only [next, ownedNext] at hnext
  split_ifs at hnext with _ hholder
  cases hnext
  refine ⟨by rw [deferredHolder, hholder]; rfl, ?_⟩
  have henter (hadmits : s.Admits) : s.Admits ∧
      (s.enter (.deferred s.nextTicket)).stream = s.stream ∧
      (s.enter (.deferred s.nextTicket)).ticketsPending = s.ticketsPending ∧
      (s.enter (.deferred s.nextTicket)).nextTicket = s.nextTicket ∧ ∃ hasCapacity,
      (s.enter (.deferred s.nextTicket)).holder =
        some ⟨.deferred s.nextTicket, hasCapacity, false⟩ := by
    unfold enter
    split_ifs
    · exact ⟨hadmits, rfl, rfl, rfl, true, rfl⟩
    · exact ⟨hadmits, rfl, rfl, rfl, false, rfl⟩
  have hrefuses {state : EventAdmissionState} (hstate : s.admission = state)
      (hopened : state ≠ .opened) (hdraining : state ≠ .draining) : ¬ s.Admits := by
    rintro (h | h)
    · exact hopened (hstate.symm.trans h)
    · exact hdraining (hstate.symm.trans h)
  unfold reserveDeferredEvent
  split
  · next hopened => exact Or.inl (henter (Or.inl hopened))
  · next hdraining => exact Or.inl (henter (Or.inr hdraining))
  · next hstate => exact Or.inr ⟨hrefuses hstate (by rintro ⟨⟩) (by rintro ⟨⟩), rfl⟩
  · next hstate => exact Or.inr ⟨hrefuses hstate (by rintro ⟨⟩) (by rintro ⟨⟩), rfl⟩
  · next hstate => exact Or.inr ⟨hrefuses hstate (by rintro ⟨⟩) (by rintro ⟨⟩), rfl⟩

section Holder

variable {ticket : ℕ} {hasCapacity raised : Bool}
  (hdeferred : s.deferredHolder = some ⟨.deferred ticket, hasCapacity, raised⟩)
include hdeferred

theorem holder_of_deferred : s.holder = some ⟨.deferred ticket, hasCapacity, raised⟩ :=
  (Option.filter_eq_some_iff.mp hdeferred).1

theorem next_raise (hnext : s.next .raise = some s') : raised = false ∧
    s'.stream.spool = s.stream.spool ∧ s'.stream.tickets = s.stream.tickets ∧
    s'.holder = some ⟨.deferred ticket, hasCapacity, true⟩ ∧
    s'.ticketsPending = s.ticketsPending + 1 ∧ s'.nextTicket = s.nextTicket + 1 := by
  simp only [next, ownedNext, holder_of_deferred hdeferred] at hnext
  split_ifs at hnext with _ hraised
  cases hnext
  exact ⟨Bool.eq_false_of_not_eq_true hraised, rfl, rfl, rfl, rfl, rfl⟩

/-- The item of the ticket is put, or the ticket was in vain. -/
theorem next_send (hnext : s.next .send = some s') : raised = true ∧
    s'.stream.tickets = s.stream.tickets ∧ s'.holder = none ∧ s'.nextTicket = s.nextTicket ∧
    ((∃ spool, s.trySend (.deferred ticket) = .ok spool) ∧ s'.ticketsPending = s.ticketsPending ∧
      s'.stream.spool.sent = s.stream.spool.sent ++ [.deferred ticket] ∨
    (∃ error, s.trySend (.deferred ticket) = .error error) ∧
      s'.ticketsPending = s.ticketsPending - 1 ∧
      s'.stream.spool.sent = s.stream.spool.sent) := by
  simp only [next, ownedNext, holder_of_deferred hdeferred] at hnext
  split_ifs at hnext with _ hraised
  cases hnext
  refine ⟨hraised, ?_⟩
  unfold sendHolder
  dsimp only
  split
  · next hput =>
    obtain ⟨spool, hspool, rfl⟩ := trySend_ok hput
    exact ⟨rfl, rfl, rfl, Or.inl ⟨⟨_, hput⟩, rfl, (Channel.trySend_ok hspool).sent⟩⟩
  · next error hput => exact ⟨rfl, rfl, rfl, Or.inr ⟨⟨error, hput⟩, rfl, rfl⟩⟩

end Holder

end EventSpool

end CmppProtocol
