import CmppProtocol.Events.Stream
import CmppProtocol.Library.History
import Mathlib.Data.List.Forall2

/-! # The dispatcher contract

The items of the spool are a list of units: an event each, or a ticket. The
dispatcher settles them in order, one outcome for each. What it sends is a
prefix of what was published in that order, everything else is counted, and a
slot of the public channel stays free for the reason of the end.
-/

namespace CmppProtocol

/-- One event of an ordinary item, or the ticket that stands for it. -/
inductive SpoolUnit
  | event (event : Event)
  | ticket (ticket : ℕ)
  deriving DecidableEq, Repr

def EventSpoolItem.units : EventSpoolItem → List SpoolUnit
  | .direct event => [.event event]
  | .batch events => events.map .event
  | .deferred ticket => [.ticket ticket]
  | .terminal _ => []

/-- The published events, in order, up to the first ticket that is neither published nor
given up. -/
def readyEvents (tickets : ℕ → EventTicket) : List SpoolUnit → List Event
  | [] => []
  | .event event :: units => event :: readyEvents tickets units
  | .ticket ticket :: units =>
    match tickets ticket with
    | .reserved => []
    | .published event => event :: readyEvents tickets units
    | .abandoned => readyEvents tickets units

namespace DispatchOutcome

def event? : DispatchOutcome → Option Event
  | .sent event => some event
  | _ => none

def isSent (outcome : DispatchOutcome) : Bool := outcome.event?.isSome

def isFailed : DispatchOutcome → Bool
  | .failed _ => true
  | _ => false

/-- The outcomes before the first failure. -/
def isCalm : DispatchOutcome → Bool
  | .sent _ | .abandoned _ => true
  | _ => false

end DispatchOutcome

/-- The unit stands for the event. -/
def SpoolUnit.Carries (tickets : ℕ → EventTicket) (unit : SpoolUnit) (event : Event) : Prop :=
  unit = .event event ∨ ∃ ticket, unit = .ticket ticket ∧ tickets ticket = .published event

inductive SpoolUnit.Settles (tickets : ℕ → EventTicket) : SpoolUnit → DispatchOutcome → Prop
  | sent {unit : SpoolUnit} {event : Event} : unit.Carries tickets event →
      Settles tickets unit (.sent event)
  | failed {unit : SpoolUnit} {event : Event} : unit.Carries tickets event →
      Settles tickets unit (.failed event)
  | discarded {event : Event} : Settles tickets (.event event) (.discarded event)
  | skipped {ticket : ℕ} : Settles tickets (.ticket ticket) (.skipped ticket)
  | abandoned {ticket : ℕ} : tickets ticket = .abandoned →
      Settles tickets (.ticket ticket) (.abandoned ticket)

/-- The units of the item in the dispatcher's hand that it has not settled yet. -/
def DispatcherStage.Work (tickets : ℕ → EventTicket) : DispatcherStage → List SpoolUnit → Prop
  | .receiving, units => units = []
  | .dispatching events, units => units = events.map .event
  | .awaiting ticket, units => units = [.ticket ticket]
  | .publishing event, units =>
    ∃ ticket, units = [.ticket ticket] ∧ tickets ticket = .published event
  | .reserving event rest, units =>
    ∃ unit, units = unit :: rest.map .event ∧ unit.Carries tickets event
  | .closing rest, units => units = rest.map .event
  | .exited, units => units = []

def DispatcherStage.inHand : DispatcherStage → ℕ
  | .dispatching events => events.length
  | .awaiting _ | .publishing _ => 1
  | .reserving _ rest => rest.length + 1
  | .closing rest => rest.length
  | .receiving | .exited => 0

/-- The event at hand was taken up before anything was discarded. -/
def DispatcherStage.waits : DispatcherStage → Bool
  | .awaiting _ | .publishing _ | .reserving _ _ => true
  | _ => false

theorem DispatcherStage.Work.length {tickets : ℕ → EventTicket} {stage : DispatcherStage}
    {units : List SpoolUnit} (h : stage.Work tickets units) : units.length = stage.inHand := by
  cases stage with
  | publishing event =>
    obtain ⟨ticket, rfl, _⟩ := h
    rfl
  | reserving event rest =>
    obtain ⟨unit, rfl, _⟩ := h
    exact congrArg (· + 1) (List.length_map _)
  | dispatching events =>
    rw [h]
    exact List.length_map _
  | closing rest =>
    rw [h]
    exact List.length_map _
  | _ =>
    rw [h]
    rfl

section Resolved

/-- Tickets that were published or given up stay so. -/
def KeepsTickets (tickets tickets' : ℕ → EventTicket) : Prop :=
  ∀ ticket, tickets ticket ≠ .reserved → tickets' ticket = tickets ticket

variable {tickets tickets' : ℕ → EventTicket} (h : KeepsTickets tickets tickets')
include h

theorem KeepsTickets.published {ticket : ℕ} {event : Event}
    (hpublished : tickets ticket = .published event) : tickets' ticket = .published event :=
  (h ticket (by rw [hpublished]; rintro ⟨⟩)).trans hpublished

theorem KeepsTickets.carries {unit : SpoolUnit} {event : Event}
    (hunit : unit.Carries tickets event) :
    unit.Carries tickets' event := by
  rcases hunit with rfl | ⟨ticket, rfl, hpublished⟩
  · exact Or.inl rfl
  · exact Or.inr ⟨ticket, rfl, h.published hpublished⟩

theorem KeepsTickets.settles {unit : SpoolUnit} {outcome : DispatchOutcome}
    (hunit : unit.Settles tickets outcome) : unit.Settles tickets' outcome := by
  cases hunit with
  | sent hcarries => exact .sent (h.carries hcarries)
  | failed hcarries => exact .failed (h.carries hcarries)
  | discarded => exact .discarded
  | skipped => exact .skipped
  | abandoned habandoned =>
    exact .abandoned ((h _ (by rw [habandoned]; rintro ⟨⟩)).trans habandoned)

theorem KeepsTickets.work {stage : DispatcherStage} {units : List SpoolUnit}
    (hwork : stage.Work tickets units) : stage.Work tickets' units := by
  cases stage with
  | publishing event =>
    obtain ⟨ticket, hunits, hpublished⟩ := hwork
    exact ⟨ticket, hunits, h.published hpublished⟩
  | reserving event rest =>
    obtain ⟨unit, hunits, hcarries⟩ := hwork
    exact ⟨unit, hunits, h.carries hcarries⟩
  | _ => exact hwork

end Resolved

section Ready

variable {tickets : ℕ → EventTicket} {units rest : List SpoolUnit} {outcomes : List DispatchOutcome}

/-- Up to the first failure everything that was published is sent. -/
theorem readyEvents_append (h : List.Forall₂ (SpoolUnit.Settles tickets) units outcomes)
    (hcalm : ∀ outcome ∈ outcomes, outcome.isCalm = true) :
    readyEvents tickets (units ++ rest) =
      outcomes.filterMap DispatchOutcome.event? ++ readyEvents tickets rest := by
  induction h with
  | nil => rfl
  | @cons unit outcome units outcomes hsettles _ ih =>
    have ih := ih fun o ho => hcalm o (List.mem_cons_of_mem _ ho)
    have hcalm := hcalm outcome List.mem_cons_self
    cases hsettles with
    | sent hcarries =>
      rcases hcarries with rfl | ⟨ticket, rfl, hpublished⟩
      · rw [List.cons_append, readyEvents, ih]
        rfl
      · rw [List.cons_append, readyEvents, hpublished, ih]
        rfl
    | abandoned habandoned =>
      rw [List.cons_append, readyEvents, habandoned, ih]
      rfl
    | failed _ => cases hcalm
    | discarded => cases hcalm
    | skipped => cases hcalm

end Ready

namespace EventStream

variable {spoolCapacity capacity : ℕ} {s s' : EventStream spoolCapacity capacity}
  {work rest : List SpoolUnit} {unit : SpoolUnit} {outcome : DispatchOutcome}

/-- The ordinary events that were sent to the public channel, in order. -/
def sentEvents (s : EventStream spoolCapacity capacity) : List Event :=
  s.outcomes.filterMap DispatchOutcome.event?

/-- The units of the items that the dispatcher has taken out of the spool. -/
def takenUnits (s : EventStream spoolCapacity capacity) : List SpoolUnit :=
  (s.spool.sent.take s.spool.taken).flatMap EventSpoolItem.units

/-- The published events of the spool, in order, up to the first ticket that is open. -/
def publishedEvents (s : EventStream spoolCapacity capacity) : List Event :=
  readyEvents s.tickets (s.spool.sent.flatMap EventSpoolItem.units)

/-- The outcomes so far, with the units that remain of the item in hand. -/
structure Settled (s : EventStream spoolCapacity capacity) (work : List SpoolUnit) : Prop where
  units : ∃ done, s.takenUnits = done ++ work ∧
    List.Forall₂ (SpoolUnit.Settles s.tickets) done s.outcomes
  calm : ∃ before after, s.outcomes = before ++ after ∧
    (∀ outcome ∈ before, outcome.isCalm = true) ∧ (∀ outcome ∈ after, outcome.isSent = false) ∧
    (s.discardEvents = false → after = [])
  counted : s.alive = true → s.eventsDropped =
    s.droppedElsewhere + s.outcomes.countP fun outcome => !outcome.isSent

structure Inv (s : EventStream spoolCapacity capacity) : Prop where
  settled : ∃ work, s.Settled work ∧ s.stage.Work s.tickets work
  waiting : s.stage.waits = true → s.discardEvents = false
  slot : s.stage ≠ .exited → s.events.sent.length + 1 ≤ s.events.taken + capacity
  sent : s.stage ≠ .exited → s.events.sent = s.sentEvents

theorem settle_dropped (halive : s.alive = true) (outcome : DispatchOutcome) :
    (s.settle outcome).eventsDropped = s.eventsDropped + if outcome.isSent then 0 else 1 := by
  cases outcome with
  | sent event => rfl
  | _ =>
    simp only [settle, halive, if_true]
    rfl

/-- The first unit of the work is settled: calmly while nothing has failed, else without being
sent, and events are discarded from then on. -/
theorem Settled.settle (h : s.Settled (unit :: work)) (discard : Bool)
    (hsettles : unit.Settles s.tickets outcome)
    (hkind : outcome.isCalm = true ∧ s.discardEvents = false ∨
      outcome.isSent = false ∧ discard = true) :
    Settled { s.settle outcome with discardEvents := discard } work := by
  obtain ⟨done, htaken, hdone⟩ := h.units
  obtain ⟨before, after, houtcomes, hbefore, hafter, hnone⟩ := h.calm
  refine ⟨⟨done ++ [unit], ?_, ?_⟩, ?_, fun halive => ?_⟩
  · rw [List.append_assoc, List.singleton_append]
    exact htaken
  · exact List.rel_append hdone (.cons hsettles .nil)
  · rcases hkind with ⟨hcalm, hdiscard⟩ | ⟨hunsent, hdiscard⟩
    · refine ⟨before ++ [outcome], [], ?_, ?_, List.forall_mem_nil _, fun _ => rfl⟩
      · rw [List.append_nil]
        rw [hnone hdiscard, List.append_nil] at houtcomes
        exact congrArg (· ++ [outcome]) houtcomes
      · rw [List.forall_mem_append]
        exact ⟨hbefore, List.forall_mem_singleton.mpr hcalm⟩
    · refine ⟨before, after ++ [outcome], ?_, hbefore, ?_, fun hfalse => ?_⟩
      · rw [← List.append_assoc]
        exact congrArg (· ++ [outcome]) houtcomes
      · rw [List.forall_mem_append]
        exact ⟨hafter, List.forall_mem_singleton.mpr hunsent⟩
      · cases hdiscard.symm.trans hfalse
  · have halive : s.alive = true := halive
    have hcounted := h.counted halive
    have hdropped := settle_dropped halive outcome
    have hcount : (s.outcomes ++ [outcome]).countP (fun o => !o.isSent) =
        s.outcomes.countP (fun o => !o.isSent) + if outcome.isSent then 0 else 1 := by
      rw [List.countP_append, List.countP_singleton]
      cases outcome.isSent <;> rfl
    change (s.settle outcome).eventsDropped = s.droppedElsewhere +
      (s.outcomes ++ [outcome]).countP fun o => !o.isSent
    omega

/-- The dispatcher takes an item, and its units with it. -/
theorem Settled.take {spool : Channel EventSpoolItem spoolCapacity} {item : EventSpoolItem}
    (h : s.Settled []) (hrecv : s.spool.Received spool item) :
    Settled { s with spool } item.units := by
  obtain ⟨done, htaken, hdone⟩ := h.units
  refine ⟨⟨done, ?_, hdone⟩, h.calm, h.counted⟩
  rw [List.append_nil] at htaken
  rw [takenUnits, hrecv.front, List.flatMap_append, List.flatMap_singleton]
  exact congrArg (· ++ item.units) htaken

section Dispatch

variable {event : Event} {events : List Event}

theorem Inv.sendEvent {channel : Channel Event capacity}
    (h : s.Settled (unit :: events.map .event)) (hcarries : unit.Carries s.tickets event)
    (hdiscard : s.discardEvents = false) (hsent : s.events.sent = s.sentEvents)
    (hput : s.events.Sent channel 1 event) : (s.sendEvent event events channel).Inv := by
  have hsettled := h.settle s.discardEvents (.sent hcarries) (Or.inl ⟨rfl, hdiscard⟩)
  refine ⟨⟨_, ⟨hsettled.units, hsettled.calm, hsettled.counted⟩, rfl⟩, fun _ => hdiscard,
    fun _ => ?_, fun _ => ?_⟩
  · exact hput.free
  · change channel.sent =
      (s.outcomes ++ [DispatchOutcome.sent event]).filterMap DispatchOutcome.event?
    rw [List.filterMap_append]
    exact hput.sent.trans (congrArg (· ++ [event]) hsent)

theorem Inv.failDispatch {error : EventDispatchError} (h : s.Settled (unit :: events.map .event))
    (hcarries : unit.Carries s.tickets event) (hsent : s.events.sent = s.sentEvents)
    (hslot : s.events.sent.length + 1 ≤ s.events.taken + capacity) :
    (s.failDispatch event events error).Inv := by
  have hsettled := h.settle true (.failed hcarries) (Or.inr ⟨rfl, rfl⟩)
  refine ⟨⟨events.map .event, ⟨hsettled.units, hsettled.calm, hsettled.counted⟩, ?_⟩,
    fun hwaits => ?_, fun _ => hslot, fun _ => ?_⟩
  · unfold EventStream.failDispatch
    cases error with
    | closed => rfl
    | backpressure =>
      dsimp only
      split_ifs <;> rfl
  · unfold EventStream.failDispatch at hwaits
    cases error with
    | closed => cases hwaits
    | backpressure =>
      dsimp only at hwaits
      split_ifs at hwaits <;> cases hwaits
  · change s.events.sent =
      (s.outcomes ++ [DispatchOutcome.failed event]).filterMap DispatchOutcome.event?
    rw [List.filterMap_append]
    exact hsent.trans (List.append_nil _).symm

theorem Inv.tryDispatch (h : s.Settled (unit :: events.map .event))
    (hcarries : unit.Carries s.tickets event) (hdiscard : s.discardEvents = false)
    (hsent : s.events.sent = s.sentEvents)
    (hslot : s.events.sent.length + 1 ≤ s.events.taken + capacity) :
    (s.tryDispatch event events).Inv := by
  unfold EventStream.tryDispatch
  split
  · next channel hput => exact sendEvent h hcarries hdiscard hsent (Channel.trySend_ok hput)
  · exact failDispatch h hcarries hsent hslot
  · exact ⟨⟨_, ⟨h.units, h.calm, h.counted⟩, unit, rfl, hcarries⟩, fun _ => hdiscard,
      fun _ => hslot, fun _ => hsent⟩

end Dispatch

theorem Inv.setDepth (h : s.Inv) (permit depth : ℕ) :
    Inv { s with depthPermit := permit, eventDepth := depth } := by
  obtain ⟨work, hsettled, hwork⟩ := h.settled
  exact ⟨⟨work, ⟨hsettled.units, hsettled.calm, hsettled.counted⟩, hwork⟩, h.waiting,
    h.slot, h.sent⟩

/-- An event that is not sent leaves the public channel as it is. -/
theorem Inv.settle_unsent {stage : DispatcherStage} (h : s.Settled (unit :: work))
    (hsettles : unit.Settles s.tickets outcome)
    (hunsent : outcome.event? = none)
    (hkind : outcome.isCalm = true ∧ s.discardEvents = false ∨ s.discardEvents = true)
    (hwork : stage.Work s.tickets work) (hwaits : stage.waits = false)
    (hsent : s.events.sent = s.sentEvents)
    (hslot : s.events.sent.length + 1 ≤ s.events.taken + capacity) :
    Inv { s.settle outcome with stage } := by
  have hsettled := h.settle s.discardEvents hsettles
    (hkind.imp_right fun htrue => ⟨by rw [DispatchOutcome.isSent, hunsent]; rfl, htrue⟩)
  refine ⟨⟨work, ⟨hsettled.units, hsettled.calm, hsettled.counted⟩, hwork⟩, fun htrue => ?_,
    fun _ => hslot, fun _ => ?_⟩
  · cases hwaits.symm.trans htrue
  · change s.events.sent = (s.outcomes ++ [outcome]).filterMap DispatchOutcome.event?
    rw [List.filterMap_append, List.filterMap_cons, hunsent, List.filterMap_nil, List.append_nil]
    exact hsent

theorem Inv.exit (h : s.Settled []) : s.exit.Inv := by
  refine ⟨⟨[], ⟨h.units, h.calm, h.counted⟩, rfl⟩, fun hwaits => ?_, fun hexited => ?_,
    fun hexited => ?_⟩
  · cases hwaits
  · exact absurd rfl hexited
  · exact absurd rfl hexited

theorem Inv.terminate (h : s.Settled []) (reason : Option Error) : (s.terminate reason).Inv := by
  unfold EventStream.terminate
  split
  · exact exit h
  · split
    · exact exit ⟨h.units, h.calm, h.counted⟩
    · exact exit h

theorem Inv.startItem {item : EventSpoolItem} (h : s.Settled item.units)
    (hsent : s.events.sent = s.sentEvents)
    (hslot : s.events.sent.length + 1 ≤ s.events.taken + capacity) : (s.startItem item).Inv := by
  cases item with
  | direct event =>
    refine ⟨⟨_, ⟨h.units, h.calm, h.counted⟩, rfl⟩, fun hwaits => ?_, fun _ => hslot,
      fun _ => hsent⟩
    cases hwaits
  | batch events =>
    refine ⟨⟨_, ⟨h.units, h.calm, h.counted⟩, rfl⟩, fun hwaits => ?_, fun _ => hslot,
      fun _ => hsent⟩
    cases hwaits
  | deferred ticket =>
    unfold EventStream.startItem
    dsimp only
    split_ifs with hdiscard
    · have hskipped : Inv { s.settle (.skipped ticket) with stage := .receiving } :=
        settle_unsent h .skipped rfl (Or.inr hdiscard) rfl rfl hsent hslot
      exact hskipped.setDepth _ _
    · exact ⟨⟨_, ⟨h.units, h.calm, h.counted⟩, rfl⟩,
        fun _ => Bool.eq_false_of_not_eq_true hdiscard, fun _ => hslot, fun _ => hsent⟩
  | terminal reason =>
    have hsettled : Settled { s with depthPermit := 1 } [] := ⟨h.units, h.calm, h.counted⟩
    exact terminate hsettled reason

/-- The stage and what it says of the work. -/
theorem Inv.at_stage (h : s.Inv) {stage : DispatcherStage} (hstage : s.stage = stage)
    (hexited : stage ≠ .exited) :
    (∃ work, s.Settled work ∧ stage.Work s.tickets work) ∧
      (stage.waits = true → s.discardEvents = false) ∧ s.events.sent = s.sentEvents ∧
      s.events.sent.length + 1 ≤ s.events.taken + capacity := by
  subst hstage
  exact ⟨h.settled, h.waiting, h.sent hexited, h.slot hexited⟩

theorem Inv.dispatcherNext (h : s.Inv) {event : DispatcherEvent}
    (hnext : s.dispatcherNext event = some s') : s'.Inv := by
  cases dispatcherNext_move hnext with
  | take _ _ hstage hrecv =>
    obtain ⟨⟨_, hsettled, rfl⟩, _, hsent, hslot⟩ := h.at_stage hstage (by rintro ⟨⟩)
    exact startItem (hsettled.take (Channel.recv_some hrecv)) hsent hslot
  | leave hstage _ _ =>
    obtain ⟨⟨_, hsettled, rfl⟩, _, hsent, hslot⟩ := h.at_stage hstage (by rintro ⟨⟩)
    exact exit hsettled
  | finish hstage =>
    obtain ⟨⟨_, hsettled, rfl⟩, _, hsent, hslot⟩ := h.at_stage hstage (by rintro ⟨⟩)
    refine ⟨⟨[], ⟨hsettled.units, hsettled.calm, hsettled.counted⟩, rfl⟩, fun hwaits => ?_,
      fun _ => hslot, fun _ => hsent⟩
    cases hwaits
  | discard _ _ hstage hdiscard =>
    obtain ⟨⟨_, hsettled, rfl⟩, _, hsent, hslot⟩ := h.at_stage hstage (by rintro ⟨⟩)
    exact settle_unsent hsettled .discarded rfl (Or.inr hdiscard) rfl rfl hsent hslot
  | dispatch _ _ hstage hdiscard =>
    obtain ⟨⟨_, hsettled, rfl⟩, _, hsent, hslot⟩ := h.at_stage hstage (by rintro ⟨⟩)
    exact tryDispatch hsettled (Or.inl rfl) hdiscard hsent hslot
  | published _ _ hstage hticket =>
    obtain ⟨⟨_, hsettled, rfl⟩, hwaiting, hsent, hslot⟩ := h.at_stage hstage (by rintro ⟨⟩)
    exact ⟨⟨_, ⟨hsettled.units, hsettled.calm, hsettled.counted⟩, _, rfl, hticket⟩,
      fun _ => hwaiting rfl, fun _ => hslot, fun _ => hsent⟩
  | abandoned ticket hstage hticket =>
    obtain ⟨⟨_, hsettled, rfl⟩, hwaiting, hsent, hslot⟩ := h.at_stage hstage (by rintro ⟨⟩)
    have hgone : Inv { s.settle (.abandoned ticket) with stage := .receiving } :=
      settle_unsent hsettled (.abandoned hticket) rfl (Or.inl ⟨rfl, hwaiting rfl⟩) rfl
        rfl hsent hslot
    exact hgone.setDepth _ _
  | withhold _ hstage hdiscard =>
    -- The dispatcher awaits no ticket in the discard mode.
    obtain ⟨_, hwaiting, _, _⟩ := h.at_stage hstage (by rintro ⟨⟩)
    cases hdiscard.symm.trans (hwaiting rfl)
  | publish _ hstage hdiscard =>
    obtain ⟨⟨_, hsettled, ticket, rfl, hpublished⟩, _, hsent, hslot⟩ :=
      h.at_stage hstage (by rintro ⟨⟩)
    exact tryDispatch hsettled (Or.inr ⟨ticket, rfl, hpublished⟩) hdiscard hsent hslot
  | reserved _ _ _ hstage hput =>
    obtain ⟨⟨_, hsettled, unit, rfl, hcarries⟩, hwaiting, hsent, _⟩ :=
      h.at_stage hstage (by rintro ⟨⟩)
    exact sendEvent hsettled hcarries (hwaiting rfl) hsent (Channel.trySend_ok hput)
  | refused _ _ hstage _ =>
    obtain ⟨⟨_, hsettled, unit, rfl, hcarries⟩, _, hsent, hslot⟩ :=
      h.at_stage hstage (by rintro ⟨⟩)
    exact failDispatch hsettled hcarries hsent hslot
  | reported _ hstage =>
    obtain ⟨⟨_, hsettled, rfl⟩, _, hsent, hslot⟩ := h.at_stage hstage (by rintro ⟨⟩)
    refine ⟨⟨_, ⟨hsettled.units, hsettled.calm, hsettled.counted⟩, rfl⟩, fun hwaits => ?_,
      fun _ => hslot, fun _ => hsent⟩
    cases hwaits
  | timeout _ _ hstage =>
    obtain ⟨⟨_, hsettled, unit, rfl, hcarries⟩, _, hsent, hslot⟩ :=
      h.at_stage hstage (by rintro ⟨⟩)
    exact failDispatch hsettled hcarries hsent hslot

theorem keepsTickets_of_resolve {ticket : ℕ} {state : EventTicket}
    (hnext : s.resolve ticket state = some s') :
    KeepsTickets s.tickets s'.tickets ∧ s' = { s with tickets := s'.tickets } := by
  unfold EventStream.resolve at hnext
  split at hnext
  · next hreserved =>
    cases hnext
    refine ⟨fun other hother => ?_, rfl⟩
    dsimp only
    split_ifs with heq
    · rw [heq] at hother
      exact absurd hreserved hother
    · rfl
  · cases hnext

theorem Inv.resolve (h : s.Inv) {ticket : ℕ} {state : EventTicket}
    (hnext : s.resolve ticket state = some s') : s'.Inv := by
  obtain ⟨hkeeps, hs'⟩ := keepsTickets_of_resolve hnext
  obtain ⟨work, hsettled, hwork⟩ := h.settled
  obtain ⟨done, htaken, hdone⟩ := hsettled.units
  rw [hs']
  exact ⟨⟨work,
    ⟨⟨done, htaken, hdone.imp fun _ _ => hkeeps.settles⟩, hsettled.calm, hsettled.counted⟩,
    hkeeps.work hwork⟩, h.waiting, h.slot, h.sent⟩

theorem Inv.next (h : s.Inv) {event : StreamEvent} (hnext : s.next event = some s') : s'.Inv := by
  obtain ⟨work, hsettled, hwork⟩ := h.settled
  cases event with
  | raiseDepth count =>
    cases hnext
    exact h.setDepth _ _
  | lowerDepth count =>
    cases hnext
    exact h.setDepth _ _
  | put item =>
    obtain ⟨spool, hput, rfl⟩ := next_put hnext
    have hput := Channel.trySend_ok hput
    obtain ⟨done, htaken, hdone⟩ := hsettled.units
    refine ⟨⟨work, ⟨⟨done, ?_, hdone⟩, hsettled.calm, hsettled.counted⟩, hwork⟩, h.waiting, h.slot,
      h.sent⟩
    rw [takenUnits, hput.sent, hput.taken, List.take_append_of_le_length s.spool.taken_le]
    exact htaken
  | publish ticket event => exact h.resolve hnext
  | abandon ticket => exact h.resolve hnext
  | countDropped count =>
    simp only [EventStream.next] at hnext
    split_ifs at hnext
    cases hnext
    refine ⟨⟨work, ⟨hsettled.units, hsettled.calm, fun halive => ?_⟩, hwork⟩, h.waiting,
      h.slot, h.sent⟩
    have hcounted := hsettled.counted halive
    dsimp only
    omega
  | dropConnection =>
    cases hnext
    refine ⟨⟨work, ⟨hsettled.units, hsettled.calm, fun halive => ?_⟩, hwork⟩, h.waiting,
      h.slot, h.sent⟩
    cases halive
  | read =>
    obtain ⟨event, events, hrecv, rfl⟩ := next_read hnext
    have hrecv := Channel.recv_some hrecv
    refine ⟨⟨work, ⟨hsettled.units, hsettled.calm, hsettled.counted⟩, hwork⟩, h.waiting,
      fun hstage => ?_, fun hstage => ?_⟩
    · have hslot := h.slot hstage
      dsimp only
      rw [hrecv.sent, hrecv.taken]
      omega
    · exact hrecv.sent.trans (h.sent hstage)
  | dropReceiver =>
    cases hnext
    exact ⟨⟨work, ⟨hsettled.units, hsettled.calm, hsettled.counted⟩, hwork⟩, h.waiting,
      h.slot, h.sent⟩
  | dispatcher event => exact h.dispatcherNext hnext

theorem inv_run {events : List StreamEvent} (hcapacity : 2 ≤ capacity)
    (hrun : (machine spoolCapacity capacity).Run events s) : s.Inv := by
  refine hrun.invariant (I := fun _ s => s.Inv) ?_ fun _ _ _ _ h hnext => h.next hnext
  rintro s rfl
  refine ⟨⟨[], ⟨⟨[], rfl, .nil⟩, ⟨[], [], rfl, ?_, ?_, fun _ => rfl⟩, fun _ => rfl⟩, rfl⟩,
    ?_, ?_, ?_⟩
  · exact List.forall_mem_nil _
  · exact List.forall_mem_nil _
  · exact fun _ => rfl
  · exact fun _ => (Nat.le_of_succ_le hcapacity).trans (Nat.le_add_left capacity _)
  · exact fun _ => rfl

theorem sent_eq_nil {outcomes : List DispatchOutcome}
    (h : ∀ outcome ∈ outcomes, outcome.isSent = false) :
    outcomes.filterMap DispatchOutcome.event? = [] := by
  rw [List.filterMap_eq_nil_iff]
  intro outcome hmem
  exact Option.not_isSome_iff_eq_none.mp (Bool.eq_false_iff.mp (h outcome hmem))

theorem Settled.sent_prefix (h : s.Settled work) : s.sentEvents <+: s.publishedEvents := by
  obtain ⟨done, htaken, hdone⟩ := h.units
  obtain ⟨before, after, houtcomes, hbefore, hafter, _⟩ := h.calm
  rw [houtcomes] at hdone
  have hfront := List.forall₂_take_append done before after hdone
  have hunits : s.spool.sent.flatMap EventSpoolItem.units = done.take before.length ++
      (done.drop before.length ++ (work ++ (s.spool.sent.drop s.spool.taken).flatMap
        EventSpoolItem.units)) := by
    rw [← List.append_assoc, List.take_append_drop, ← List.append_assoc, ← htaken, takenUnits,
      ← List.flatMap_append, List.take_append_drop]
  rw [publishedEvents, hunits, readyEvents_append hfront hbefore, sentEvents, houtcomes,
    List.filterMap_append, sent_eq_nil hafter, List.append_nil]
  exact List.prefix_append _ _

theorem Settled.lawful (h : s.Settled work) :
    History.Lawful (fun before outcome => outcome.isSent = true →
      ∀ earlier ∈ before, earlier.isFailed = false) s.outcomes := by
  obtain ⟨before, after, houtcomes, hbefore, hafter, _⟩ := h.calm
  rintro earlier outcome later hsplit hsent failed hfailed
  have hcalm : ∀ o ∈ before, o.isFailed = false := by
    intro o ho
    have hcalm := hbefore o ho
    cases o with
    | failed event => cases hcalm
    | _ => rfl
  rcases List.append_eq_append_iff.mp (houtcomes.symm.trans hsplit) with
    ⟨middle, rfl, hafter'⟩ | ⟨middle, rfl, hmiddle⟩
  · -- the outcome would stand behind the first failure
    have hmem : outcome ∈ after := hafter' ▸ List.mem_append_right _ List.mem_cons_self
    cases (hafter outcome hmem).symm.trans hsent
  · exact hcalm failed (List.mem_append_left _ hfailed)

theorem Settled.counts (h : s.Settled work) (halive : s.alive = true) :
    s.eventsDropped + s.sentEvents.length + work.length =
      s.droppedElsewhere + s.takenUnits.length := by
  obtain ⟨done, htaken, hdone⟩ := h.units
  have hcounted := h.counted halive
  have hsent : s.sentEvents.length = s.outcomes.countP DispatchOutcome.isSent := by
    rw [sentEvents, List.length_filterMap_eq_countP]
    rfl
  have hsplit := List.length_eq_countP_add_countP DispatchOutcome.isSent (l := s.outcomes)
  simp only [decide_not, Bool.decide_eq_true] at hsplit
  have hlength := hdone.length_eq
  rw [htaken, List.length_append]
  omega

/-- After its exit the dispatcher sends nothing. -/
theorem next_of_exited {event : StreamEvent} (hstage : s.stage = .exited)
    (hnext : s.next event = some s') :
    s'.stage = .exited ∧ s'.events.sent = s.events.sent ∧ s'.outcomes = s.outcomes := by
  cases event with
  | publish ticket event =>
    rw [(keepsTickets_of_resolve hnext).2]
    exact ⟨hstage, rfl, rfl⟩
  | abandon ticket =>
    rw [(keepsTickets_of_resolve hnext).2]
    exact ⟨hstage, rfl, rfl⟩
  | put item =>
    obtain ⟨spool, _, rfl⟩ := next_put hnext
    exact ⟨hstage, rfl, rfl⟩
  | countDropped count =>
    simp only [EventStream.next] at hnext
    split_ifs at hnext
    cases hnext
    exact ⟨hstage, rfl, rfl⟩
  | read =>
    obtain ⟨event, events, hrecv, rfl⟩ := next_read hnext
    exact ⟨hstage, (Channel.recv_some hrecv).sent, rfl⟩
  | dispatcher event =>
    cases event with
    | advance =>
      simp only [EventStream.next, dispatcherNext, EventStream.dispatcherAdvance, hstage,
        reduceCtorEq] at hnext
    | timeout => simp only [EventStream.next, dispatcherNext, hstage, reduceCtorEq] at hnext
  | _ =>
    cases hnext
    exact ⟨hstage, rfl, rfl⟩

theorem path_of_exited {later : List StreamEvent} (hstage : s.stage = .exited)
    (hpath : (machine spoolCapacity capacity).Path s later s') :
    s'.events.sent = s.events.sent := by
  have hboth : s'.stage = .exited ∧ s'.events.sent = s.events.sent := by
    induction hpath with
    | nil => exact ⟨hstage, rfl⟩
    | snoc _ hnext ih =>
      obtain ⟨hexited, hsent, _⟩ := next_of_exited ih.1 hnext
      exact ⟨hexited, hsent.trans ih.2⟩
  exact hboth.2

/-- The last item is handled: the reason is sent unless the receiver is gone. -/
theorem terminate_sends (hslot : s.events.sent.length + 1 ≤ s.events.taken + capacity)
    (reason : Option Error) : (s.terminate reason).stage = .exited ∧
      (s.events.closed = false → (s.terminate reason).events.sent =
        s.events.sent ++ (reason.map Event.disconnected).toList) := by
  unfold EventStream.terminate
  cases reason with
  | none => exact ⟨rfl, fun _ => (List.append_nil _).symm⟩
  | some reason =>
    constructor
    · dsimp only
      split <;> rfl
    · intro hopen
      obtain ⟨events, hput⟩ :=
        Channel.trySend_of_free (n := 0) (a := .disconnected reason) hopen hslot
      dsimp only
      rw [hput]
      exact (Channel.trySend_ok hput).sent

/-- What is sent is a prefix of what was published, in the order of the spool; nothing is sent
after the first failure; every other event is counted; and the reason of the end finds a slot, so
that it is the last event unless the receiver was dropped. -/
theorem dispatcher_contract {history : List StreamEvent} (hcapacity : 2 ≤ capacity)
    (hrun : (machine spoolCapacity capacity).Run history s) :
    s.sentEvents <+: s.publishedEvents ∧
    History.Lawful (fun before outcome => outcome.isSent = true →
      ∀ earlier ∈ before, earlier.isFailed = false) s.outcomes ∧
    (s.alive = true → s.eventsDropped + s.sentEvents.length + s.stage.inHand =
      s.droppedElsewhere + s.takenUnits.length) ∧
    (s.stage ≠ .exited → s.events.sent = s.sentEvents ∧ s.events.queued.length < capacity) ∧
    ∀ reason spool s', s.stage = .receiving → s.spool.recv = some (.terminal reason, spool) →
      s.next (.dispatcher .advance) = some s' →
        s'.stage = .exited ∧
        (s.events.closed = false →
          s'.events.sent = s.sentEvents ++ (reason.map Event.disconnected).toList) ∧
        ∀ later s'', (machine spoolCapacity capacity).Path s' later s'' →
          s''.events.sent = s'.events.sent := by
  have h := inv_run hcapacity hrun
  obtain ⟨work, hsettled, hwork⟩ := h.settled
  refine ⟨hsettled.sent_prefix, hsettled.lawful, fun halive => ?_, fun hstage => ?_, ?_⟩
  · rw [← hwork.length]
    exact hsettled.counts halive
  · have hslot := h.slot hstage
    have hqueued := s.events.queued_length
    exact ⟨h.sent hstage, by omega⟩
  · intro reason spool s' hstage hrecv hnext
    have hreceiving : s.stage ≠ .exited := by
      rw [hstage]
      rintro ⟨⟩
    simp only [EventStream.next, dispatcherNext, EventStream.dispatcherAdvance, hstage, hrecv,
      Option.some.injEq] at hnext
    subst hnext
    have hends := terminate_sends (s := { s with stage := .receiving, spool, depthPermit := 1 })
      (h.slot hreceiving) reason
    refine ⟨hends.1, fun hopen => ?_, fun later s'' hpath => path_of_exited hends.1 hpath⟩
    exact (hends.2 hopen).trans (congrArg (· ++ _) (h.sent hreceiving))

/-- A ticket goes before a direct event; the consumer stalls, and the reason takes the last slot. -/
theorem dispatcher_contract_stalled : ∃ history s,
    (machine 4 2).Run history s ∧
    s.events.sent = [.submitTimeout 7 1, .disconnected .channelClosed] ∧
    s.sentEvents <+: s.publishedEvents ∧ s.eventsDropped = 1 := by
  have hexec : (Machine.exec next (initial 4 2) (
      [.put (.deferred 0), .put (.direct (.submitDropped 8)),
        .put (.terminal (some .channelClosed)),
        .dispatcher .advance, .publish 0 (.submitTimeout 7 1)] ++
      List.replicate 5 (.dispatcher .advance) ++
      [.dispatcher .timeout] ++ List.replicate 3 (.dispatcher .advance))).map
        (fun s => (s.events.sent, s.eventsDropped)) =
      some ([.submitTimeout 7 1, .disconnected .channelClosed], 1) := by decide +kernel
  obtain ⟨s, hrun, hview⟩ := Machine.exists_run_of_exec _ hexec
  obtain ⟨hsent, hdropped⟩ := Prod.mk.inj hview
  exact ⟨_, s, hrun, hsent, (dispatcher_contract le_rfl hrun).1, hdropped⟩

end EventStream

end CmppProtocol
