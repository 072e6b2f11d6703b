import CmppProtocol.Delivery.Machine
import CmppProtocol.Library.Sublist
import CmppProtocol.Wire.Framing

/-! # What is shown was acknowledged

The frames with a ticket keep the order in which the tickets were reserved, from
the reader to the socket. A ticket is published behind the write of its frame,
and the dispatcher shows the tickets in the order of the spool.
-/

namespace CmppProtocol

def Outbound.ticket? (outbound : Outbound) : Option ℕ := outbound.eventAfterWrite.map Prod.fst

/-- The frame is the response to the DELIVER. -/
def Arrival.Answers (arrival : Arrival) (outbound : Outbound) : Prop :=
  ∃ budget ticket, outbound = arrival.response budget ticket

def DeliverStage.arrival? : DeliverStage → Option Arrival
  | .reserving arrival => some arrival
  | _ => none

def DeliverStage.held : DeliverStage → List Outbound
  | .sending outbound => [outbound]
  | _ => []

def DeliveryWriterStage.rest : DeliveryWriterStage → List Outbound
  | .publishing rest => rest
  | _ => []

@[simp] theorem DeliverStage.held_reading : DeliverStage.reading.held = [] := rfl

@[simp] theorem DeliverStage.held_stopped : DeliverStage.stopped.held = [] := rfl

@[simp] theorem DeliveryWriterStage.rest_collecting :
    DeliveryWriterStage.collecting.rest = [] := rfl

@[simp] theorem DeliveryWriterStage.rest_writing : DeliveryWriterStage.writing.rest = [] := rfl

@[simp] theorem DeliveryWriterStage.rest_stopped : DeliveryWriterStage.stopped.rest = [] := rfl

@[simp] theorem DeliveryWriterStage.rest_publishing (rest : List Outbound) :
    (DeliveryWriterStage.publishing rest).rest = rest := rfl

theorem ControlFrame.not_isDeliverResp (sequenceId : UInt32) (frame : ControlFrame) :
    (frame.outbound sequenceId).isDeliverResp = false := by
  cases frame <;> rfl

/-- On the wire the response is the DELIVER_RESP with the sequence id and the message id. -/
theorem Arrival.response_octets (arrival : Arrival) (budget ticket : ℕ) :
    (arrival.response budget ticket).packet =
      Frame.octets ⟨arrival.sequenceId, .deliverResp ⟨arrival.deliver.msgId, 0⟩⟩ := by
  have hsmall : ¬ (Pdu.deliverResp ⟨arrival.deliver.msgId, 0⟩).Oversized := by rintro ⟨⟩
  exact encodePdu_octets hsmall arrival.sequenceId

theorem Arrival.isDeliverResp (arrival : Arrival) (budget ticket : ℕ) :
    (arrival.response budget ticket).isDeliverResp = true := by
  rw [Outbound.isDeliverResp, arrival.response_octets, Frame.octets, List.append_assoc,
    List.append_assoc, List.drop_left' (length_toBeBytes _), List.take_left' (length_toBeBytes _)]
  change decide (toBeBytes CMPP_DELIVER_RESP = [0x80, 0, 0, 5]) = true
  decide

theorem ControlFrame.ticket? (sequenceId : UInt32) (frame : ControlFrame) :
    (frame.outbound sequenceId).ticket? = none := by
  cases frame <;> rfl

namespace Delivery

variable {eventSpoolCapacity capacity : ℕ} {s s' : Delivery eventSpoolCapacity capacity}

/-- The frames that were written or are to be, in order. -/
def frames (s : Delivery eventSpoolCapacity capacity) : List Outbound :=
  s.written ++ s.batch ++ s.control ++ s.reader.held

/-- The frames whose tickets are open. -/
def unsettled (s : Delivery eventSpoolCapacity capacity) : List Outbound :=
  s.writer.rest ++ s.batch ++ s.control ++ s.reader.held ++ s.dropping

/-- The responses among the frames. -/
def ticketed (frames : List Outbound) : List Outbound :=
  frames.filter fun outbound => outbound.ticket?.isSome

/-- What the reader has while it holds the admission lock. -/
def Reserving (s : Delivery eventSpoolCapacity capacity) : Prop :=
  match s.reader.arrival? with
  | some _ => ∃ ticket hasCapacity raised,
    s.spool.deferredHolder = some ⟨.deferred ticket, hasCapacity, raised⟩ ∧
    (∀ other ∈ s.spool.stream.deferredTickets, other < ticket) ∧
    s.spool.nextTicket = ticket + if raised then 1 else 0
  | none => s.spool.deferredHolder = none

structure Inv (s : Delivery eventSpoolCapacity capacity) : Prop where
  plain : s.spool.Plain
  answered : ∃ answered, (answered ++ s.reader.arrival?.toList).Sublist s.arrived ∧
    (∀ arrival ∈ answered ++ s.reader.arrival?.toList, arrival.isAdmitted = true) ∧
    List.Forall₂ Arrival.Answers answered s.reserved
  tickets : s.reserved.map Outbound.ticket? = s.spool.stream.deferredTickets.map some
  increasing : s.spool.stream.deferredTickets.Pairwise (· < ·)
  numbered : ∀ ticket ∈ s.spool.stream.deferredTickets, ticket < s.spool.nextTicket
  reserving : s.Reserving
  flow : (ticketed s.frames).Sublist s.reserved
  publishing : ∀ outbound ∈ s.writer.rest, outbound ∈ s.written
  published : ∀ ticket event, s.spool.stream.tickets ticket = .published event →
    ∃ outbound ∈ s.written, outbound.eventAfterWrite = some (ticket, event)
  unsettled : ∀ ticket ∈ s.spool.stream.deferredTickets,
    s.spool.stream.tickets ticket = .reserved → ticket ∈ s.unsettled.filterMap Outbound.ticket?
  counted : s.spool.ticketsPending =
    (s.unsettled.filterMap Outbound.ticket?).length + s.spool.raisedTickets
  queued : (s.queued.filter Outbound.isDeliverResp ++ s.reader.held).Sublist s.reserved

/-- Frames go on while the spool stays. -/
theorem Inv.move (h : s.Inv) (hspool : s'.spool = s.spool) (harrived : s'.arrived = s.arrived)
    (hreserved : s'.reserved = s.reserved) (harrival : s'.reader.arrival? = s.reader.arrival?)
    (hwritten : s.written ⊆ s'.written)
    (hpublishing : ∀ outbound ∈ s'.writer.rest, outbound ∈ s'.written)
    (hframes : (ticketed s'.frames).Sublist (ticketed s.frames))
    (hunsettled : (s'.unsettled.filterMap Outbound.ticket?).Perm
      (s.unsettled.filterMap Outbound.ticket?))
    (hqueued : (s'.queued.filter Outbound.isDeliverResp ++ s'.reader.held).Sublist
      (s.queued.filter Outbound.isDeliverResp ++ s.reader.held)) : s'.Inv where
  plain := hspool ▸ h.plain
  answered := by
    rw [harrived, hreserved, harrival]
    exact h.answered
  tickets := by
    rw [hspool, hreserved]
    exact h.tickets
  increasing := hspool ▸ h.increasing
  numbered := hspool ▸ h.numbered
  reserving := by
    have hreserving := h.reserving
    unfold Reserving at hreserving ⊢
    rw [hspool, harrival]
    exact hreserving
  flow := hreserved ▸ hframes.trans h.flow
  publishing := hpublishing
  published ticket event hpublished := by
    rw [hspool] at hpublished
    obtain ⟨outbound, hmem, hevent⟩ := h.published ticket event hpublished
    exact ⟨outbound, hwritten hmem, hevent⟩
  unsettled ticket hmem hopen := by
    rw [hspool] at hmem hopen
    exact hunsettled.mem_iff.mpr (h.unsettled ticket hmem hopen)
  counted := by
    rw [hspool, h.counted, hunsettled.length_eq]
  queued := hreserved ▸ hqueued.trans h.queued

/-! ## The spool -/

/-- Other tasks go on with the spool. -/
theorem Inv.spares (h : s.Inv) {spool : EventSpool eventSpoolCapacity capacity}
    (hspares : s.spool.Spares spool) : Inv { s with spool } where
  plain := hspares.plain h.plain
  answered := h.answered
  tickets := h.tickets.trans (congrArg _ hspares.deferred.symm)
  increasing := hspares.deferred ▸ h.increasing
  numbered ticket hmem := by
    change ticket < spool.nextTicket
    rw [hspares.nextTicket]
    exact h.numbered ticket (hspares.deferred ▸ hmem)
  reserving := by
    have hreserving := h.reserving
    unfold Reserving at hreserving ⊢
    change match s.reader.arrival? with | some _ => _ | none => _
    rw [hspares.holder, hspares.deferred, hspares.nextTicket]
    exact hreserving
  flow := h.flow
  publishing := h.publishing
  published ticket event hpublished :=
    h.published ticket event ((congrFun hspares.tickets ticket).symm.trans hpublished)
  unsettled ticket hmem hopen :=
    h.unsettled ticket (hspares.deferred ▸ hmem)
      ((congrFun hspares.tickets ticket).symm.trans hopen)
  counted := by
    change spool.ticketsPending = _ + spool.raisedTickets
    rw [hspares.ticketsPending, hspares.raisedTickets]
    exact h.counted
  queued := h.queued

/-- The owner of a ticket lets it go. -/
theorem Inv.settle (h : s.Inv) (writer : DeliveryWriterStage) (dropping : List Outbound)
    {spool : EventSpool eventSpoolCapacity capacity} {ticket : ℕ} {state : EventTicket}
    (hsettled : s.spool.Settled spool ticket state) (hstate : state ≠ .reserved)
    (hevent : ∀ event, state = .published event →
      ∃ outbound ∈ s.written, outbound.eventAfterWrite = some (ticket, event))
    (hrest : ∀ outbound ∈ writer.rest, outbound ∈ s.written)
    (hunsettled : (s.unsettled.filterMap Outbound.ticket?).Perm (ticket ::
      (Delivery.unsettled { s with writer, dropping }).filterMap Outbound.ticket?)) :
    Inv { s with spool, writer, dropping } where
  plain := ⟨fun item hmem => h.plain.items item (hsettled.spool ▸ hmem),
    fun holder hholder => h.plain.holder holder (hsettled.holder ▸ hholder)⟩
  answered := h.answered
  tickets := h.tickets.trans (congrArg _ hsettled.deferredTickets.symm)
  increasing := hsettled.deferredTickets ▸ h.increasing
  numbered other hmem := by
    change other < spool.nextTicket
    rw [hsettled.nextTicket]
    exact h.numbered other (hsettled.deferredTickets ▸ hmem)
  reserving := by
    have hreserving := h.reserving
    unfold Reserving at hreserving ⊢
    change match s.reader.arrival? with | some _ => _ | none => _
    rw [hsettled.deferredHolder, hsettled.deferredTickets, hsettled.nextTicket]
    exact hreserving
  flow := h.flow
  publishing := hrest
  published other event hpublished := by
    change spool.stream.tickets other = _ at hpublished
    rw [hsettled.tickets] at hpublished
    dsimp only at hpublished
    split_ifs at hpublished with hother
    · subst hother
      exact hevent event hpublished
    · exact h.published other event hpublished
  unsettled other hmem hopen := by
    change spool.stream.tickets other = _ at hopen
    rw [hsettled.tickets] at hopen
    dsimp only at hopen
    split_ifs at hopen with hother
    · exact absurd hopen hstate
    · have hin := h.unsettled other (hsettled.deferredTickets ▸ hmem) hopen
      exact (List.mem_cons.mp (hunsettled.mem_iff.mp hin)).resolve_left hother
  counted := by
    have hcounted := h.counted
    have hraised : spool.raisedTickets = s.spool.raisedTickets :=
      congrArg (fun holder => Option.elim holder 0 _) hsettled.deferredHolder
    have hlength := hunsettled.length_eq
    rw [List.length_cons] at hlength
    change spool.ticketsPending =
      ((Delivery.unsettled { s with writer, dropping }).filterMap Outbound.ticket?).length +
        spool.raisedTickets
    rw [hsettled.ticketsPending, hraised]
    omega
  queued := h.queued

/-! ## The reader -/

/-- The reader goes on, and no ticket comes into the spool or leaves it. -/
theorem Inv.read (h : s.Inv) {spool : EventSpool eventSpoolCapacity capacity}
    {reader : DeliverStage}
    {arrived : List Arrival} (hheld : s.reader.held = []) (hheld' : reader.held = [])
    (hplain : spool.Plain) (htickets : spool.stream.tickets = s.spool.stream.tickets)
    (hdeferred : spool.stream.deferredTickets = s.spool.stream.deferredTickets)
    (hnumber : s.spool.nextTicket ≤ spool.nextTicket)
    (hanswered : ∃ answered, (answered ++ reader.arrival?.toList).Sublist arrived ∧
      (∀ arrival ∈ answered ++ reader.arrival?.toList, arrival.isAdmitted = true) ∧
      List.Forall₂ Arrival.Answers answered s.reserved)
    (hreserving : Reserving { s with spool, reader, arrived })
    (hcounted : spool.ticketsPending + s.spool.raisedTickets =
      s.spool.ticketsPending + spool.raisedTickets) : Inv { s with spool, reader, arrived } := by
  have hframes : Delivery.frames { s with spool, reader, arrived } = s.frames := by
    unfold Delivery.frames
    rw [hheld, hheld']
  have hunsettled : Delivery.unsettled { s with spool, reader, arrived } = s.unsettled := by
    unfold Delivery.unsettled
    rw [hheld, hheld']
  constructor
  case plain => exact hplain
  case answered => exact hanswered
  case tickets => exact h.tickets.trans (congrArg _ hdeferred.symm)
  case increasing => exact hdeferred ▸ h.increasing
  case numbered => exact fun ticket hmem => (h.numbered ticket (hdeferred ▸ hmem)).trans_le hnumber
  case reserving => exact hreserving
  case flow => exact hframes ▸ h.flow
  case publishing => exact h.publishing
  case published =>
    intro ticket event hpublished
    exact h.published ticket event ((congrFun htickets ticket).symm.trans hpublished)
  case unsettled =>
    intro ticket hmem hopen
    rw [hunsettled]
    exact h.unsettled ticket (hdeferred ▸ hmem) ((congrFun htickets ticket).symm.trans hopen)
  case counted =>
    have hold := h.counted
    rw [hunsettled]
    change spool.ticketsPending = _ + spool.raisedTickets
    omega
  case queued =>
    have hqueued := h.queued
    rw [hheld] at hqueued
    change (s.queued.filter _ ++ reader.held).Sublist s.reserved
    rw [hheld']
    exact hqueued

/-- The reader has the admission lock, and its DELIVER is going to be answered or not. -/
theorem Inv.meet (h : s.Inv) {arrival : Arrival} {spool : EventSpool eventSpoolCapacity capacity}
    (hreading : s.reader = .reading) (hadmission : arrival.admission = s.spool.admission)
    (hnext : s.spool.next .reserveDeferredEvent = some spool) : (s.meet arrival spool).Inv := by
  obtain ⟨answered, hsub, hadmitted, hanswers⟩ := h.answered
  rw [hreading] at hsub hadmitted
  have hsub : answered.Sublist s.arrived := List.append_nil answered ▸ hsub
  have hadmitted : ∀ a ∈ answered, a.isAdmitted = true := List.append_nil answered ▸ hadmitted
  have hheld : s.reader.held = [] := by
    rw [hreading]
    rfl
  have hiff : arrival.isAdmitted = true ↔ s.spool.Admits := by
    rw [Arrival.isAdmitted, hadmission, Bool.or_eq_true, decide_eq_true_eq, decide_eq_true_eq]
    rfl
  unfold Delivery.meet
  obtain ⟨hfree, ⟨hadmits, hstream, hpending, hnumber, hasCapacity, hholder⟩ | ⟨hrefuses, rfl⟩⟩ :=
    EventSpool.next_reserve hnext
  · have hdeferred : spool.stream.deferredTickets = s.spool.stream.deferredTickets := by
      rw [hstream]
    have hnew : spool.deferredHolder = some ⟨.deferred s.spool.nextTicket, hasCapacity, false⟩ := by
      rw [EventSpool.deferredHolder, hholder]
      rfl
    rw [if_pos (hiff.mpr hadmits)]
    refine h.read hheld rfl ⟨?_, ?_⟩ (congrArg _ hstream) hdeferred hnumber.ge
      ⟨answered, hsub.append (.refl _), ?_, hanswers⟩ ?_ ?_
    · rw [hstream]
      exact h.plain.items
    · intro holder hholder'
      obtain rfl := Option.some.inj (hholder.symm.trans hholder')
      exact EventSpool.deferred_isPlain _
    · rw [List.forall_mem_append]
      exact ⟨hadmitted, List.forall_mem_singleton.mpr (hiff.mpr hadmits)⟩
    · refine ⟨s.spool.nextTicket, hasCapacity, false, hnew, ?_, hnumber⟩
      exact fun other hmem => h.numbered other (hdeferred ▸ hmem)
    · rw [hpending, EventSpool.raisedTickets, EventSpool.raisedTickets, hfree, hnew]
      rfl
  · rw [if_neg fun hadmitted => hrefuses (hiff.mp hadmitted)]
    refine h.read hheld rfl h.plain rfl rfl le_rfl ⟨answered, ?_, ?_, hanswers⟩ hfree rfl
    · exact (List.append_nil answered).symm ▸ hsub.trans (List.sublist_append_left _ _)
    · exact (List.append_nil answered).symm ▸ hadmitted

/-- In the admission lock of the reader. -/
theorem Inv.reserving_of (h : s.Inv) {arrival : Arrival} (hreader : s.reader = .reserving arrival) :
    s.reader.held = [] ∧ s.reader.arrival? = some arrival ∧ ∃ ticket hasCapacity raised,
    s.spool.deferredHolder = some ⟨.deferred ticket, hasCapacity, raised⟩ ∧
    (∀ other ∈ s.spool.stream.deferredTickets, other < ticket) ∧
    s.spool.nextTicket = ticket + if raised then 1 else 0 := by
  have hreserving := h.reserving
  unfold Reserving at hreserving
  rw [hreader] at hreserving ⊢
  exact ⟨rfl, rfl, hreserving⟩

theorem Inv.raise (h : s.Inv) {arrival : Arrival} (hreader : s.reader = .reserving arrival)
    {spool : EventSpool eventSpoolCapacity capacity} (hnext : s.spool.next .raise = some spool) :
    Inv { s with spool } := by
  obtain ⟨hheld, harrival, ticket, hasCapacity, raised, hdeferred, hlast, hnumber⟩ :=
    h.reserving_of hreader
  obtain ⟨rfl, hspool, htickets, hholder, hpending, hnumber'⟩ :=
    EventSpool.next_raise hdeferred hnext
  have hnew : spool.deferredHolder = some ⟨.deferred ticket, hasCapacity, true⟩ := by
    rw [EventSpool.deferredHolder, hholder]
    rfl
  have hsame : spool.stream.deferredTickets = s.spool.stream.deferredTickets :=
    congrArg (fun spool => spool.sent.filterMap EventSpoolItem.ticket?) hspool
  refine h.read hheld hheld ⟨?_, ?_⟩ htickets hsame (hnumber' ▸ Nat.le_succ _) h.answered ?_ ?_
  · rw [hspool]
    exact h.plain.items
  · intro holder hholder'
    obtain rfl := Option.some.inj (hholder.symm.trans hholder')
    exact EventSpool.deferred_isPlain _
  · unfold Reserving
    dsimp only
    rw [harrival, hsame]
    exact ⟨ticket, hasCapacity, true, hnew, hlast, hnumber'.trans (congrArg (· + 1) hnumber)⟩
  · rw [hpending, EventSpool.raisedTickets, EventSpool.raisedTickets, hdeferred, hnew]
    rfl

theorem unsettled_perm (outbound : Outbound) {ticket : ℕ} (hticket : outbound.ticket? = some ticket)
    (front rest : List Outbound) : ((front ++ [outbound] ++ rest).filterMap Outbound.ticket?).Perm
      (ticket :: (front ++ rest).filterMap Outbound.ticket?) := by
  rw [List.append_assoc, List.singleton_append, List.filterMap_append, List.filterMap_cons, hticket,
    List.filterMap_append]
  exact List.perm_middle

/-- The reader has its ticket. -/
theorem Inv.reserved (h : s.Inv) {arrival : Arrival} (hreader : s.reader = .reserving arrival)
    {spool : EventSpool eventSpoolCapacity capacity} {budget ticket : ℕ} {hasCapacity : Bool}
    (hdeferred : s.spool.deferredHolder = some ⟨.deferred ticket, hasCapacity, true⟩)
    (hlast : ∀ other ∈ s.spool.stream.deferredTickets, other < ticket)
    (hnumber : spool.nextTicket = ticket + 1)
    (htickets : spool.stream.tickets = s.spool.stream.tickets) (hholder : spool.holder = none)
    (hpending : spool.ticketsPending = s.spool.ticketsPending)
    (hsent : spool.stream.spool.sent = s.spool.stream.spool.sent ++ [.deferred ticket]) :
    Inv { s with
      spool
      reader := .sending (arrival.response budget ticket)
      reserved := s.reserved ++ [arrival.response budget ticket] } := by
  obtain ⟨hheld, harrival, _⟩ := h.reserving_of hreader
  have hnew : spool.stream.deferredTickets = s.spool.stream.deferredTickets ++ [ticket] := by
    unfold EventStream.deferredTickets
    rw [hsent, List.filterMap_append]
    rfl
  have hfree : spool.deferredHolder = none := by
    rw [EventSpool.deferredHolder, hholder]
    rfl
  have hticket : (arrival.response budget ticket).ticket? = some ticket := rfl
  have hunsettled := unsettled_perm (arrival.response budget ticket) hticket
    (s.writer.rest ++ s.batch ++ s.control) s.dropping
  have hold : s.unsettled = s.writer.rest ++ s.batch ++ s.control ++ s.dropping := by
    unfold Delivery.unsettled
    rw [hheld, List.append_nil]
  rw [← hold] at hunsettled
  constructor
  case plain =>
    refine ⟨?_, ?_⟩
    · rw [hsent, List.forall_mem_append]
      exact ⟨h.plain.items, List.forall_mem_singleton.mpr (EventSpool.deferred_isPlain ticket)⟩
    · intro holder hholder'
      cases hholder.symm.trans hholder'
  case answered =>
    obtain ⟨answered, hsub, hadmitted, hanswers⟩ := h.answered
    rw [harrival] at hsub hadmitted
    refine ⟨answered ++ [arrival], ?_, ?_, ?_⟩
    · exact (List.append_nil _).symm ▸ hsub
    · exact (List.append_nil _).symm ▸ hadmitted
    · exact List.rel_append hanswers (.cons ⟨budget, ticket, rfl⟩ .nil)
  case tickets =>
    rw [hnew, List.map_append, List.map_append, h.tickets]
    rfl
  case increasing =>
    rw [hnew, List.pairwise_append]
    refine ⟨h.increasing, List.pairwise_singleton _ _, fun other hmem last hlast' => ?_⟩
    rw [List.mem_singleton.mp hlast']
    exact hlast other hmem
  case numbered =>
    rw [hnew, List.forall_mem_append, hnumber]
    exact ⟨fun other hmem => (hlast other hmem).trans (Nat.lt_succ_self _),
      List.forall_mem_singleton.mpr (Nat.lt_succ_self _)⟩
  case reserving => exact hfree
  case flow =>
    have hflow := h.flow
    unfold Delivery.frames at hflow ⊢
    rw [hheld, List.append_nil] at hflow
    rw [ticketed, List.filter_append]
    exact hflow.append (.refl _)
  case publishing => exact h.publishing
  case published =>
    intro other event hpublished
    exact h.published other event ((congrFun htickets other).symm.trans hpublished)
  case unsettled =>
    intro other hmem hopen
    apply hunsettled.mem_iff.mpr
    rw [hnew] at hmem
    rcases List.mem_append.mp hmem with hmem | hmem
    · refine List.mem_cons_of_mem _ (h.unsettled other hmem ?_)
      exact (congrFun htickets other).symm.trans hopen
    · exact List.mem_singleton.mp hmem ▸ List.mem_cons_self
  case counted =>
    have hcounted := h.counted
    have hraised : s.spool.raisedTickets = 1 := by
      rw [EventSpool.raisedTickets, hdeferred]
      rfl
    have hraised' : spool.raisedTickets = 0 := by
      rw [EventSpool.raisedTickets, hfree]
      rfl
    have hlength := hunsettled.length_eq
    rw [List.length_cons] at hlength
    change spool.ticketsPending = ((s.writer.rest ++ s.batch ++ s.control ++
      [arrival.response budget ticket] ++ s.dropping).filterMap Outbound.ticket?).length +
        spool.raisedTickets
    omega
  case queued =>
    have hqueued := h.queued
    rw [hheld, List.append_nil] at hqueued
    exact hqueued.append (.refl _)

theorem Inv.reserve (h : s.Inv) {budget : ℕ} (hnext : s.reserve budget = some s') : s'.Inv := by
  unfold Delivery.reserve at hnext
  split at hnext
  · next arrival ticket hasCapacity raised hreader hholder =>
    obtain ⟨spool, hspool, rfl⟩ := Option.map_eq_some_iff.mp hnext
    obtain ⟨hheld, harrival, _, _, _, hdeferred, hlast, hnumber⟩ := h.reserving_of hreader
    cases (EventSpool.holder_of_deferred hdeferred).symm.trans hholder
    obtain ⟨rfl, htickets, hnone, hnumber',
        ⟨⟨_, hput⟩, hpending, hsent⟩ | ⟨⟨_, hput⟩, hpending, hsent⟩⟩ :=
      EventSpool.next_send hdeferred hspool
    · rw [hput]
      exact h.reserved hreader hdeferred hlast (hnumber'.trans hnumber) htickets hnone
        hpending hsent
    · rw [hput]
      have hfree : spool.deferredHolder = none := by
        rw [EventSpool.deferredHolder, hnone]
        rfl
      have hraised : s.spool.raisedTickets = 1 := by
        rw [EventSpool.raisedTickets, hdeferred]
        rfl
      have hraised' : spool.raisedTickets = 0 := by
        rw [EventSpool.raisedTickets, hfree]
        rfl
      have hcounted := h.counted
      obtain ⟨answered, hsub, hadmitted, hanswers⟩ := h.answered
      refine h.read hheld rfl ⟨hsent ▸ h.plain.items, ?_⟩ htickets ?_ hnumber'.ge
        ⟨answered, ?_, ?_, hanswers⟩ hfree (by omega)
      · intro holder hholder'
        cases hnone.symm.trans hholder'
      · rw [EventStream.deferredTickets, hsent]
        rfl
      · exact (List.append_nil _).symm ▸ (List.sublist_append_left _ _).trans hsub
      · intro a hmem
        exact hadmitted a (List.mem_append_left _ (List.append_nil answered ▸ hmem))
  · cases hnext

/-! ## The frames -/

theorem ticketed_append (l l' : List Outbound) : ticketed (l ++ l') = ticketed l ++ ticketed l' :=
  List.filter_append ..

theorem ticketed_of_none {outbound : Outbound} (hticket : outbound.ticket? = none) :
    ticketed [outbound] = [] := by
  rw [ticketed, List.filter_singleton, hticket]
  rfl

theorem tickets_of_none {outbound : Outbound} (hticket : outbound.ticket? = none) :
    [outbound].filterMap Outbound.ticket? = [] := by
  rw [List.filterMap_cons, hticket]
  rfl

theorem settle_some {outbound : Outbound} {event : ℕ → Event → SpoolEvent}
    (hnext : s.settle outbound event = some s') :
    outbound.ticket? = none ∧ s' = s ∨ ∃ ticket shown spool,
      outbound.eventAfterWrite = some (ticket, shown) ∧
      s.spool.next (event ticket shown) = some spool ∧ s' = { s with spool } := by
  unfold Delivery.settle at hnext
  split at hnext
  · next ticket shown hshown =>
    obtain ⟨spool, hspool, rfl⟩ := Option.map_eq_some_iff.mp hnext
    exact Or.inr ⟨ticket, shown, spool, hshown, hspool, rfl⟩
  · next hnone =>
    cases hnext
    exact Or.inl ⟨by rw [Outbound.ticket?, hnone]; rfl, rfl⟩

theorem Inv.publish (h : s.Inv) {outbound : Outbound} {rest : List Outbound}
    (hwriter : s.writer = .publishing (outbound :: rest))
    (hnext : { s with writer := .publishing rest }.settle outbound .publish = some s') :
    s'.Inv := by
  have hpublishing := h.publishing
  rw [hwriter] at hpublishing
  obtain ⟨hwritten, hrest⟩ := List.forall_mem_cons.mp hpublishing
  have hunsettled : s.unsettled = [outbound] ++
      Delivery.unsettled { s with writer := .publishing rest } := by
    unfold Delivery.unsettled
    rw [hwriter]
    rfl
  rcases settle_some hnext with ⟨hnone, rfl⟩ | ⟨ticket, event, spool, hevent, hspool, rfl⟩
  · refine h.move rfl rfl rfl rfl (List.Subset.refl _) hrest (.refl _) ?_
      (.refl _)
    rw [hunsettled, List.filterMap_append, tickets_of_none hnone]
    exact .refl _
  · have hsettled := EventSpool.settled_publish hspool
    refine h.settle (.publishing rest) s.dropping hsettled (by rintro ⟨⟩) ?_ hrest ?_
    · rintro _ ⟨⟩
      exact ⟨outbound, hwritten, hevent⟩
    · rw [hunsettled]
      exact unsettled_perm outbound (by rw [Outbound.ticket?, hevent]; rfl) [] _

theorem Inv.drop (h : s.Inv) {outbound : Outbound} {rest : List Outbound}
    (hdropping : s.dropping = outbound :: rest)
    (hnext : { s with dropping := rest }.settle outbound (fun ticket _ => .dropTicket ticket) =
      some s') : s'.Inv := by
  have hunsettled : s.unsettled = s.writer.rest ++ s.batch ++ s.control ++ s.reader.held ++
      [outbound] ++ rest := by
    unfold Delivery.unsettled
    rw [hdropping, List.append_assoc _ [outbound] rest]
    rfl
  rcases settle_some hnext with ⟨hnone, rfl⟩ | ⟨ticket, event, spool, hevent, hspool, rfl⟩
  · refine h.move rfl rfl rfl rfl (List.Subset.refl _) h.publishing (.refl _) ?_
      (.refl _)
    rw [hunsettled, List.filterMap_append, List.filterMap_append, tickets_of_none hnone,
      List.append_nil, ← List.filterMap_append]
    exact .refl _
  · have hsettled := EventSpool.settled_dropTicket hspool
    refine h.settle s.writer rest hsettled (by rintro ⟨⟩) (by rintro _ ⟨⟩) h.publishing ?_
    rw [hunsettled]
    exact unsettled_perm outbound (by rw [Outbound.ticket?, hevent]; rfl) _ _

/-! ## The frames on their way -/

/-- The response goes into the queue. -/
theorem Inv.queue (h : s.Inv) {outbound : Outbound} (hreader : s.reader = .sending outbound) :
    Inv { s with
      reader := .reading
      control := s.control ++ [outbound]
      queued := s.queued ++ [outbound] } := by
  have hheld : s.reader.held = [outbound] := by
    rw [hreader]
    rfl
  refine h.move rfl rfl rfl ?_ (List.Subset.refl _) h.publishing ?_ ?_ ?_
  · rw [hreader]
    rfl
  · simp only [frames, hheld, DeliverStage.held_reading, List.append_assoc, List.append_nil]
    exact .refl _
  · simp only [Delivery.unsettled, hheld, DeliverStage.held_reading, List.append_assoc,
      List.nil_append]
    exact .refl _
  · rw [hheld, DeliverStage.held_reading, List.append_nil, List.filter_append]
    exact List.filter_sublist.append_left _

/-- The response is dropped instead. -/
theorem Inv.giveUp (h : s.Inv) {outbound : Outbound} (hreader : s.reader = .sending outbound) :
    Inv { s with reader := .stopped, dropping := s.dropping ++ [outbound] } := by
  have hheld : s.reader.held = [outbound] := by
    rw [hreader]
    rfl
  refine h.move rfl rfl rfl ?_ (List.Subset.refl _) h.publishing ?_ ?_
    ((List.nil_sublist _).append_left _)
  · rw [hreader]
    rfl
  · simp only [frames, hheld, DeliverStage.held_stopped, List.append_nil]
    exact (List.sublist_append_left _ _).filter _
  · simp only [Delivery.unsettled, hheld, DeliverStage.held_stopped, List.append_nil,
      List.append_assoc]
    refine List.Perm.filterMap _ ?_
    exact ((List.perm_append_comm.append_left _).append_left _).append_left _

theorem Inv.stopReader (h : s.Inv) (hreading : s.reader = .reading) :
    Inv { s with reader := .stopped } := by
  have hheld : s.reader.held = [] := by
    rw [hreading]
    rfl
  refine h.move rfl rfl rfl ?_ (List.Subset.refl _) h.publishing ?_ ?_ (hheld ▸ .refl _)
  · rw [hreading]
    rfl
  · simp only [frames, hheld, DeliverStage.held_stopped]
    exact .refl _
  · simp only [Delivery.unsettled, hheld, DeliverStage.held_stopped]
    exact .refl _

theorem Inv.queueControl (h : s.Inv) (sequenceId : UInt32) (frame : ControlFrame) :
    Inv { s with
      control := s.control ++ [frame.outbound sequenceId]
      queued := s.queued ++ [frame.outbound sequenceId] } := by
  have hnone := frame.ticket? sequenceId
  refine h.move rfl rfl rfl rfl (List.Subset.refl _) h.publishing ?_ ?_ ?_
  · simp only [frames, ticketed_append, ticketed_of_none hnone, List.append_nil]
    exact .refl _
  · simp only [Delivery.unsettled, List.filterMap_append, tickets_of_none hnone, List.append_nil]
    exact .refl _
  · rw [List.filter_append, List.filter_singleton, frame.not_isDeliverResp sequenceId, cond_false,
      List.append_nil]

theorem Inv.take (h : s.Inv) {outbound : Outbound} {rest : List Outbound}
    (hcontrol : s.control = outbound :: rest) :
    Inv { s with control := rest, batch := s.batch ++ [outbound] } := by
  refine h.move rfl rfl rfl rfl (List.Subset.refl _) h.publishing ?_ ?_ (.refl _)
  · simp only [frames, hcontrol, List.append_assoc, List.singleton_append]
    exact .refl _
  · simp only [Delivery.unsettled, hcontrol, List.append_assoc, List.singleton_append]
    exact .refl _

theorem Inv.skip (h : s.Inv) {outbound : Outbound} {rest : List Outbound}
    (hcontrol : s.control = outbound :: rest) :
    Inv { s with control := rest, dropping := s.dropping ++ [outbound] } := by
  refine h.move rfl rfl rfl rfl (List.Subset.refl _) h.publishing ?_ ?_ (.refl _)
  · simp only [frames, hcontrol]
    refine List.Sublist.filter _ (List.Sublist.append_right ?_ _)
    exact (List.sublist_cons_self _ _).append_left _
  · have hperm := List.perm_append_singleton outbound (rest ++ s.reader.held ++ s.dropping)
    simp only [Delivery.unsettled, hcontrol, List.append_assoc] at hperm ⊢
    exact ((hperm.append_left _).append_left _).filterMap _

theorem Inv.takeSubmit (h : s.Inv) (packet : List UInt8) (key : SubmitAttemptKey) :
    Inv { s with batch := s.batch ++ [.submit packet key] } := by
  have hnone : (Outbound.submit packet key).ticket? = none := rfl
  refine h.move rfl rfl rfl rfl (List.Subset.refl _) h.publishing ?_ ?_ (.refl _)
  · simp only [frames, ticketed_append, ticketed_of_none hnone, List.append_nil]
    exact .refl _
  · simp only [Delivery.unsettled, List.filterMap_append, tickets_of_none hnone, List.append_nil]
    exact .refl _

theorem Inv.write (h : s.Inv) (hwriter : s.writer = .collecting) :
    Inv { s with writer := .writing } := by
  refine h.move rfl rfl rfl rfl (List.Subset.refl _) (by rintro _ ⟨⟩) (.refl _) ?_ (.refl _)
  simp only [Delivery.unsettled, hwriter, DeliveryWriterStage.rest_collecting,
    DeliveryWriterStage.rest_writing]
  exact .refl _

/-- The batch has been written, and its tickets are published next. -/
theorem Inv.wrote (h : s.Inv) (hwriter : s.writer = .writing) :
    Inv { s with writer := .publishing s.batch, batch := [], written := s.written ++ s.batch } := by
  refine h.move rfl rfl rfl rfl (List.subset_append_left _ _) ?_ ?_ ?_ (.refl _)
  · intro outbound hmem
    exact List.mem_append_right _ hmem
  · simp only [frames, List.append_nil]
    exact .refl _
  · simp only [Delivery.unsettled, hwriter, DeliveryWriterStage.rest_writing,
      DeliveryWriterStage.rest_publishing, List.append_nil, List.nil_append]
    exact .refl _

theorem Inv.endBatch (h : s.Inv) (hwriter : s.writer = .publishing []) :
    Inv { s with writer := .collecting } := by
  refine h.move rfl rfl rfl rfl (List.Subset.refl _) (by rintro _ ⟨⟩) (.refl _) ?_ (.refl _)
  simp only [Delivery.unsettled, hwriter, DeliveryWriterStage.rest_publishing,
    DeliveryWriterStage.rest_collecting]
  exact .refl _

/-- The frames of the batch and of the queue are dropped with the writer. -/
theorem Inv.stopWriter (h : s.Inv) (hwriter : s.writer = .collecting ∨ s.writer = .writing) :
    Inv { s with
      writer := .stopped
      batch := []
      control := []
      dropping := s.dropping ++ s.batch ++ s.control } := by
  have hrest : s.writer.rest = [] := by
    rcases hwriter with hwriter | hwriter
    · rw [hwriter]
      rfl
    · rw [hwriter]
      rfl
  refine h.move rfl rfl rfl rfl (List.Subset.refl _) (by rintro _ ⟨⟩) ?_ ?_ (.refl _)
  · simp only [frames, List.append_nil]
    refine List.Sublist.filter _ (List.Sublist.append_right ?_ _)
    rw [List.append_assoc]
    exact List.sublist_append_left _ _
  · have hperm : (s.reader.held ++ s.dropping ++ (s.batch ++ s.control)).Perm
        (s.batch ++ s.control ++ (s.reader.held ++ s.dropping)) := List.perm_append_comm
    simp only [Delivery.unsettled, hrest, DeliveryWriterStage.rest_stopped, List.nil_append,
      List.append_nil, List.append_assoc] at hperm ⊢
    exact hperm.filterMap _

/-! ## All steps -/

theorem Inv.next (h : s.Inv) {event : DeliveryEvent} (hnext : s.next event = some s') : s'.Inv := by
  cases event with
  | deliver sequenceId deliver =>
    simp only [Delivery.next] at hnext
    split_ifs at hnext with hreading
    obtain ⟨spool, hspool, rfl⟩ := Option.map_eq_some_iff.mp hnext
    exact h.meet hreading rfl hspool
  | raise =>
    simp only [Delivery.next] at hnext
    split at hnext
    · next hreader =>
      obtain ⟨spool, hspool, rfl⟩ := Option.map_eq_some_iff.mp hnext
      exact h.raise hreader hspool
    · cases hnext
  | send budget => exact h.reserve hnext
  | queue =>
    simp only [Delivery.next] at hnext
    split at hnext
    · next outbound hreader =>
      split_ifs at hnext
      cases hnext
      exact h.queue hreader
    · cases hnext
  | giveUp =>
    simp only [Delivery.next] at hnext
    split at hnext
    · next outbound hreader =>
      cases hnext
      exact h.giveUp hreader
    · cases hnext
  | stopReader =>
    simp only [Delivery.next] at hnext
    split_ifs at hnext with hreading
    cases hnext
    exact h.stopReader hreading
  | queueControl sequenceId frame =>
    simp only [Delivery.next] at hnext
    split_ifs at hnext
    cases hnext
    exact h.queueControl sequenceId frame
  | take =>
    simp only [Delivery.next] at hnext
    split at hnext
    · next outbound rest hwriter hcontrol =>
      cases hnext
      exact h.take hcontrol
    · cases hnext
  | skip =>
    simp only [Delivery.next] at hnext
    split at hnext
    · next outbound rest hwriter hcontrol =>
      split_ifs at hnext
      cases hnext
      exact h.skip hcontrol
    · cases hnext
  | takeSubmit packet key =>
    simp only [Delivery.next] at hnext
    split_ifs at hnext
    cases hnext
    exact h.takeSubmit packet key
  | write =>
    simp only [Delivery.next] at hnext
    split_ifs at hnext with hwrite
    cases hnext
    exact h.write hwrite.1
  | wrote =>
    simp only [Delivery.next] at hnext
    split_ifs at hnext with hwriting
    cases hnext
    exact h.wrote hwriting
  | publish =>
    simp only [Delivery.next] at hnext
    split at hnext
    · next outbound rest hwriter => exact h.publish hwriter hnext
    · cases hnext
  | endBatch =>
    simp only [Delivery.next] at hnext
    split_ifs at hnext with hwriter
    cases hnext
    exact h.endBatch hwriter
  | stopWriter =>
    simp only [Delivery.next] at hnext
    split_ifs at hnext with hwriter
    cases hnext
    exact h.stopWriter hwriter
  | drop =>
    simp only [Delivery.next] at hnext
    split at hnext
    · next outbound rest hdropping => exact h.drop hdropping hnext
    · cases hnext
  | spool event =>
    cases event with
    | dropConnection =>
      simp only [Delivery.next] at hnext
      split_ifs at hnext
      obtain ⟨spool, hspool, rfl⟩ := Option.map_eq_some_iff.mp hnext
      exact h.spares (EventSpool.spares_next rfl hspool)
    | _ =>
      simp only [Delivery.next] at hnext
      split_ifs at hnext with hspares
      obtain ⟨spool, hspool, rfl⟩ := Option.map_eq_some_iff.mp hnext
      exact h.spares (EventSpool.spares_next hspares hspool)

/-! ## Runs -/

theorem Inv.initial : (initial eventSpoolCapacity capacity).Inv where
  plain := ⟨List.forall_mem_nil _, by rintro _ ⟨⟩⟩
  answered := ⟨[], .slnil, List.forall_mem_nil _, .nil⟩
  tickets := rfl
  increasing := .nil
  numbered := List.forall_mem_nil _
  reserving := rfl
  flow := .slnil
  publishing := List.forall_mem_nil _
  published := by rintro _ _ ⟨⟩
  unsettled := by rintro _ ⟨⟩
  counted := rfl
  queued := .slnil

theorem inv_run {history : List DeliveryEvent}
    (hrun : (machine eventSpoolCapacity capacity).Run history s) : s.Inv := by
  refine hrun.invariant (I := fun _ s => s.Inv) ?_ fun _ _ _ _ h hnext => h.next hnext
  rintro s rfl
  exact .initial

theorem spool_of_settle {outbound : Outbound} {event : ℕ → Event → SpoolEvent}
    (hnext : s.settle outbound event = some s') :
    s'.spool = s.spool ∨ ∃ step, s.spool.next step = some s'.spool := by
  rcases settle_some hnext with ⟨_, rfl⟩ | ⟨ticket, shown, spool, _, hspool, rfl⟩
  · exact Or.inl rfl
  · exact Or.inr ⟨_, hspool⟩

theorem next_spool {event : DeliveryEvent} (hnext : s.next event = some s') :
    s'.spool = s.spool ∨ ∃ step, s.spool.next step = some s'.spool := by
  cases event with
  | deliver sequenceId deliver =>
    simp only [Delivery.next] at hnext
    split_ifs at hnext
    obtain ⟨spool, hspool, rfl⟩ := Option.map_eq_some_iff.mp hnext
    exact Or.inr ⟨_, hspool⟩
  | raise =>
    simp only [Delivery.next] at hnext
    split at hnext
    · obtain ⟨spool, hspool, rfl⟩ := Option.map_eq_some_iff.mp hnext
      exact Or.inr ⟨_, hspool⟩
    · cases hnext
  | send budget =>
    simp only [Delivery.next, Delivery.reserve] at hnext
    split at hnext
    · obtain ⟨spool, hspool, rfl⟩ := Option.map_eq_some_iff.mp hnext
      refine Or.inr ⟨.send, hspool.trans ?_⟩
      split <;> rfl
    · cases hnext
  | queue =>
    simp only [Delivery.next] at hnext
    split at hnext
    · split_ifs at hnext
      cases hnext
      exact Or.inl rfl
    · cases hnext
  | skip =>
    simp only [Delivery.next] at hnext
    split at hnext
    · split_ifs at hnext
      cases hnext
      exact Or.inl rfl
    · cases hnext
  | publish =>
    simp only [Delivery.next] at hnext
    split at hnext
    · have hsettle := spool_of_settle hnext
      exact hsettle
    · cases hnext
  | drop =>
    simp only [Delivery.next] at hnext
    split at hnext
    · have hsettle := spool_of_settle hnext
      exact hsettle
    · cases hnext
  | giveUp | take =>
    simp only [Delivery.next] at hnext
    split at hnext
    · cases hnext
      exact Or.inl rfl
    · cases hnext
  | spool event =>
    cases event with
    | _ =>
      simp only [Delivery.next] at hnext
      split_ifs at hnext
      obtain ⟨spool, hspool, rfl⟩ := Option.map_eq_some_iff.mp hnext
      exact Or.inr ⟨_, hspool⟩
  | _ =>
    simp only [Delivery.next] at hnext
    split_ifs at hnext
    cases hnext
    exact Or.inl rfl

theorem spool_run {history : List DeliveryEvent}
    (hrun : (machine eventSpoolCapacity capacity).Run history s) :
    ∃ below, (EventSpool.machine eventSpoolCapacity capacity).Run below s.spool := by
  refine hrun.invariant (I := fun _ s =>
    ∃ below, (EventSpool.machine eventSpoolCapacity capacity).Run below s.spool) ?_ ?_
  · rintro s rfl
    exact ⟨[], Machine.Run.start rfl⟩
  · rintro _ s event s' ⟨below, hbelow⟩ hnext
    rcases next_spool hnext with hsame | ⟨step, hstep⟩
    · exact ⟨below, hsame ▸ hbelow⟩
    · exact ⟨below ++ [step], hbelow.snoc hstep⟩

/-! ## What is shown -/

theorem Inv.nodup (h : s.Inv) : (s.reserved.map Outbound.ticket?).Nodup := by
  rw [h.tickets]
  exact (h.increasing.imp fun hlt => hlt.ne).map _ fun _ _ hne heq => hne (Option.some.inj heq)

theorem Inv.written_sublist (h : s.Inv) : (ticketed s.written).Sublist s.reserved := by
  refine List.Sublist.trans ?_ h.flow
  unfold Delivery.frames
  rw [ticketed_append, ticketed_append, ticketed_append, List.append_assoc, List.append_assoc]
  exact List.sublist_append_left _ _

/-- The frame of a published ticket was written, with the event that was published. -/
theorem Inv.written_of_published (h : s.Inv) {outbound : Outbound} (hmem : outbound ∈ s.reserved)
    {ticket : ℕ} (hticket : outbound.ticket? = some ticket) {event : Event}
    (hpublished : s.spool.stream.tickets ticket = .published event) :
    outbound ∈ ticketed s.written ∧ outbound.eventAfterWrite = some (ticket, event) := by
  obtain ⟨other, hother, hevent⟩ := h.published ticket event hpublished
  have hticket' : other.ticket? = some ticket := by
    rw [Outbound.ticket?, hevent]
    rfl
  have hin : other ∈ ticketed s.written :=
    List.mem_filter.mpr ⟨hother, by rw [hticket']; rfl⟩
  obtain rfl := List.inj_on_of_nodup_map h.nodup (h.written_sublist.subset hin) hmem
    (hticket'.trans hticket.symm)
  exact ⟨hin, hevent⟩

/-- The events of the tickets are the DELIVERs that the frames answer. -/
theorem delivers_eq {arrivals : List Arrival} {frames : List Outbound} {shown : List ℕ}
    {delivers : List Deliver} {p : ℕ → Deliver → Prop}
    (hanswers : List.Forall₂ Arrival.Answers arrivals frames)
    (htickets : shown.map some = frames.map Outbound.ticket?)
    (hshown : List.Forall₂ p shown delivers)
    (hframes : ∀ outbound ∈ frames, ∀ ticket deliver, outbound.ticket? = some ticket →
      p ticket deliver → outbound.eventAfterWrite = some (ticket, .deliver deliver)) :
    delivers = arrivals.map Arrival.deliver := by
  induction hanswers generalizing shown delivers with
  | nil =>
    obtain rfl := List.map_eq_nil_iff.mp htickets
    cases hshown
    rfl
  | @cons arrival outbound arrivals frames hanswer _ ih =>
    cases hshown with
    | nil => cases htickets
    | @cons ticket deliver shown delivers hdeliver hshown =>
      obtain ⟨hticket, htickets⟩ := List.cons.inj htickets
      have hevent := hframes outbound List.mem_cons_self ticket deliver hticket.symm hdeliver
      have hrest := ih htickets hshown fun other hmem => hframes other (List.mem_cons_of_mem _ hmem)
      obtain ⟨budget, number, rfl⟩ := hanswer
      obtain ⟨_, hevent⟩ := Prod.mk.inj (Option.some.inj hevent)
      rw [hrest, List.map_cons, Event.deliver.inj hevent]

/-- The DELIVERs of the public channel are some of those that arrived, in their order and each once,
and the response to each was written. A response is queued for a DELIVER that found the admission
open or draining, once its ticket is in the spool. The seal leaves no ticket of the spool open. -/
structure Acknowledged (s : Delivery eventSpoolCapacity capacity) : Prop where
  shown : ∃ shown frames, shown.Sublist s.arrived ∧ frames.Sublist s.written ∧
    List.Forall₂ Arrival.Answers shown frames ∧
    s.spool.stream.events.sent.filterMap Event.deliver? = shown.map Arrival.deliver
  queued : ∃ answered, answered.Sublist s.arrived ∧
    (∀ arrival ∈ answered, arrival.admission = .opened ∨ arrival.admission = .draining) ∧
    List.Forall₂ (fun arrival outbound => ∃ budget ticket,
      outbound = arrival.response budget ticket ∧ .deferred ticket ∈ s.spool.stream.spool.sent)
      answered (s.queued.filter Outbound.isDeliverResp)
  sealed : ∀ s', s.spool.admission ≠ .sealed → s.spool.admission ≠ .terminal →
    s.next (.spool .sealIfIdle) = some s' → s'.spool.admission = .sealed →
    ∀ ticket, .deferred ticket ∈ s.spool.stream.spool.sent →
      s.spool.stream.tickets ticket ≠ .reserved

theorem Inv.shown (h : s.Inv) {history : List StreamEvent} (hcapacity : 2 ≤ capacity)
    (hrun : (EventStream.machine (eventSpoolCapacity + 2) capacity).Run history s.spool.stream) :
    ∃ shown frames, shown.Sublist s.arrived ∧ frames.Sublist s.written ∧
      List.Forall₂ Arrival.Answers shown frames ∧
      s.spool.stream.events.sent.filterMap Event.deliver? = shown.map Arrival.deliver := by
  obtain ⟨tickets, htickets, hpublished⟩ :=
    EventStream.delivers_run hcapacity hrun h.plain.items
  obtain ⟨frames, hframes, hmap⟩ := List.sublist_map_iff.mp (h.tickets ▸ htickets.map some)
  obtain ⟨answered, hsub, _, hanswers⟩ := h.answered
  obtain ⟨shown, hshown, hanswers⟩ := hanswers.exists_sublist hframes
  have harrived := hshown.trans ((List.sublist_append_left _ _).trans hsub)
  have hwritten : frames.Sublist (ticketed s.written) := by
    have hnodup := h.nodup.of_map
    refine List.Sublist.of_subset hnodup hframes h.written_sublist fun outbound hmem => ?_
    have hticket := List.mem_map_of_mem (f := Outbound.ticket?) hmem
    rw [← hmap] at hticket
    obtain ⟨ticket, hin, hticket⟩ := List.mem_map.mp hticket
    obtain ⟨deliver, hdeliver⟩ := hpublished.exists_of_mem hin
    exact (h.written_of_published (hframes.subset hmem) hticket.symm hdeliver).1
  refine ⟨shown, frames, harrived, hwritten.trans List.filter_sublist, hanswers, ?_⟩
  refine delivers_eq hanswers hmap hpublished fun outbound hmem ticket deliver hticket
    hdeliver => ?_
  exact (h.written_of_published (hframes.subset hmem) hticket hdeliver).2

theorem Inv.queued_answers (h : s.Inv) : ∃ answered, answered.Sublist s.arrived ∧
    (∀ arrival ∈ answered, arrival.admission = .opened ∨ arrival.admission = .draining) ∧
    List.Forall₂ (fun arrival outbound => ∃ budget ticket,
      outbound = arrival.response budget ticket ∧ .deferred ticket ∈ s.spool.stream.spool.sent)
      answered (s.queued.filter Outbound.isDeliverResp) := by
  obtain ⟨answered, hsub, hadmitted, hanswers⟩ := h.answered
  have hqueued := (List.sublist_append_left _ _).trans h.queued
  have hput (outbound : Outbound) (hmem : outbound ∈ s.reserved) :
      ∀ ticket, outbound.ticket? = some ticket → .deferred ticket ∈ s.spool.stream.spool.sent := by
    intro ticket hticket
    have hin := List.mem_map_of_mem (f := Outbound.ticket?) hmem
    rw [h.tickets, hticket] at hin
    obtain ⟨_, hin, ⟨⟩⟩ := List.mem_map.mp hin
    exact EventStream.mem_deferredTickets.mp hin
  obtain ⟨answered', hsub', hrelated⟩ := (hanswers.and_right hput).exists_sublist hqueued
  refine ⟨answered', hsub'.trans ((List.sublist_append_left _ _).trans hsub), ?_, ?_⟩
  · intro arrival hmem
    have hadmission := hadmitted arrival (List.mem_append_left _ (hsub'.subset hmem))
    rw [Arrival.isAdmitted, Bool.or_eq_true, decide_eq_true_eq, decide_eq_true_eq] at hadmission
    exact hadmission
  · refine hrelated.imp fun arrival outbound hboth => ?_
    obtain ⟨⟨budget, ticket, rfl⟩, hput⟩ := hboth
    exact ⟨budget, ticket, rfl, hput ticket rfl⟩

/-- The seal finds no guard of a ticket, hence no frame that holds one. -/
theorem Inv.sealed (h : s.Inv) (hsealed : s.spool.admission ≠ .sealed)
    (hterminal : s.spool.admission ≠ .terminal) (hnext : s.next (.spool .sealIfIdle) = some s')
    (hseals : s'.spool.admission = .sealed) {ticket : ℕ}
    (hput : .deferred ticket ∈ s.spool.stream.spool.sent) :
    s.spool.stream.tickets ticket ≠ .reserved := by
  intro hopen
  have hmem := h.unsettled ticket (EventStream.mem_deferredTickets.mpr hput) hopen
  have hcounted := h.counted
  have hpositive := List.length_pos_of_mem hmem
  simp only [Delivery.next] at hnext
  split_ifs at hnext
  obtain ⟨spool, hspool, rfl⟩ := Option.map_eq_some_iff.mp hnext
  simp only [EventSpool.next, EventSpool.ownedNext, EventSpool.sealIfIdle] at hspool
  split_ifs at hspool with _ _ hover hpending
  · exact hover.elim hsealed hterminal
  · cases hspool
    exact hsealed hseals
  · omega

/-- For every run, under every interleaving of the reader, the writer, the dispatcher, the teardown
and all other tasks. -/
theorem acknowledged {history : List DeliveryEvent} (hcapacity : 2 ≤ capacity)
    (hrun : (machine eventSpoolCapacity capacity).Run history s) : s.Acknowledged := by
  have h := inv_run hrun
  obtain ⟨below, hbelow⟩ := spool_run hrun
  obtain ⟨steps, hsteps⟩ := EventSpool.stream_run hbelow
  refine ⟨h.shown hcapacity hsteps, h.queued_answers, ?_⟩
  intro s' hsealed hterminal hnext hseals ticket hput
  exact h.sealed hsealed hterminal hnext hseals hput

/-- A DELIVER is shown once its response was written; another one meets the sealed admission. -/
theorem acknowledged_sealed : ∃ deliver history s, (machine 2 2).Run history s ∧
    s.spool.stream.events.sent = [.deliver deliver] ∧ s.arrived.length = 2 ∧
    (s.queued.filter Outbound.isDeliverResp).length = 1 ∧ s.Acknowledged := by
  let deliver : Deliver := ⟨Vector.replicate 8 1, "", "", 0, 0, 0, "", 0, []⟩
  have hexec : (Machine.exec next (initial 2 2) [.deliver 5 deliver, .raise, .send 0, .queue, .take,
        .spool (.dispatcher .advance), .write, .wrote, .publish, .endBatch,
        .spool (.dispatcher .advance), .spool (.dispatcher .advance), .spool .beginEventDrain,
        .spool .sealIfIdle, .deliver 6 deliver]).map (fun s =>
          decide (s.spool.stream.events.sent = [.deliver deliver] ∧ s.arrived.length = 2 ∧
            (s.queued.filter Outbound.isDeliverResp).length = 1)) = some true := by decide +kernel
  obtain ⟨s, hrun, hview⟩ := Machine.exists_run_of_exec _ hexec
  obtain ⟨hsent, harrived, hqueued⟩ := of_decide_eq_true hview
  exact ⟨deliver, _, s, hrun, hsent, harrived, hqueued, acknowledged le_rfl hrun⟩

end Delivery

end CmppProtocol
