import CmppProtocol.Events.Stream
import Mathlib.Algebra.BigOperators.Group.List.Basic

/-! # The depth of the stream

The depth counter stands for the items of the spool, the one in the dispatcher's
hand and those that are about to be sent. Each step of the dispatcher keeps this,
as an item's depth goes when the item is dropped.
-/

namespace CmppProtocol

namespace EventStream

variable {spoolCapacity capacity extra : ℕ} {s s' : EventStream spoolCapacity capacity}

/-- The depth of the items in the spool and in the dispatcher's hand. They go with the
dispatcher. -/
def load (s : EventStream spoolCapacity capacity) : ℕ :=
  if s.stage = .exited then 0
  else (s.spool.queued.map EventSpoolItem.depth).sum + s.depthPermit

/-- The depth counter is the load and what producers have added for items not sent yet. -/
structure Metered (s : EventStream spoolCapacity capacity) (extra : ℕ) : Prop where
  permit : s.stage = .receiving → s.depthPermit = 0
  closed : s.spool.closed = true ↔ s.stage = .exited
  depth : s.eventDepth = s.load + extra

theorem load_of_running (hstage : s.stage ≠ .exited) :
    s.load = (s.spool.queued.map EventSpoolItem.depth).sum + s.depthPermit := if_neg hstage

theorem load_exited (hstage : s.stage = .exited) : s.load = 0 := if_pos hstage

theorem failDispatch_stage (event : Event) (rest : List Event) (error : EventDispatchError) :
    (s.failDispatch event rest error).stage ≠ .receiving ∧
      (s.failDispatch event rest error).stage ≠ .exited := by
  unfold failDispatch
  cases error with
  | closed => exact ⟨by rintro ⟨⟩, by rintro ⟨⟩⟩
  | backpressure =>
    dsimp only
    split_ifs
    · exact ⟨by rintro ⟨⟩, by rintro ⟨⟩⟩
    · exact ⟨by rintro ⟨⟩, by rintro ⟨⟩⟩

/-- The dispatcher goes on with the item in its hand. -/
theorem Metered.keep (h : s.Metered extra) (hstage : s.stage ≠ .exited)
    (hspool : s'.spool = s.spool)
    (hpermit : s'.depthPermit = s.depthPermit) (hdepth : s'.eventDepth = s.eventDepth)
    (hreceiving : s'.stage ≠ .receiving) (hexited : s'.stage ≠ .exited) :
    s'.Metered extra ∧ s'.load ≤ s.load := by
  have hload : s'.load = s.load := by
    rw [load_of_running hexited, load_of_running hstage, hspool, hpermit]
  refine ⟨⟨fun hstage => absurd hstage hreceiving, ?_, ?_⟩, hload.le⟩
  · rw [hspool, h.closed]
    exact iff_of_false hstage hexited
  · rw [hdepth, hload]
    exact h.depth

theorem Metered.finishItem (h : s.Metered extra) (hstage : s.stage ≠ .exited) :
    s.finishItem.Metered extra ∧ s.finishItem.load ≤ s.load := by
  have hload := load_of_running hstage
  have hfinished : s.finishItem.load = (s.spool.queued.map EventSpoolItem.depth).sum + 0 :=
    load_of_running (by rintro ⟨⟩)
  have hdepth := h.depth
  refine ⟨⟨fun _ => rfl, h.closed.trans (iff_of_false hstage (by rintro ⟨⟩)), ?_⟩, by omega⟩
  change s.eventDepth - s.depthPermit = _
  omega

theorem Metered.exit (h : s.Metered extra) (hstage : s.stage ≠ .exited) :
    s.exit.Metered extra ∧ s.exit.load ≤ s.load := by
  have hload := load_of_running hstage
  have hexited : s.exit.load = 0 := load_exited rfl
  have hdepth := h.depth
  refine ⟨⟨by rintro ⟨⟩, iff_of_true rfl rfl, ?_⟩, hexited ▸ Nat.zero_le _⟩
  change s.eventDepth - s.depthPermit - (s.spool.queued.map EventSpoolItem.depth).sum = _
  omega

/-- The item is in the spool, then in the dispatcher's hand. -/
theorem Metered.take {spool : Channel EventSpoolItem spoolCapacity} {item : EventSpoolItem}
    (h : s.Metered extra) (hstage : s.stage = .receiving) (hrecv : s.spool.Received spool item)
    (hspool : s'.spool = spool) (hpermit : s'.depthPermit = item.depth)
    (hdepth : s'.eventDepth = s.eventDepth) (hreceiving : s'.stage ≠ .receiving)
    (hexited : s'.stage ≠ .exited) : s'.Metered extra ∧ s'.load ≤ s.load := by
  have hrunning : s.stage ≠ .exited := by
    rw [hstage]
    rintro ⟨⟩
  have hload := load_of_running hrunning
  rw [hrecv.queued, List.map_cons, List.sum_cons, h.permit hstage] at hload
  have hload' := load_of_running hexited
  rw [hspool, hpermit] at hload'
  have hcounter := h.depth
  refine ⟨⟨fun hstage => absurd hstage hreceiving, ?_, by omega⟩, by omega⟩
  rw [hspool, hrecv.closed, h.closed]
  exact iff_of_false hrunning hexited

theorem Metered.tryDispatch (h : s.Metered extra) (hstage : s.stage ≠ .exited) (event : Event)
    (rest : List Event) :
    (s.tryDispatch event rest).Metered extra ∧ (s.tryDispatch event rest).load ≤ s.load := by
  unfold EventStream.tryDispatch
  split
  · exact h.keep hstage rfl rfl rfl (by rintro ⟨⟩) (by rintro ⟨⟩)
  · exact h.keep hstage rfl rfl rfl (by rintro ⟨⟩) (by rintro ⟨⟩)
  · exact h.keep hstage rfl rfl rfl (by rintro ⟨⟩) (by rintro ⟨⟩)

/-- Whether the reason can be sent or not, the dispatcher ends. -/
theorem terminate_eq (reason : Option Error) : ∃ events,
    s.terminate reason = { s with events }.exit := by
  unfold EventStream.terminate
  split
  · exact ⟨s.events, rfl⟩
  · split
    · next events hput => exact ⟨events, rfl⟩
    · exact ⟨s.events, rfl⟩

theorem Metered.startItem {spool : Channel EventSpoolItem spoolCapacity} {item : EventSpoolItem}
    (h : s.Metered extra) (hstage : s.stage = .receiving) (hrecv : s.spool.Received spool item) :
    ({ s with spool }.startItem item).Metered extra ∧
      ({ s with spool }.startItem item).load ≤ s.load := by
  cases item with
  | direct event => exact h.take hstage hrecv rfl rfl rfl (by rintro ⟨⟩) (by rintro ⟨⟩)
  | batch events => exact h.take hstage hrecv rfl rfl rfl (by rintro ⟨⟩) (by rintro ⟨⟩)
  | deferred ticket =>
    have htaken (outcomes : List DispatchOutcome) (dropped : ℕ) : Metered { s with
        spool, depthPermit := 1, stage := .awaiting ticket, outcomes, eventsDropped := dropped }
          extra ∧ load { s with
        spool, depthPermit := 1, stage := .awaiting ticket, outcomes, eventsDropped := dropped } ≤
          s.load :=
      h.take hstage hrecv rfl rfl rfl (by rintro ⟨⟩) (by rintro ⟨⟩)
    unfold EventStream.startItem
    dsimp only
    split_ifs
    · obtain ⟨hmetered, hle⟩ := htaken (s.outcomes ++ [.skipped ticket])
        (s.eventsDropped + if s.alive then 1 else 0)
      obtain ⟨hfinished, hle'⟩ := hmetered.finishItem (by rintro ⟨⟩)
      exact ⟨hfinished, hle'.trans hle⟩
    · exact htaken s.outcomes s.eventsDropped
  | terminal reason =>
    obtain ⟨events, hends⟩ := terminate_eq (s := { s with spool, depthPermit := 1 }) reason
    have htaken :
        Metered { s with spool, depthPermit := 1, stage := .dispatching [], events } extra ∧
        load { s with spool, depthPermit := 1, stage := .dispatching [], events } ≤ s.load :=
      h.take hstage hrecv rfl rfl rfl (by rintro ⟨⟩) (by rintro ⟨⟩)
    obtain ⟨hended, hle⟩ := htaken.1.exit (by rintro ⟨⟩)
    unfold EventStream.startItem
    dsimp only [EventSpoolItem.depth]
    rw [hends]
    exact ⟨hended, hle.trans htaken.2⟩

theorem Metered.dispatcherNext (h : s.Metered extra) {event : DispatcherEvent}
    (hnext : s.dispatcherNext event = some s') : s'.Metered extra ∧ s'.load ≤ s.load := by
  have hrunning {stage : DispatcherStage} (hstage : s.stage = stage) (hne : stage ≠ .exited) :
      s.stage ≠ .exited := hstage ▸ hne
  cases dispatcherNext_move hnext with
  | take _ _ hstage hrecv => exact h.startItem hstage (Channel.recv_some hrecv)
  | leave hstage _ _ => exact h.exit (hrunning hstage (by rintro ⟨⟩))
  | finish hstage => exact h.finishItem (hrunning hstage (by rintro ⟨⟩))
  | dispatch _ _ hstage _ => exact h.tryDispatch (hrunning hstage (by rintro ⟨⟩)) _ _
  | abandoned ticket hstage _ =>
    have hsettled : Metered (s.settle (.abandoned ticket)) extra := ⟨h.permit, h.closed, h.depth⟩
    exact hsettled.finishItem (hrunning hstage (by rintro ⟨⟩))
  | withhold _ hstage _ => exact h.finishItem (hrunning hstage (by rintro ⟨⟩))
  | publish _ hstage _ => exact h.tryDispatch (hrunning hstage (by rintro ⟨⟩)) _ []
  | timeout _ _ hstage =>
    obtain ⟨hreceiving, hexited⟩ := failDispatch_stage (s := s) _ _ .backpressure
    exact h.keep (hrunning hstage (by rintro ⟨⟩)) rfl rfl rfl hreceiving hexited
  -- The other steps leave the item where it is.
  | discard _ _ hstage _ | published _ _ hstage _ | reserved _ _ _ hstage _ | refused _ _ hstage _
  | reported _ hstage =>
    exact h.keep (hrunning hstage (by rintro ⟨⟩)) rfl rfl rfl (by rintro ⟨⟩) (by rintro ⟨⟩)

theorem Metered.raise (h : s.Metered extra) (count : ℕ) :
    Metered { s with eventDepth := s.eventDepth + count } (extra + count) :=
  ⟨h.permit, h.closed, (congrArg (· + count) h.depth).trans (Nat.add_assoc _ _ _)⟩

/-- An item whose depth was added before is put into the spool. -/
theorem Metered.put {spool : Channel EventSpoolItem spoolCapacity} {item : EventSpoolItem}
    (h : s.Metered (extra + item.depth)) (hput : s.spool.Sent spool 0 item) :
    Metered { s with spool } extra ∧ load { s with spool } = s.load + item.depth := by
  have hrunning : s.stage ≠ .exited := by
    intro hexited
    cases hput.opened.symm.trans (h.closed.mpr hexited)
  have hload := load_of_running hrunning
  have hload' : load { s with spool } = _ := load_of_running hrunning
  dsimp only at hload'
  rw [hput.queued, List.map_append, List.sum_append, List.map_singleton,
    List.sum_singleton] at hload'
  have hdepth := h.depth
  refine ⟨⟨h.permit, iff_of_false ?_ hrunning, ?_⟩, by omega⟩
  · dsimp only
    rw [hput.closed]
    exact Bool.false_ne_true
  · dsimp only
    omega

/-- What a step of the dispatcher keeps. It ends on the last item or without a connection. -/
structure Dispatched (s s' : EventStream spoolCapacity capacity) : Prop where
  sent : s'.spool.sent = s.spool.sent
  alive : s'.alive = s.alive
  exited : s'.stage = .exited → s'.spool.closed = true ∧ (s.alive = false ∧ s'.spool.queued = [] ∨
    ∃ reason, s.spool.queued = .terminal reason :: s'.spool.queued)

theorem dispatched_startItem {spool : Channel EventSpoolItem spoolCapacity} {item : EventSpoolItem}
    (hrecv : s.spool.Received spool item) : s.Dispatched ({ s with spool }.startItem item) := by
  cases item with
  | direct event => exact ⟨hrecv.sent, rfl, by rintro ⟨⟩⟩
  | batch events => exact ⟨hrecv.sent, rfl, by rintro ⟨⟩⟩
  | deferred ticket =>
    unfold EventStream.startItem
    dsimp only
    split_ifs
    · exact ⟨hrecv.sent, rfl, by rintro ⟨⟩⟩
    · exact ⟨hrecv.sent, rfl, by rintro ⟨⟩⟩
  | terminal reason =>
    obtain ⟨events, hends⟩ := terminate_eq (s := { s with spool, depthPermit := 1 }) reason
    unfold EventStream.startItem
    dsimp only [EventSpoolItem.depth]
    rw [hends]
    exact ⟨hrecv.sent, rfl, fun _ => ⟨rfl, Or.inr ⟨reason, hrecv.queued⟩⟩⟩

theorem dispatched_tryDispatch (event : Event) (rest : List Event) :
    s.Dispatched (s.tryDispatch event rest) := by
  unfold EventStream.tryDispatch
  split
  · exact ⟨rfl, rfl, by rintro ⟨⟩⟩
  · exact ⟨rfl, rfl, by rintro ⟨⟩⟩
  · exact ⟨rfl, rfl, by rintro ⟨⟩⟩

theorem dispatched {event : DispatcherEvent} (hnext : s.dispatcherNext event = some s') :
    s.Dispatched s' := by
  cases dispatcherNext_move hnext with
  | take _ _ _ hrecv => exact dispatched_startItem (Channel.recv_some hrecv)
  | leave _ hrecv halive =>
    have hempty := Channel.recv_none hrecv
    exact ⟨rfl, rfl, fun _ => ⟨rfl, Or.inl ⟨halive, hempty⟩⟩⟩
  | dispatch _ _ _ _ => exact dispatched_tryDispatch _ _
  | publish _ _ _ => exact dispatched_tryDispatch _ []
  | timeout _ _ _ => exact ⟨rfl, rfl, fun hexited => absurd hexited (failDispatch_stage _ _ _).2⟩
  | finish _ | discard _ _ _ _ | published _ _ _ _ | abandoned _ _ _ | withhold _ _ _
  | reserved _ _ _ _ _ | refused _ _ _ _ | reported _ _ =>
    exact ⟨rfl, rfl, by rintro ⟨⟩⟩

/-- The depth leaves a slot of the spool free. -/
theorem Metered.fits (h : s.Metered extra) (hstage : s.stage ≠ .exited)
    (hsingle : ∀ item ∈ s.spool.sent, item.depth = 1) :
    s.spool.queued.length ≤ s.load ∧ (s.load + 1 ≤ spoolCapacity →
      ∀ item, ∃ spool, s.spool.trySend 0 item = .ok spool) := by
  have hload := load_of_running hstage
  have hlength : s.spool.queued.length ≤ (s.spool.queued.map EventSpoolItem.depth).sum := by
    have hle := List.length_le_sum_of_one_le (s.spool.queued.map EventSpoolItem.depth) (by
      intro depth hmem
      obtain ⟨item, hitem, rfl⟩ := List.mem_map.mp hmem
      exact (hsingle item (List.mem_of_mem_drop hitem)).ge)
    rwa [List.length_map] at hle
  refine ⟨by omega, fun hroom item => Channel.trySend_of_free ?_ ?_⟩
  · exact Bool.eq_false_of_not_eq_true fun hclosed => hstage (h.closed.mp hclosed)
  · have hqueued := s.spool.queued_length
    omega

end EventStream

end CmppProtocol
