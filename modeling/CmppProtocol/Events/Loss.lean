import CmppProtocol.Events.Capacity
import CmppProtocol.Events.Refinement
import CmppProtocol.Events.Unread

/-! # Events that get lost

A cleanup sends its batches past the admission, so that another cleanup can put
the last item in front of them. The dispatcher ends there, and the batches behind
it are neither sent nor counted. Where the last item waits for the batches, each
event of the spool is sent or counted.
-/

namespace CmppProtocol

namespace EventStream

variable {spoolCapacity capacity : ℕ} {s s' : EventStream spoolCapacity capacity}
  {outcome : DispatchOutcome}

/-- The step settles an event without sending it. -/
def drops (s : EventStream spoolCapacity capacity) : DispatcherEvent → Bool
  | .timeout => true
  | .advance =>
    match s.stage with
    | .receiving => s.discardEvents && s.spool.queued.head?.any EventSpoolItem.isDeferred
    | .dispatching (_ :: _) => s.discardEvents || s.events.closed
    | .awaiting ticket => s.tickets ticket = .abandoned
    | .publishing _ | .reserving _ _ => s.events.closed
    | _ => false

/-- Every outcome but the sent ones is counted. -/
def Tallied (s : EventStream spoolCapacity capacity) : Prop :=
  s.eventsDropped = s.droppedElsewhere + s.outcomes.countP fun outcome => !outcome.isSent

theorem Tallied.settle (h : s.Tallied) (hcount : outcome.isSent = true ∨ s.alive = true) :
    (s.settle outcome).Tallied := by
  have hsum : (s.outcomes ++ [outcome]).countP (fun o => !o.isSent) =
      s.outcomes.countP (fun o => !o.isSent) + if outcome.isSent then 0 else 1 := by
    rw [List.countP_append, List.countP_singleton]
    cases outcome.isSent <;> rfl
  have hdropped : (s.settle outcome).eventsDropped =
      s.eventsDropped + if outcome.isSent then 0 else 1 := by
    rcases hcount with hsent | halive
    · cases outcome with
      | sent event => rfl
      | _ => cases hsent
    · exact settle_dropped halive outcome
  unfold Tallied at h ⊢
  change (s.settle outcome).eventsDropped = s.droppedElsewhere +
    (s.outcomes ++ [outcome]).countP fun o => !o.isSent
  omega

theorem Tallied.failDispatch (h : s.Tallied) (halive : s.alive = true) (event : Event)
    (rest : List Event) (error : EventDispatchError) :
    (s.failDispatch event rest error).Tallied := by
  have hsettled : (s.settle (.failed event)).Tallied := h.settle (Or.inr halive)
  exact hsettled

theorem Tallied.tryDispatch (h : s.Tallied) (hclosed : s.events.closed = true → s.alive = true)
    (event : Event) (rest : List Event) : (s.tryDispatch event rest).Tallied := by
  unfold EventStream.tryDispatch
  split
  · have hsettled : (s.settle (.sent event)).Tallied := h.settle (Or.inl rfl)
    exact hsettled
  · next hput => exact h.failDispatch (hclosed (Channel.trySend_closed hput)) event rest .closed
  · exact h

theorem Tallied.startItem {spool : Channel EventSpoolItem spoolCapacity} {item : EventSpoolItem}
    (h : s.Tallied) (hskip : s.discardEvents = true → item.isDeferred = true → s.alive = true) :
    ({ s with spool }.startItem item).Tallied := by
  cases item with
  | direct event => exact h
  | batch events => exact h
  | deferred ticket =>
    unfold EventStream.startItem
    dsimp only
    split_ifs with hdiscard
    · have hsettled : (s.settle (.skipped ticket)).Tallied := h.settle (Or.inr (hskip hdiscard rfl))
      exact hsettled
    · exact h
  | terminal reason =>
    obtain ⟨events, hends⟩ := terminate_eq (s := { s with spool, depthPermit := 1 }) reason
    unfold EventStream.startItem
    dsimp only [EventSpoolItem.depth]
    rw [hends]
    exact h

theorem Tallied.dispatcherNext (h : s.Tallied) {event : DispatcherEvent}
    (hdrops : s.drops event = true → s.alive = true) (hnext : s.dispatcherNext event = some s') :
    s'.Tallied := by
  cases dispatcherNext_move hnext with
  | take _ _ hstage hrecv =>
    refine h.startItem fun hdiscard hdeferred => hdrops ?_
    simp only [drops, hstage, hdiscard, Bool.true_and, (Channel.recv_some hrecv).queued]
    exact hdeferred
  | discard event rest hstage hdiscard =>
    have hsettled : (s.settle (.discarded event)).Tallied :=
      h.settle (Or.inr (hdrops (by simp only [drops, hstage, hdiscard, Bool.true_or])))
    exact hsettled
  | dispatch event rest hstage _ =>
    refine h.tryDispatch (fun hclosed => hdrops ?_) event rest
    simp only [drops, hstage, hclosed, Bool.or_true]
  | abandoned ticket hstage hticket =>
    have hsettled : (s.settle (.abandoned ticket)).Tallied :=
      h.settle (Or.inr (hdrops (by simp only [drops, hstage, hticket, decide_true])))
    exact hsettled
  | publish event hstage _ =>
    refine h.tryDispatch (fun hclosed => hdrops ?_) event []
    simp only [drops, hstage, hclosed]
  | reserved event rest events _ _ =>
    have hsettled : (s.settle (.sent event)).Tallied := h.settle (Or.inl rfl)
    exact hsettled
  | refused event rest hstage hput =>
    refine h.failDispatch (hdrops ?_) event rest .closed
    simp only [drops, hstage, Channel.trySend_closed hput]
  | timeout _ _ _ => exact h.failDispatch (hdrops rfl) _ _ _
  -- The other steps settle nothing.
  | leave _ _ _ | finish _ | published _ _ _ _ | withhold _ _ _ | reported _ _ => exact h

end EventStream

/-- The batches that a cleanup has still to send. -/
def TeardownStage.remaining : TeardownStage → List (List ℕ)
  | .sending batches => batches
  | .holding batch batches => batch :: batches
  | _ => []

/-- The cleanup has drained the window and is not over. -/
def TeardownStage.hasDrained : TeardownStage → Bool
  | .sending _ | .holding _ _ => true
  | _ => false

namespace EventSpool

variable {eventSpoolCapacity capacity : ℕ} {s s' : EventSpool eventSpoolCapacity capacity}

/-- Nothing is put behind the last item, and when the dispatcher has ended each event of the spool
was sent, or it was settled in another way and is counted. -/
structure NothingLost (s : EventSpool eventSpoolCapacity capacity) : Prop where
  last : ∀ reason, .terminal reason ∉ s.stream.spool.sent.dropLast
  settled : s.stream.stage = .exited →
    List.Forall₂ (SpoolUnit.Settles s.stream.tickets)
      (s.stream.spool.sent.flatMap EventSpoolItem.units) s.stream.outcomes ∧
    s.stream.Tallied

/-- The last item is put when no cleanup has a batch left, and an event is dropped by the dispatcher
when the connection object is there to count it. -/
def isCareful (s : EventSpool eventSpoolCapacity capacity) : SpoolEvent → Bool
  | .sendTerminal => eventSpoolCapacity + 2 ≤ s.stream.spool.queued.length ||
      s.cleanups.all fun stage => stage.remaining.isEmpty
  | .dispatcher event => !s.stream.drops event || s.stream.alive
  | _ => true

theorem remaining_of_isCareful (h : s.isCareful .sendTerminal = true)
    (hfree : s.stream.spool.queued.length < eventSpoolCapacity + 2) :
    ∀ stage ∈ s.cleanups, stage.remaining = [] := by
  intro stage hmem
  rcases Bool.or_eq_true_iff.mp h with hfull | hall
  · exact absurd (of_decide_eq_true hfull) (Nat.not_le_of_lt hfree)
  · exact List.isEmpty_iff.mp (List.all_eq_true.mp hall stage hmem)

theorem alive_of_isCareful {event : DispatcherEvent} (h : s.isCareful (.dispatcher event) = true)
    (hdrops : s.stream.drops event = true) : s.stream.alive = true := by
  rcases Bool.or_eq_true_iff.mp h with hkeeps | halive
  · rw [hdrops] at hkeeps
    cases hkeeps
  · exact halive

structure Ordered (s : EventSpool eventSpoolCapacity capacity) : Prop where
  closing : s.closed = false → s.cleanups = []
  drained : (∃ stage ∈ s.cleanups, stage.hasDrained = true) ∨ s.terminal ≠ .idle →
    s.closed = true ∧ s.pending = []
  ending : s.terminal = .idle ↔ s.admission ≠ .terminal
  held : ∀ holder, s.holder = some holder → s.terminal = .idle ∧ holder.item.isAdmitted = true
  last : ∀ reason, .terminal reason ∉ s.stream.spool.sent.dropLast
  ended : ∀ reason, .terminal reason ∈ s.stream.spool.sent →
    s.terminal = .ended ∧ ∀ stage ∈ s.cleanups, stage.remaining = []
  exited : s.stream.stage = .exited → s.stream.spool.closed = true ∧ s.stream.spool.queued = []
  tallied : s.stream.Tallied

/-- The stream has gone on without the producers. -/
theorem Ordered.setStream (h : s.Ordered) {stream : EventStream (eventSpoolCapacity + 2) capacity}
    (hstream : s.stream.Dispatched stream) (htallied : stream.Tallied) :
    Ordered { s with stream } := by
  refine ⟨h.closing, h.drained, h.ending, h.held, ?_, ?_, fun hexited => ?_, htallied⟩
  · intro reason hmem
    change .terminal reason ∈ stream.spool.sent.dropLast at hmem
    rw [hstream.sent] at hmem
    exact h.last reason hmem
  · intro reason hmem
    change .terminal reason ∈ stream.spool.sent at hmem
    rw [hstream.sent] at hmem
    exact h.ended reason hmem
  · obtain ⟨hclosed, ⟨_, hempty⟩ | ⟨reason, hqueued⟩⟩ := hstream.exited hexited
    · exact ⟨hclosed, hempty⟩
    · refine ⟨hclosed, by_contra fun hne => h.last reason ?_⟩
      have hsent : s.stream.spool.sent = s.stream.spool.sent.take s.stream.spool.taken ++
          .terminal reason :: stream.spool.queued := by
        rw [← hqueued]
        exact (List.take_append_drop _ _).symm
      rw [hsent, List.dropLast_append_of_ne_nil (List.cons_ne_nil _ _),
        List.dropLast_cons_of_ne_nil hne]
      exact List.mem_append_right _ List.mem_cons_self

/-- An item that is not the last is put while the last is not there. -/
theorem Ordered.put (h : s.Ordered) {spool : Channel EventSpoolItem (eventSpoolCapacity + 2)}
    {item : EventSpoolItem} (hput : s.stream.spool.Sent spool 0 item)
    (hnone : ∀ reason, .terminal reason ∉ s.stream.spool.sent)
    (hitem : ∀ reason, item ≠ .terminal reason) :
    Ordered { s with stream := { s.stream with spool } } := by
  refine ⟨h.closing, h.drained, h.ending, h.held, ?_, ?_, fun hexited => ?_, h.tallied⟩
  · intro reason hmem
    change .terminal reason ∈ spool.sent.dropLast at hmem
    rw [hput.sent, List.dropLast_concat] at hmem
    exact hnone reason hmem
  · intro reason hmem
    change .terminal reason ∈ spool.sent at hmem
    rw [hput.sent] at hmem
    rcases List.mem_append.mp hmem with hmem | hmem
    · exact absurd hmem (hnone reason)
    · exact absurd (List.mem_singleton.mp hmem).symm (hitem reason)
  · cases hput.opened.symm.trans (h.exited hexited).1

theorem Ordered.enter (h : s.Ordered) (hadmission : s.admission ≠ .terminal) {item : EventSpoolItem}
    (hitem : item.isAdmitted = true) : (s.enter item).Ordered := by
  have hidle := h.ending.mpr hadmission
  unfold EventSpool.enter
  split_ifs
  · refine ⟨h.closing, h.drained, h.ending, ?_, h.last, h.ended, h.exited, h.tallied⟩
    rintro holder ⟨⟩
    exact ⟨hidle, hitem⟩
  · refine ⟨h.closing, h.drained, iff_of_true hidle (by rintro ⟨⟩), ?_, h.last, h.ended, h.exited,
      h.tallied⟩
    rintro holder ⟨⟩
    exact ⟨hidle, hitem⟩

theorem Ordered.countDropped (h : s.Ordered) (count : ℕ) : (s.countDropped count).Ordered := by
  refine ⟨h.closing, h.drained, h.ending, h.held, h.last, h.ended, h.exited, ?_⟩
  have htallied := h.tallied
  unfold EventStream.Tallied at htallied ⊢
  change s.stream.eventsDropped + count = s.stream.droppedElsewhere + count + _
  rw [htallied]
  exact Nat.add_right_comm _ _ _

/-- Under the admission lock and before the end the last item is not there. -/
theorem Ordered.none_of_idle (h : s.Ordered) (hended : s.terminal ≠ .ended)
    (reason : Option Error) :
    .terminal reason ∉ s.stream.spool.sent :=
  fun hmem => hended (h.ended reason hmem).1

theorem Ordered.sendHolder (h : s.Ordered) {holder : AdmissionHolder}
    (hholder : s.holder = some holder) : (s.sendHolder holder).Ordered := by
  obtain ⟨hidle, hitem⟩ := h.held holder hholder
  have hended : s.terminal ≠ .ended := by
    rw [hidle]
    rintro ⟨⟩
  unfold EventSpool.sendHolder
  split
  · next hput =>
    obtain ⟨spool, hspool, rfl⟩ := trySend_ok hput
    have h := h.put (Channel.trySend_ok hspool) (h.none_of_idle hended) (by
      rintro reason heq
      rw [heq] at hitem
      cases hitem)
    exact ⟨h.closing, h.drained, h.ending, by rintro _ ⟨⟩, h.last, h.ended, h.exited, h.tallied⟩
  · have h := h.countDropped (if holder.item.isDeferred then 0 else 1)
    refine ⟨h.closing, h.drained, iff_of_true hidle ?_, by rintro _ ⟨⟩, h.last, h.ended, h.exited,
      h.tallied⟩
    dsimp only
    split_ifs
    · rintro ⟨⟩
    · exact h.ending.mp hidle

/-- The state of the admission changes before the end. -/
theorem Ordered.setAdmission (h : s.Ordered) (hadmission : s.admission ≠ .terminal)
    {state : EventAdmissionState} (hstate : state ≠ .terminal) :
    Ordered { s with admission := state } :=
  ⟨h.closing, h.drained, iff_of_true (h.ending.mpr hadmission) hstate, h.held, h.last, h.ended,
    h.exited, h.tallied⟩

theorem Ordered.settleTicket (h : s.Ordered) {ticket : ℕ} {state : EventTicket}
    (hnext : s.settleTicket ticket state = some s') : s'.Ordered := by
  unfold EventSpool.settleTicket at hnext
  split_ifs at hnext
  obtain ⟨stream, hresolve, rfl⟩ := Option.map_eq_some_iff.mp hnext
  rw [(EventStream.keepsTickets_of_resolve hresolve).2]
  exact ⟨h.closing, h.drained, h.ending, h.held, h.last, h.ended, h.exited, h.tallied⟩

/-- A cleanup goes on. It has not more batches left than before. -/
theorem Ordered.setCleanup (h : s.Ordered) {index : ℕ} {stage stage' : TeardownStage}
    (hstage : s.cleanups[index]? = some stage)
    (hdrained : stage'.hasDrained = true → s.closed = true ∧ s.pending = [])
    (hremaining : s.terminal = .ended → stage.remaining = [] → stage'.remaining = []) :
    (s.setCleanup index stage').Ordered := by
  refine ⟨fun hclosed => ?_, ?_, h.ending, h.held, h.last, ?_, h.exited, h.tallied⟩
  · change s.cleanups.set index stage' = []
    rw [h.closing hclosed]
    rfl
  · rintro (⟨other, hmem, hother⟩ | hterminal)
    · rcases List.mem_or_eq_of_mem_set hmem with hmem | rfl
      · exact h.drained (Or.inl ⟨other, hmem, hother⟩)
      · exact hdrained hother
    · exact h.drained (Or.inr hterminal)
  · intro reason hmem
    obtain ⟨hended, hall⟩ := h.ended reason hmem
    refine ⟨hended, fun other hother => ?_⟩
    rcases List.mem_or_eq_of_mem_set hother with hother | rfl
    · exact hall other hother
    · exact hremaining hended (hall stage (List.mem_of_getElem? hstage))

theorem Ordered.closeEventSpool (h : s.Ordered) (hholder : s.holder = none)
    (hdrained : s.closed = true ∧ s.pending = []) : s.closeEventSpool.Ordered := by
  unfold EventSpool.closeEventSpool
  split_ifs with hterminal
  · exact h
  · have hidle := h.ending.mpr hterminal
    refine ⟨h.closing, fun _ => hdrained, iff_of_false (by rintro ⟨⟩) fun hne => hne rfl, ?_,
      h.last, ?_, h.exited, h.tallied⟩
    · intro holder hholder'
      cases hholder.symm.trans hholder'
    · intro reason hmem
      cases hidle.symm.trans (h.ended reason hmem).1

theorem Ordered.cleanupNext (h : s.Ordered) {index : ℕ} {event : TeardownEvent}
    (hnext : s.cleanupNext index event = some s') : s'.Ordered := by
  have hdrained {stage : TeardownStage} (hstage : s.cleanups[index]? = some stage)
      (hhas : stage.hasDrained = true) : s.closed = true ∧ s.pending = [] :=
    h.drained (Or.inl ⟨stage, List.mem_of_getElem? hstage, hhas⟩)
  unfold EventSpool.cleanupNext at hnext
  cases event with
  | drain order =>
    dsimp only at hnext
    split at hnext
    · next hstage =>
      split_ifs at hnext with hperm
      cases hnext
      have hclosed : s.closed = true := by
        by_contra hopen
        rw [h.closing (Bool.eq_false_of_not_eq_true hopen)] at hstage
        cases hstage
      have hempty : Ordered { s with pending := [] } :=
        ⟨h.closing, fun hhas => ⟨(h.drained hhas).1, rfl⟩, h.ending, h.held, h.last,
          h.ended, h.exited, h.tallied⟩
      refine hempty.setCleanup hstage (fun _ => ⟨hclosed, rfl⟩) fun hended _ => ?_
      have hterminal : s.terminal ≠ .idle := by
        rintro hidle
        cases hidle.symm.trans hended
      rw [(h.drained (Or.inr hterminal)).2] at hperm
      rw [hperm.eq_nil]
      rfl
    · cases hnext
  | takeBatch =>
    dsimp only at hnext
    split at hnext
    · next batch batches hstage =>
      cases hnext
      have hraised : (s.raiseDepth batch.length).Ordered :=
        ⟨h.closing, h.drained, h.ending, h.held, h.last, h.ended, h.exited, h.tallied⟩
      exact hraised.setCleanup hstage (fun _ => hdrained hstage rfl) fun _ hnil => hnil
    · cases hnext
  | sendBatch =>
    dsimp only at hnext
    split at hnext
    · next batch batches hstage =>
      have hmem := List.mem_of_getElem? hstage
      split at hnext
      · next hput =>
        cases hnext
        obtain ⟨spool, hspool, rfl⟩ := trySend_ok hput
        have hnone (reason : Option Error) : .terminal reason ∉ s.stream.spool.sent := by
          intro hterminal
          cases (h.ended reason hterminal).2 _ hmem
        have hsent := h.put (Channel.trySend_ok hspool) hnone (by rintro _ ⟨⟩)
        exact hsent.setCleanup hstage (fun _ => hdrained hstage rfl) (by rintro _ ⟨⟩)
      · cases hnext
        exact h
      · cases hnext
        have hcounted := h.countDropped (batch.length + batches.flatten.length)
        have hlowered : ((s.lowerDepth batch.length).countDropped
            (batch.length + batches.flatten.length)).Ordered :=
          ⟨h.closing, h.drained, h.ending, h.held, h.last, h.ended, h.exited, hcounted.tallied⟩
        exact hlowered.setCleanup hstage (fun _ => hdrained hstage rfl) fun _ _ => rfl
    · cases hnext
  | giveUp =>
    dsimp only at hnext
    split at hnext
    · next batch batches hstage =>
      cases hnext
      have hcounted := h.countDropped batch.length
      have hlowered : ((s.lowerDepth batch.length).countDropped batch.length).Ordered :=
        ⟨h.closing, h.drained, h.ending, h.held, h.last, h.ended, h.exited, hcounted.tallied⟩
      exact hlowered.setCleanup hstage (fun _ => hdrained hstage rfl) (by rintro _ ⟨⟩)
    · cases hnext
  | closeSpool =>
    dsimp only at hnext
    split at hnext
    · next hstage =>
      split_ifs at hnext with hholder
      cases hnext
      have hcleanups : s.closeEventSpool.cleanups[index]? = some (.sending []) := by
        unfold EventSpool.closeEventSpool
        split_ifs
        · exact hstage
        · exact hstage
      exact (h.closeEventSpool hholder (hdrained hstage rfl)).setCleanup hcleanups (by rintro ⟨⟩)
        fun _ _ => rfl
    · cases hnext
  | abort =>
    dsimp only at hnext
    split at hnext
    · next batch batches hstage =>
      cases hnext
      have hlowered : (s.lowerDepth batch.length).Ordered :=
        ⟨h.closing, h.drained, h.ending, h.held, h.last, h.ended, h.exited, h.tallied⟩
      exact hlowered.setCleanup hstage (by rintro ⟨⟩) fun _ _ => rfl
    · next stage _ hstage =>
      cases hnext
      exact h.setCleanup hstage (by rintro ⟨⟩) fun _ _ => rfl
    · cases hnext

theorem Ordered.sendTerminal (h : s.Ordered) {reason : Option Error}
    (hsending : s.terminal = .sending reason) (hcareful : s.isCareful .sendTerminal = true) :
    (s.sendTerminal reason).Ordered := by
  have hidle : s.terminal ≠ .idle := by
    rw [hsending]
    rintro ⟨⟩
  have hended : s.terminal ≠ .ended := by
    rw [hsending]
    rintro ⟨⟩
  have hheld (holder : AdmissionHolder) : s.holder ≠ some holder :=
    fun hholder => hidle (h.held holder hholder).1
  have hadmission : ¬ s.admission ≠ .terminal := fun hne => hidle (h.ending.mpr hne)
  unfold EventSpool.sendTerminal
  split
  · next hput =>
    obtain ⟨spool, hspool, rfl⟩ := trySend_ok hput
    have hsent := Channel.trySend_ok hspool
    have hfree : s.stream.spool.queued.length < eventSpoolCapacity + 2 := by
      have hroom := hsent.free
      have hqueued := s.stream.spool.queued_length
      rw [hsent.sent, hsent.taken, List.length_append, List.length_singleton] at hroom
      omega
    have hall := remaining_of_isCareful hcareful hfree
    refine ⟨h.closing, fun _ => h.drained (Or.inr hidle),
      iff_of_false (by rintro ⟨⟩) hadmission, ?_, ?_,
      fun _ _ => ⟨rfl, hall⟩, fun hexited => ?_, h.tallied⟩
    · exact fun holder hholder => absurd hholder (hheld holder)
    · intro other hmem
      change .terminal other ∈ spool.sent.dropLast at hmem
      rw [hsent.sent, List.dropLast_concat] at hmem
      exact h.none_of_idle hended other hmem
    · cases hsent.opened.symm.trans (h.exited hexited).1
  · exact h
  · refine ⟨h.closing, fun _ => h.drained (Or.inr hidle),
      iff_of_false (by rintro ⟨⟩) hadmission, ?_,
      h.last, fun other hmem => absurd hmem (h.none_of_idle hended other), h.exited, h.tallied⟩
    exact fun holder hholder => absurd hholder (hheld holder)

theorem Ordered.addCleanup (h : s.Ordered) (hclosed : s.closed = true) :
    Ordered { s with cleanups := s.cleanups ++ [.starting] } := by
  refine ⟨fun hopen => ?_, ?_, h.ending, h.held, h.last, fun reason hmem => ?_, h.exited, h.tallied⟩
  · cases hclosed.symm.trans hopen
  · rintro (⟨stage, hmem, hhas⟩ | hterminal)
    · rcases List.mem_append.mp hmem with hmem | hmem
      · exact h.drained (Or.inl ⟨stage, hmem, hhas⟩)
      · rw [List.mem_singleton.mp hmem] at hhas
        cases hhas
    · exact h.drained (Or.inr hterminal)
  · obtain ⟨hended, hall⟩ := h.ended reason hmem
    refine ⟨hended, fun stage hstage => ?_⟩
    rcases List.mem_append.mp hstage with hstage | hstage
    · exact hall stage hstage
    · rw [List.mem_singleton.mp hstage]
      rfl

/-- A SUBMIT leaves the store, which stays empty once it was drained. -/
theorem Ordered.settleSubmit (h : s.Ordered) (sequenceId : ℕ) :
    Ordered { s with pending := s.pending.erase sequenceId } := by
  refine ⟨h.closing, fun hhas => ?_, h.ending, h.held, h.last, h.ended, h.exited, h.tallied⟩
  obtain ⟨hclosed, hempty⟩ := h.drained hhas
  refine ⟨hclosed, ?_⟩
  change s.pending.erase sequenceId = []
  rw [hempty]
  rfl

theorem Ordered.finish (h : s.Ordered) :
    Ordered { s with closed := true, cleanups := s.cleanups ++ [.starting] } := by
  have hclosed : Ordered { s with closed := true } :=
    ⟨by rintro ⟨⟩, fun hhas => ⟨rfl, (h.drained hhas).2⟩, h.ending, h.held, h.last,
      h.ended, h.exited, h.tallied⟩
  exact hclosed.addCleanup rfl

/-- The last item has its reason and is still to be put. -/
theorem Ordered.takeReason (h : s.Ordered) (hlocked : s.terminal = .locked)
    (reason : Option Error) : Ordered { s.raiseDepth 1 with terminal := .sending reason } := by
  have hidle : s.terminal ≠ .idle := by
    rw [hlocked]
    rintro ⟨⟩
  have hended : s.terminal ≠ .ended := by
    rw [hlocked]
    rintro ⟨⟩
  refine ⟨h.closing, fun _ => h.drained (Or.inr hidle), iff_of_false (by rintro ⟨⟩) ?_, ?_,
    h.last, ?_, h.exited, h.tallied⟩
  · exact fun hne => hidle (h.ending.mpr hne)
  · exact fun holder hholder => absurd (h.held holder hholder).1 hidle
  · exact fun other hmem => absurd hmem (h.none_of_idle hended other)

theorem Ordered.ownedNext (h : s.Ordered) {event : SpoolEvent} (hcareful : s.isCareful event = true)
    (hnext : s.ownedNext event = some s') : s'.Ordered := by
  cases ownedNext_move hnext with
  | emitEvent _ _ hadmits => exact h.enter (Admits.not_terminal hadmits) rfl
  | emitDropped _ _ => exact h.countDropped 1
  | reserveDeferredEvent _ hadmits => exact h.enter (Admits.not_terminal hadmits) rfl
  | raise holder hholder _ =>
    refine ⟨h.closing, h.drained, h.ending, ?_, h.last, h.ended, h.exited, h.tallied⟩
    rintro _ ⟨⟩
    exact h.held holder hholder
  | send holder hholder _ => exact h.sendHolder hholder
  | publish _ _ _ hsettle => exact h.settleTicket hsettle
  | dropTicket _ _ hsettle => exact h.settleTicket hsettle
  | beginEventDrain _ hopened =>
    exact h.setAdmission (Admits.not_terminal (Or.inl hopened)) (by rintro ⟨⟩)
  | sealed _ _ _ hterminal => exact h.setAdmission hterminal (by rintro ⟨⟩)
  | still _ _ _ => exact h
  | admitSubmit sequenceId hopen =>
    refine ⟨h.closing, fun hhas => ?_, h.ending, h.held, h.last, h.ended, h.exited, h.tallied⟩
    cases hopen.symm.trans (h.drained hhas).1
  | settleSubmit sequenceId => exact h.settleSubmit sequenceId
  | finish _ => exact h.finish
  | fallback hclosed => exact h.addCleanup hclosed
  | cleanup _ _ _ hnext => exact h.cleanupNext hnext
  | takeReason reason hlocked => exact h.takeReason hlocked reason
  | sendTerminal reason hsending => exact h.sendTerminal hsending hcareful

theorem Ordered.backpressureClose (h : s.Ordered) : s.backpressureClose.Ordered := by
  refine ⟨h.closing, h.drained, ?_, h.held, h.last, h.ended, h.exited, h.tallied⟩
  unfold EventSpool.backpressureClose
  dsimp only
  split_ifs with hadmits
  · exact iff_of_true (h.ending.mpr (Admits.not_terminal hadmits)) (by rintro ⟨⟩)
  · exact h.ending

theorem Ordered.next (h : s.Ordered) {event : SpoolEvent} (hcareful : s.isCareful event = true)
    (hnext : s.next event = some s') : s'.Ordered := by
  cases next_move hnext with
  | dropConnection _ =>
    exact ⟨h.closing, h.drained, h.ending, h.held, h.last, h.ended, h.exited, h.tallied⟩
  | read _ hread =>
    obtain ⟨event, events, _, rfl⟩ := EventStream.next_read hread
    exact ⟨h.closing, h.drained, h.ending, h.held, h.last, h.ended, h.exited, h.tallied⟩
  | dropReceiver =>
    exact ⟨h.closing, h.drained, h.ending, h.held, h.last, h.ended, h.exited, h.tallied⟩
  | backpressure _ _ _ hstream =>
    exact h.backpressureClose.setStream (EventStream.dispatched hstream)
      (h.tallied.dispatcherNext (alive_of_isCareful hcareful) hstream)
  | dispatcher _ _ hstream =>
    exact h.setStream (EventStream.dispatched hstream)
      (h.tallied.dispatcherNext (alive_of_isCareful hcareful) hstream)
  | owned _ _ _ hnext => exact h.ownedNext hcareful hnext

theorem ordered_run {history : List SpoolEvent}
    (hrun : ((machine eventSpoolCapacity capacity).restrict
      fun s event => s.isCareful event = true).Run history s) : s.Ordered := by
  refine hrun.invariant (I := fun _ s => s.Ordered) ?_ ?_
  · rintro s rfl
    refine ⟨fun _ => rfl, ?_, iff_of_true rfl (by rintro ⟨⟩), by rintro _ ⟨⟩, by rintro _ ⟨⟩,
      by rintro _ ⟨⟩, by rintro ⟨⟩, rfl⟩
    rintro (⟨stage, ⟨⟩, _⟩ | hterminal)
    exact absurd rfl hterminal
  · rintro history s event s' h ⟨hnext, hcareful⟩
    exact h.next hcareful hnext

/-- In every run in which the last item is put when no cleanup has batches left, and in which the
dispatcher drops no event without a connection object to count it, nothing is lost. -/
theorem nothing_lost {history : List SpoolEvent} (hcapacity : 2 ≤ capacity)
    (hrun : ((machine eventSpoolCapacity capacity).restrict
      fun s event => s.isCareful event = true).Run history s) :
    s.NothingLost := by
  have h := ordered_run hrun
  obtain ⟨below, hbelow⟩ := stream_run hrun.of_restrict
  obtain ⟨work, hsettled, hwork⟩ := (EventStream.inv_run hcapacity hbelow).settled
  refine ⟨h.last, fun hexited => ⟨?_, h.tallied⟩⟩
  rw [hexited] at hwork
  obtain ⟨done, htaken, hdone⟩ := hsettled.units
  have hwork : work = [] := hwork
  rw [hwork, List.append_nil] at htaken
  have hall : s.stream.takenUnits = s.stream.spool.sent.flatMap EventSpoolItem.units := by
    rw [EventStream.takenUnits, List.take_of_length_le]
    exact List.drop_eq_nil_iff.mp (h.exited hexited).2
  rw [← hall, htaken]
  exact hdone

/-- One batch is sent before the last item. -/
theorem nothing_lost_drained : ∃ history s,
    ((machine 3 INCOMING_CHANNEL_CAPACITY).restrict fun s event => s.isCareful event = true).Run
      history s ∧
    s.stream.stage = .exited ∧ s.stream.sentEvents = [.submitDropped 7] ∧ s.NothingLost := by
  have hexec : (Machine.exec (fun s e => if s.isCareful e then next s e else none)
      (initial 3 INCOMING_CHANNEL_CAPACITY) (
        [.admitSubmit 7, .finish, .cleanup 0 (.drain [7]), .cleanup 0 .takeBatch,
          .cleanup 0 .sendBatch, .cleanup 0 .closeSpool, .takeReason none, .sendTerminal] ++
        List.replicate 4 (.dispatcher .advance))).map
          (fun s => (s.stream.stage, s.stream.sentEvents)) =
            some (.exited, [.submitDropped 7]) := by
    decide +kernel
  obtain ⟨s, hrun, hview⟩ := Machine.exists_run_restrict_of_exec _ hexec
  obtain ⟨hstage, hsent⟩ := Prod.mk.inj hview
  exact ⟨_, s, hrun, hstage, hsent, nothing_lost (by decide) hrun⟩

/-- The consumer has stopped reading, and two slots of the public channel are left. -/
def unreadEvents : List Event := (List.range 998).map fun sequenceId => .submitTimeout sequenceId 3

/-- One slot is kept free, an event waits in the dispatcher's hand and three in the spool. -/
def backlog : List SpoolEvent :=
  let emitted (sequenceId : ℕ) : List SpoolEvent :=
    [.emitEvent (.submitTimeout sequenceId 3), .raise, .send]
  delivered (.submitTimeout 1000 3) ++ emitted 1001 ++ List.replicate 2 (.dispatcher .advance) ++
    [1002, 1003, 1004].flatMap emitted

/-- Two of the three batches fill the spool up, the third one waits. -/
def waitingBatch : List SpoolEvent :=
  (List.range' 2000 257).map .admitSubmit ++
    [.finish, .cleanup 0 (.drain (List.range' 2000 257))] ++
    (List.replicate 3 [.cleanup 0 .takeBatch, .cleanup 0 .sendBatch]).flatten

/-- The fallback waits too, with the last item. It comes first when the dispatcher has given up. -/
def fallbackFirst : List SpoolEvent :=
  [.fallback, .cleanup 1 (.drain []), .cleanup 1 .closeSpool, .takeReason none, .sendTerminal,
    .dispatcher .timeout] ++ List.replicate 3 (.dispatcher .advance) ++ [.sendTerminal] ++
    List.replicate 3 (.dispatcher .advance) ++ [.cleanup 0 .sendBatch]

/-- Behind the events that nobody reads, the last batch goes behind the last item, and its event is
neither sent nor counted. -/
theorem batch_lost : ∃ history s,
    (machine 3 INCOMING_CHANNEL_CAPACITY).Run (unreadEvents.flatMap delivered ++ history) s ∧
    s.stream.stage = .exited ∧ s.stream.sentEvents.length = 999 ∧ s.stream.eventsDropped = 260 ∧
    (s.stream.spool.sent.flatMap EventSpoolItem.units).length = 1260 ∧ ¬ s.NothingLost := by
  -- in a channel with two slots the run is short enough to be executed
  have hexec : (Machine.exec next (initial 3 2) (backlog ++ waitingBatch ++ fallbackFirst ++
      List.replicate 266 (.dispatcher .advance))).map
        (fun s => (s.stream.stage, s.stream.sentEvents.length, s.stream.eventsDropped,
          (s.stream.spool.sent.flatMap EventSpoolItem.units).length, s.stream.outcomes.length)) =
      some (.exited, 1, 260, 262, 261) := by decide +kernel
  obtain ⟨below, hbelow, hview⟩ := Option.map_eq_some_iff.mp hexec
  simp only [Prod.mk.injEq] at hview
  obtain ⟨hexited, hsent, hdropped, hunits, houtcomes⟩ := hview
  have hlength : unreadEvents.length = 998 := by
    rw [unreadEvents, List.length_map, List.length_range]
  have htotal : 2 + unreadEvents.length = INCOMING_CHANNEL_CAPACITY := by
    rw [hlength]
    rfl
  obtain ⟨s, hexec', hstage, hdropped', houtcomes', hsent', hunits'⟩ :=
    exists_exec_unread le_rfl htotal (by decide +kernel) hbelow
  have hsent'' := congrArg List.length hsent'
  have hunits'' := congrArg List.length hunits'
  have houtcomes'' := congrArg List.length houtcomes'
  simp only [List.length_append, List.length_map, hlength] at hsent'' hunits'' houtcomes''
  rw [hsent] at hsent''
  rw [hunits] at hunits''
  rw [houtcomes] at houtcomes''
  refine ⟨_, s, Machine.run_of_exec hexec', hstage.trans hexited, hsent'', hdropped'.trans hdropped,
    hunits'', fun hlossless => ?_⟩
  have hforall := (hlossless.settled (hstage.trans hexited)).1.length_eq
  rw [hunits'', houtcomes''] at hforall
  cases hforall

end EventSpool

end CmppProtocol
