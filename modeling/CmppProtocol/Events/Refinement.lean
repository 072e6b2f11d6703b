import CmppProtocol.Events.Spool

/-! # The stream below the spool

What the tasks of a connection do with the spool are steps of the event stream,
so that what holds of every run of the stream holds of it.
-/

namespace CmppProtocol

namespace EventSpool

variable {eventSpoolCapacity capacity : ℕ} {s s' : EventSpool eventSpoolCapacity capacity}

/-- What the tasks do with the stream are steps of the stream. -/
def Follows (s s' : EventSpool eventSpoolCapacity capacity) : Prop :=
  (EventStream.machine (eventSpoolCapacity + 2) capacity).Reaches s.stream s'.stream

theorem Follows.trans {s'' : EventSpool eventSpoolCapacity capacity} (h : s.Follows s')
    (h' : s'.Follows s'') : s.Follows s'' := Machine.Reaches.trans h h'

theorem follows_raiseDepth (count : ℕ) : s.Follows (s.raiseDepth count) :=
  Machine.Reaches.step (e := .raiseDepth count) rfl

theorem follows_lowerDepth (count : ℕ) : s.Follows (s.lowerDepth count) :=
  Machine.Reaches.step (e := .lowerDepth count) rfl

theorem follows_countDropped (halive : s.stream.alive = true) (count : ℕ) :
    s.Follows (s.countDropped count) := by
  refine Machine.Reaches.step (e := .countDropped count) ?_
  change (if s.stream.alive then _ else none) = _
  rw [if_pos halive]
  rfl

theorem follows_trySend {item : EventSpoolItem} (hput : s.trySend item = .ok s') :
    s.Follows s' := by
  obtain ⟨spool, hspool, rfl⟩ := trySend_ok hput
  refine Machine.Reaches.step (e := .put item) ?_
  have hstep : s.stream.next (.put item) = some { s.stream with spool } := by
    simp only [EventStream.next, hspool]
  exact hstep

theorem follows_enter (item : EventSpoolItem) : s.Follows (s.enter item) := by
  unfold enter
  split_ifs
  · exact .refl _
  · exact .refl _

theorem follows_sendHolder (halive : s.stream.alive = true) (holder : AdmissionHolder) :
    s.Follows (s.sendHolder holder) := by
  unfold sendHolder
  split
  · next hput =>
    have hfollows := follows_trySend hput
    exact hfollows
  · exact (follows_lowerDepth 1).trans (follows_countDropped (s := s.lowerDepth 1) halive _)

theorem follows_settleTicket {ticket : ℕ} (event : Option Event)
    (hnext : s.settleTicket ticket (event.elim .abandoned .published) = some s') :
    s.Follows s' := by
  unfold settleTicket at hnext
  split_ifs at hnext
  obtain ⟨stream, hresolve, rfl⟩ := Option.map_eq_some_iff.mp hnext
  cases event with
  | none => exact Machine.Reaches.step (e := .abandon ticket) hresolve
  | some event => exact Machine.Reaches.step (e := .publish ticket event) hresolve

theorem follows_cleanupNext (halive : s.stream.alive = true) {index : ℕ} {event : TeardownEvent}
    (hnext : s.cleanupNext index event = some s') : s.Follows s' := by
  unfold cleanupNext at hnext
  cases event with
  | drain order =>
    dsimp only at hnext
    split at hnext
    · split_ifs at hnext
      cases hnext
      exact .refl _
    · cases hnext
  | takeBatch =>
    dsimp only at hnext
    split at hnext
    · cases hnext
      exact follows_raiseDepth _
    · cases hnext
  | sendBatch =>
    dsimp only at hnext
    split at hnext
    · split at hnext
      · next hput =>
        cases hnext
        have hfollows := follows_trySend hput
        exact hfollows
      · cases hnext
        exact .refl _
      · next batch batches _ _ _ =>
        cases hnext
        exact (follows_lowerDepth batch.length).trans
          (follows_countDropped (s := s.lowerDepth batch.length) halive _)
    · cases hnext
  | giveUp =>
    dsimp only at hnext
    split at hnext
    · next batch batches _ =>
      cases hnext
      exact (follows_lowerDepth batch.length).trans
        (follows_countDropped (s := s.lowerDepth batch.length) halive _)
    · cases hnext
  | closeSpool =>
    dsimp only at hnext
    split at hnext
    · split_ifs at hnext
      cases hnext
      change s.Follows s.closeEventSpool
      unfold closeEventSpool
      split_ifs
      · exact .refl _
      · exact .refl _
    · cases hnext
  | abort =>
    dsimp only at hnext
    split at hnext
    · cases hnext
      exact follows_lowerDepth _
    · cases hnext
      exact .refl _
    · cases hnext

theorem follows_sendTerminal (reason : Option Error) : s.Follows (s.sendTerminal reason) := by
  unfold sendTerminal
  split
  · next hput =>
    have hfollows := follows_trySend hput
    exact hfollows
  · exact .refl _
  · exact follows_lowerDepth 1

theorem follows_ownedNext (halive : s.stream.alive = true) {event : SpoolEvent}
    (hnext : s.ownedNext event = some s') : s.Follows s' := by
  cases ownedNext_move hnext with
  | emitEvent _ _ _ => exact follows_enter _
  | emitDropped _ _ => exact follows_countDropped halive 1
  | reserveDeferredEvent _ _ => exact follows_enter _
  | raise _ _ _ => exact follows_raiseDepth 1
  | send holder _ _ => exact follows_sendHolder halive holder
  | publish _ event _ hsettle => exact follows_settleTicket (some event) hsettle
  | dropTicket _ _ hsettle => exact follows_settleTicket none hsettle
  | cleanup _ _ _ hnext => exact follows_cleanupNext halive hnext
  | takeReason _ _ => exact follows_raiseDepth 1
  | sendTerminal reason _ => exact follows_sendTerminal reason
  | _ => exact .refl _

theorem follows_next {event : SpoolEvent} (hnext : s.next event = some s') : s.Follows s' := by
  cases next_move hnext with
  | dropConnection _ => exact Machine.Reaches.step (e := .dropConnection) rfl
  | read _ hread => exact Machine.Reaches.step (e := .read) hread
  | dropReceiver => exact Machine.Reaches.step (e := .dropReceiver) rfl
  | backpressure _ _ _ hstream => exact Machine.Reaches.step (e := .dispatcher _) hstream
  | dispatcher _ _ hstream => exact Machine.Reaches.step (e := .dispatcher _) hstream
  | owned _ _ halive hnext => exact follows_ownedNext halive hnext

/-- Below every run of the spool there is a run of the stream. -/
theorem stream_run {history : List SpoolEvent}
    (hrun : (machine eventSpoolCapacity capacity).Run history s) : ∃ below,
    (EventStream.machine (eventSpoolCapacity + 2) capacity).Run below s.stream := by
  refine hrun.invariant (I := fun _ s => ∃ below,
    (EventStream.machine (eventSpoolCapacity + 2) capacity).Run below s.stream) ?_ ?_
  · rintro s rfl
    exact ⟨[], Machine.Run.start rfl⟩
  · rintro history s event s' ⟨below, hbelow⟩ hnext
    obtain ⟨steps, hsteps⟩ := follows_next hnext
    exact ⟨below ++ steps, hbelow.append hsteps⟩

end EventSpool

end CmppProtocol
