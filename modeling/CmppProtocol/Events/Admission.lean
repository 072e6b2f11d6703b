import CmppProtocol.Events.Capacity

/-! # The admission goes forward

Each state of the admission lets less in than the one before. A step of a task
that is not a cleanup leaves the window and the cleanups as they are, and of the
end it does no more than to send the last item.
-/

namespace CmppProtocol

def EventAdmissionState.rank : EventAdmissionState → ℕ
  | .opened => 0
  | .draining => 1
  | .overflowed => 2
  | .sealed => 3
  | .terminal => 4

theorem EventAdmissionState.rank_le_terminal (state : EventAdmissionState) :
    state.rank ≤ EventAdmissionState.terminal.rank := by
  cases state <;> decide

theorem EventAdmissionState.rank_le_sealed {state : EventAdmissionState} (h : state ≠ .terminal) :
    state.rank ≤ EventAdmissionState.sealed.rank := by
  cases state with
  | terminal => exact absurd rfl h
  | _ => decide

namespace EventSpool

variable {eventSpoolCapacity capacity : ℕ} {s s' : EventSpool eventSpoolCapacity capacity}

theorem Admits.rank_le (h : s.Admits) : s.admission.rank ≤ EventAdmissionState.overflowed.rank := by
  rcases h with h | h
  · rw [h]
    decide
  · rw [h]
    decide

/-- An item that was let in with capacity goes out while events are admitted. -/
def HeldOpen (s : EventSpool eventSpoolCapacity capacity) : Prop :=
  ∀ holder, s.holder = some holder → holder.hasCapacity = true → s.Admits

/-- What a step that is not of a cleanup leaves of the window, the cleanups and the end. -/
structure Carries (s s' : EventSpool eventSpoolCapacity capacity) : Prop where
  rank : s.admission.rank ≤ s'.admission.rank
  overflowed : s.eventOverflowed = true → s'.eventOverflowed = true
  ending : s.admission ≠ .terminal → s'.admission ≠ .terminal
  held : s.HeldOpen → s'.HeldOpen
  pending : s'.pending = s.pending
  cleanups : s'.cleanups = s.cleanups
  terminal : s'.terminal = s.terminal ∨
    (∃ reason, s.terminal = .sending reason) ∧ s'.terminal = .ended

theorem Carries.refl (s : EventSpool eventSpoolCapacity capacity) : s.Carries s :=
  ⟨le_rfl, fun h => h, fun h => h, fun h => h, rfl, rfl, Or.inl rfl⟩

theorem carries_enter (h : s.Admits) (item : EventSpoolItem) : s.Carries (s.enter item) := by
  unfold enter
  split_ifs
  · refine ⟨le_rfl, fun h => h, fun h => h, ?_, rfl, rfl, Or.inl rfl⟩
    rintro _ holder ⟨⟩ _
    exact h
  · refine ⟨h.rank_le, fun _ => rfl, by rintro _ ⟨⟩, ?_, rfl, rfl, Or.inl rfl⟩
    rintro _ holder ⟨⟩ ⟨⟩

/-- The state of the admission changes while nobody holds its lock. -/
theorem carries_setAdmission (hholder : s.holder = none) {state : EventAdmissionState}
    (hrank : s.admission.rank ≤ state.rank) (hstate : state ≠ .terminal) :
    s.Carries { s with admission := state } := by
  refine ⟨hrank, fun h => h, fun _ => hstate, fun _ holder hholder' => ?_, rfl, rfl, Or.inl rfl⟩
  cases hholder.symm.trans hholder'

theorem carries_sendHolder (hheld : s.HeldOpen) {holder : AdmissionHolder}
    (hholder : s.holder = some holder) : s.Carries (s.sendHolder holder) := by
  unfold sendHolder
  split
  · next hput =>
    obtain ⟨spool, _, rfl⟩ := trySend_ok hput
    exact ⟨le_rfl, fun h => h, fun h => h, by rintro _ _ ⟨⟩, rfl, rfl, Or.inl rfl⟩
  · refine ⟨?_, fun hset => ?_, fun hne => ?_, by rintro _ _ ⟨⟩, rfl, rfl, Or.inl rfl⟩
    · dsimp only
      split_ifs with hcapacity
      · exact (hheld holder hholder hcapacity).rank_le
      · exact le_rfl
    · exact Bool.or_eq_true_iff.mpr (Or.inl hset)
    · dsimp only
      split_ifs
      · rintro ⟨⟩
      · exact hne

theorem carries_settleTicket {ticket : ℕ} {state : EventTicket}
    (hnext : s.settleTicket ticket state = some s') : s.Carries s' := by
  unfold settleTicket at hnext
  split_ifs at hnext
  obtain ⟨stream, _, rfl⟩ := Option.map_eq_some_iff.mp hnext
  exact ⟨le_rfl, fun h => h, fun h => h, fun h => h, rfl, rfl, Or.inl rfl⟩

theorem carries_sendTerminal {reason : Option Error} (hsending : s.terminal = .sending reason) :
    s.Carries (s.sendTerminal reason) := by
  unfold sendTerminal
  split
  · next hput =>
    obtain ⟨spool, _, rfl⟩ := trySend_ok hput
    exact ⟨le_rfl, fun h => h, fun h => h, fun h => h, rfl, rfl, Or.inr ⟨⟨reason, hsending⟩, rfl⟩⟩
  · exact .refl s
  · exact ⟨le_rfl, fun h => h, fun h => h, fun h => h, rfl, rfl, Or.inr ⟨⟨reason, hsending⟩, rfl⟩⟩

theorem carries_backpressureClose (hholder : s.holder = none) : s.Carries s.backpressureClose := by
  unfold backpressureClose
  refine ⟨?_, fun _ => rfl, fun hne => ?_, fun _ holder hholder' => ?_, rfl, rfl, Or.inl rfl⟩
  · dsimp only
    split_ifs with hadmits
    · exact Admits.rank_le hadmits
    · exact le_rfl
  · dsimp only
    split_ifs
    · rintro ⟨⟩
    · exact hne
  · cases hholder.symm.trans hholder'

theorem carries_ownedNext (hheld : s.HeldOpen) {event : SpoolEvent}
    (hshared : event.isShared = true)
    (hnext : s.ownedNext event = some s') : s.Carries s' := by
  cases ownedNext_move hnext with
  | emitEvent event _ hadmits => exact carries_enter hadmits _
  | emitDropped _ _ => exact ⟨le_rfl, fun h => h, fun h => h, fun h => h, rfl, rfl, Or.inl rfl⟩
  | reserveDeferredEvent _ hadmits => exact carries_enter hadmits _
  | raise holder hholder _ =>
    refine ⟨le_rfl, fun h => h, fun h => h, fun h => ?_, rfl, rfl, Or.inl rfl⟩
    rintro _ ⟨⟩ hcapacity
    exact h holder hholder hcapacity
  | send holder hholder _ => exact carries_sendHolder hheld hholder
  | publish _ _ _ hsettle => exact carries_settleTicket hsettle
  | dropTicket _ _ hsettle => exact carries_settleTicket hsettle
  | beginEventDrain hholder hopened =>
    exact carries_setAdmission hholder (by rw [hopened]; decide) (by rintro ⟨⟩)
  | sealed _ _ hholder hterminal =>
    exact carries_setAdmission hholder (EventAdmissionState.rank_le_sealed hterminal)
      (by rintro ⟨⟩)
  | still _ _ _ => exact .refl s
  | sendTerminal reason hsending => exact carries_sendTerminal hsending
  | _ => cases hshared

theorem carries_next (hheld : s.HeldOpen) {event : SpoolEvent} (hshared : event.isShared = true)
    (hnext : s.next event = some s') : s.Carries s' := by
  cases next_move hnext with
  | dropConnection _ => cases hshared
  | read _ _ => exact ⟨le_rfl, fun h => h, fun h => h, fun h => h, rfl, rfl, Or.inl rfl⟩
  | dropReceiver => exact ⟨le_rfl, fun h => h, fun h => h, fun h => h, rfl, rfl, Or.inl rfl⟩
  | backpressure _ _ hholder _ =>
    have h := carries_backpressureClose hholder
    exact ⟨h.rank, h.overflowed, h.ending, h.held, h.pending, h.cleanups, h.terminal⟩
  | dispatcher _ _ _ => exact ⟨le_rfl, fun h => h, fun h => h, fun h => h, rfl, rfl, Or.inl rfl⟩
  | owned _ _ _ hnext => exact carries_ownedNext hheld hshared hnext

/-- What a step of a cleanup does: it may empty the window, and it may begin with the end. -/
structure Cleans (s s' : EventSpool eventSpoolCapacity capacity) : Prop where
  rank : s.admission.rank ≤ s'.admission.rank
  overflowed : s.eventOverflowed = true → s'.eventOverflowed = true
  held : s.HeldOpen → s'.HeldOpen
  pending : s'.pending = s.pending ∨ s'.pending = []
  cleanups : s'.cleanups.length = s.cleanups.length ∧ s.cleanups ≠ []
  terminal : s'.terminal = s.terminal ∧ s'.admission = s.admission ∨
    s.admission ≠ .terminal ∧ s'.admission = .terminal ∧ s'.terminal = .locked

theorem cleans_cleanupNext {index : ℕ} {event : TeardownEvent}
    (hnext : s.cleanupNext index event = some s') : s.Cleans s' := by
  have hne {stage : TeardownStage} (hstage : s.cleanups[index]? = some stage) :
      s.cleanups ≠ [] := by
    rintro hnil
    rw [hnil] at hstage
    cases hstage
  have hset {stage stage' : TeardownStage} (hstage : s.cleanups[index]? = some stage) :
      (s.cleanups.set index stage').length = s.cleanups.length ∧ s.cleanups ≠ [] :=
    ⟨List.length_set, hne hstage⟩
  unfold cleanupNext at hnext
  cases event with
  | drain order =>
    dsimp only at hnext
    split at hnext
    · next hstage =>
      split_ifs at hnext
      cases hnext
      exact ⟨le_rfl, fun h => h, fun h => h, Or.inr rfl, hset hstage, Or.inl ⟨rfl, rfl⟩⟩
    · cases hnext
  | takeBatch =>
    dsimp only at hnext
    split at hnext
    · next hstage =>
      cases hnext
      exact ⟨le_rfl, fun h => h, fun h => h, Or.inl rfl, hset hstage, Or.inl ⟨rfl, rfl⟩⟩
    · cases hnext
  | sendBatch =>
    dsimp only at hnext
    split at hnext
    · next hstage =>
      split at hnext
      · next hput =>
        cases hnext
        obtain ⟨spool, _, rfl⟩ := trySend_ok hput
        exact ⟨le_rfl, fun h => h, fun h => h, Or.inl rfl, hset hstage, Or.inl ⟨rfl, rfl⟩⟩
      · cases hnext
        exact ⟨le_rfl, fun h => h, fun h => h, Or.inl rfl, ⟨rfl, hne hstage⟩, Or.inl ⟨rfl, rfl⟩⟩
      · cases hnext
        exact ⟨le_rfl, fun h => h, fun h => h, Or.inl rfl, hset hstage, Or.inl ⟨rfl, rfl⟩⟩
    · cases hnext
  | giveUp =>
    dsimp only at hnext
    split at hnext
    · next hstage =>
      cases hnext
      exact ⟨le_rfl, fun h => h, fun h => h, Or.inl rfl, hset hstage, Or.inl ⟨rfl, rfl⟩⟩
    · cases hnext
  | closeSpool =>
    dsimp only at hnext
    split at hnext
    · next hstage =>
      split_ifs at hnext with hholder
      cases hnext
      unfold closeEventSpool
      split_ifs with hterminal
      · exact ⟨le_rfl, fun h => h, fun h => h, Or.inl rfl, hset hstage, Or.inl ⟨rfl, rfl⟩⟩
      · refine ⟨EventAdmissionState.rank_le_terminal _, fun h => h,
          fun _ holder hholder' => ?_, Or.inl rfl, hset hstage, Or.inr ⟨hterminal, rfl, rfl⟩⟩
        cases hholder.symm.trans hholder'
    · cases hnext
  | abort =>
    dsimp only at hnext
    split at hnext
    · next hstage =>
      cases hnext
      exact ⟨le_rfl, fun h => h, fun h => h, Or.inl rfl, hset hstage, Or.inl ⟨rfl, rfl⟩⟩
    · next hstage =>
      cases hnext
      exact ⟨le_rfl, fun h => h, fun h => h, Or.inl rfl, hset hstage, Or.inl ⟨rfl, rfl⟩⟩
    · cases hnext

end EventSpool

end CmppProtocol
