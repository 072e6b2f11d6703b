import CmppProtocol.Events.Depth
import CmppProtocol.Events.Dispatcher
import CmppProtocol.Events.Spool

/-! # Capacity of the spool

The check of the depth under the admission lock keeps the spool from filling up:
one item may go beyond the capacity, and the last slot is left for the end. This
holds until a cleanup begins with its batches, which pass the admission by.
-/

namespace CmppProtocol

theorem EventSpoolItem.depth_of_isAdmitted {item : EventSpoolItem} (h : item.isAdmitted = true) :
    item.depth = 1 := by
  cases item with
  | batch events => cases h
  | _ => rfl

/-- The depth was raised for the item. -/
def AdmissionHolder.counted (holder : AdmissionHolder) : ℕ := if holder.raised then 1 else 0

def TerminalStage.counted : TerminalStage → ℕ
  | .sending _ => 1
  | _ => 0

/-- The last item is going to be sent. -/
def TerminalStage.awaited : TerminalStage → ℕ
  | .locked | .sending _ => 1
  | _ => 0

namespace EventSpool

variable {eventSpoolCapacity capacity : ℕ} {s s' : EventSpool eventSpoolCapacity capacity}

/-- The depth of items that are about to be sent. -/
def counted (s : EventSpool eventSpoolCapacity capacity) : ℕ :=
  s.holder.elim 0 AdmissionHolder.counted + s.terminal.counted

def awaited (s : EventSpool eventSpoolCapacity capacity) : ℕ :=
  s.holder.elim 0 (fun _ => 1) + s.terminal.awaited

/-- How far the spool may be filled under the state of the admission. -/
def slots (s : EventSpool eventSpoolCapacity capacity) : ℕ :=
  eventSpoolCapacity +
    match s.admission with
    | .opened | .draining => 0
    | .overflowed | .sealed => 1
    | .terminal => 2

def Admits (s : EventSpool eventSpoolCapacity capacity) : Prop :=
  s.admission = .opened ∨ s.admission = .draining

/-- While no cleanup has begun with its batches. -/
structure Accounted (s : EventSpool eventSpoolCapacity capacity) : Prop where
  metered : s.stream.Metered s.counted
  room : s.stream.load + s.awaited ≤ s.slots
  single : ∀ item ∈ s.stream.spool.sent, item.depth = 1
  batches : ∀ batch batches, .holding batch batches ∉ s.cleanups
  ending : s.terminal = .idle ↔ s.admission ≠ .terminal
  held : ∀ holder, s.holder = some holder → holder.item.isAdmitted = true ∧ s.terminal = .idle ∧
    (if holder.hasCapacity then s.Admits else s.overflowing = [holder.item])
  once : s.overflowing = [] ∨ ¬ s.Admits ∧ ∃ item, s.overflowing = [item] ∧
    (item ∈ s.stream.spool.sent ∨ ∃ holder, s.holder = some holder ∧ holder.item = item)
  running : s.stream.stage = .exited → s.stream.alive = false ∨ s.terminal = .ended
  terminals : ∀ reason, .terminal reason ∈ s.stream.spool.sent → s.terminal = .ended

/-- Nobody holds the admission lock and the end has not begun. -/
theorem Accounted.free (h : s.Accounted) (hholder : s.holder = none)
    (hadmission : s.admission ≠ .terminal) :
    s.terminal = .idle ∧ s.counted = 0 ∧ s.awaited = 0 := by
  have hidle := h.ending.mpr hadmission
  refine ⟨hidle, ?_, ?_⟩
  · rw [counted, hholder, hidle]
    rfl
  · rw [awaited, hholder, hidle]
    rfl

theorem Admits.not_terminal (h : s.Admits) : s.admission ≠ .terminal := by
  rcases h with h | h
  · rw [h]
    rintro ⟨⟩
  · rw [h]
    rintro ⟨⟩

theorem Admits.slots_eq (h : s.Admits) : s.slots = eventSpoolCapacity := by
  rcases h with h | h
  · rw [slots, h]
    rfl
  · rw [slots, h]
    rfl

theorem slots_le (hadmission : s.admission ≠ .terminal) : s.slots ≤ eventSpoolCapacity + 1 := by
  unfold slots
  cases hstate : s.admission with
  | terminal => exact absurd hstate hadmission
  | _ => dsimp only; omega

/-- The dispatcher has not ended before the last item was put. -/
theorem Accounted.not_exited (h : s.Accounted) (halive : s.stream.alive = true)
    (hterminal : s.terminal ≠ .ended) : s.stream.stage ≠ .exited := by
  intro hexited
  rcases h.running hexited with hdead | hended
  · cases halive.symm.trans hdead
  · exact hterminal hended

theorem Accounted.once_nil (h : s.Accounted) (hadmits : s.Admits) : s.overflowing = [] :=
  h.once.resolve_right fun hover => hover.1 hadmits

theorem Accounted.enter (h : s.Accounted) (hholder : s.holder = none) (hadmits : s.Admits)
    {item : EventSpoolItem} (hitem : item.isAdmitted = true) : (s.enter item).Accounted := by
  obtain ⟨hidle, hcounted, hawaited⟩ := h.free hholder hadmits.not_terminal
  have hdepth := h.metered.depth
  have hroom := h.room
  rw [hcounted] at hdepth
  rw [hawaited, hadmits.slots_eq] at hroom
  have hslots := hadmits.slots_eq
  have hempty := h.once_nil hadmits
  unfold EventSpool.enter
  split_ifs with hcapacity
  · refine ⟨⟨h.metered.permit, h.metered.closed, ?_⟩, ?_, h.single, h.batches, h.ending, ?_,
      Or.inl hempty, h.running, h.terminals⟩
    · change s.stream.eventDepth = s.stream.load + (0 + s.terminal.counted)
      rw [hidle]
      exact hdepth
    · change s.stream.load + (1 + s.terminal.awaited) ≤ s.slots
      rw [hidle, hslots]
      dsimp only [TerminalStage.awaited]
      omega
    · rintro holder ⟨⟩
      exact ⟨hitem, hidle, hadmits⟩
  · refine ⟨⟨h.metered.permit, h.metered.closed, ?_⟩, ?_, h.single, h.batches, ?_, ?_,
      Or.inr ⟨?_, item, ?_, Or.inr ⟨_, rfl, rfl⟩⟩, h.running, h.terminals⟩
    · change s.stream.eventDepth = s.stream.load + (0 + s.terminal.counted)
      rw [hidle]
      exact hdepth
    · change s.stream.load + (1 + s.terminal.awaited) ≤ eventSpoolCapacity + 1
      rw [hidle]
      dsimp only [TerminalStage.awaited]
      omega
    · exact iff_of_true hidle (by rintro ⟨⟩)
    · rintro holder ⟨⟩
      refine ⟨hitem, hidle, ?_⟩
      rw [if_neg Bool.false_ne_true]
      exact congrArg (· ++ [item]) hempty
    · rintro (⟨⟨⟩⟩ | ⟨⟨⟩⟩)
    · exact congrArg (· ++ [item]) hempty

theorem Accounted.raiseHolder (h : s.Accounted) {holder : AdmissionHolder}
    (hholder : s.holder = some holder) (hraised : holder.raised = false) :
    (s.raiseHolder holder).Accounted := by
  obtain ⟨hitem, hidle, hheld⟩ := h.held holder hholder
  have hcounted : s.counted = 0 := by
    rw [counted, hholder, hidle]
    exact congrArg (· + 0) (if_neg (by rw [hraised]; exact Bool.false_ne_true))
  have hmetered := h.metered.raise 1
  have hroom := h.room
  rw [hcounted] at hmetered
  rw [awaited, hholder] at hroom
  refine ⟨?_, hroom, h.single, h.batches, h.ending, ?_, ?_, h.running, h.terminals⟩
  · have hcounted' : (s.raiseHolder holder).counted = 0 + 1 := by
      change 1 + s.terminal.counted = 0 + 1
      rw [hidle]
      rfl
    rw [hcounted']
    exact hmetered
  · rintro holder' ⟨⟩
    exact ⟨hitem, hidle, hheld⟩
  · refine h.once.imp_right fun hover => ⟨hover.1, ?_⟩
    obtain ⟨item, hover, hplace⟩ := hover.2
    refine ⟨item, hover, hplace.imp_right fun hholds => ⟨_, rfl, ?_⟩⟩
    obtain ⟨other, hother, rfl⟩ := hholds
    cases hholder.symm.trans hother
    rfl

/-- The send under the admission lock succeeds. -/
theorem Accounted.send_ok (h : s.Accounted) {holder : AdmissionHolder}
    (hholder : s.holder = some holder) (hstage : s.stream.stage ≠ .exited) :
    ∃ spool, s.stream.spool.trySend 0 holder.item = .ok spool := by
  obtain ⟨_, hidle, _⟩ := h.held holder hholder
  refine (h.metered.fits hstage h.single).2 ?_ holder.item
  have hroom := h.room
  have hslots := slots_le (h.ending.mp hidle)
  rw [awaited, hholder, hidle] at hroom
  change s.stream.load + (1 + 0) ≤ s.slots at hroom
  omega

theorem sendHolder_of_ok {holder : AdmissionHolder}
    {spool : Channel EventSpoolItem (eventSpoolCapacity + 2)}
    (hput : s.stream.spool.trySend 0 holder.item = .ok spool) :
    s.sendHolder holder = { s with stream := { s.stream with spool }, holder := none } := by
  unfold EventSpool.sendHolder EventSpool.trySend
  rw [hput]
  rfl

theorem Accounted.sendHolder (h : s.Accounted) {holder : AdmissionHolder}
    (hholder : s.holder = some holder) (hraised : holder.raised = true)
    (halive : s.stream.alive = true) : (s.sendHolder holder).Accounted := by
  obtain ⟨hitem, hidle, hheld⟩ := h.held holder hholder
  have hdepth := EventSpoolItem.depth_of_isAdmitted hitem
  obtain ⟨spool, hput⟩ := h.send_ok hholder (h.not_exited halive (by rw [hidle]; rintro ⟨⟩))
  have hsent := Channel.trySend_ok hput
  have hcounted : s.counted = s.terminal.counted + holder.item.depth := by
    rw [counted, hholder, hidle, hdepth]
    exact congrArg (· + 0) (if_pos hraised)
  have hmetered := h.metered
  rw [hcounted] at hmetered
  obtain ⟨hmetered, hload⟩ := hmetered.put hsent
  have hroom := h.room
  rw [awaited, hholder] at hroom
  rw [sendHolder_of_ok hput]
  refine ⟨?_, ?_, ?_, h.batches, h.ending, by rintro _ ⟨⟩, ?_, h.running, ?_⟩
  · change EventStream.Metered _ (0 + s.terminal.counted)
    rw [Nat.zero_add]
    exact hmetered
  · change EventStream.load { s.stream with spool } + (0 + s.terminal.awaited) ≤ s.slots
    rw [hload, hdepth, Nat.zero_add, Nat.add_assoc]
    exact hroom
  · intro item hmem
    rcases List.mem_append.mp (hsent.sent ▸ hmem) with hmem | hmem
    · exact h.single item hmem
    · rw [List.mem_singleton.mp hmem]
      exact hdepth
  · refine h.once.imp_right fun hover => ⟨hover.1, ?_⟩
    obtain ⟨item, hover, hplace⟩ := hover.2
    refine ⟨item, hover, Or.inl ?_⟩
    change item ∈ spool.sent
    rw [hsent.sent]
    rcases hplace with hmem | ⟨other, hother, rfl⟩
    · exact List.mem_append_left _ hmem
    · cases hholder.symm.trans hother
      exact List.mem_append_right _ List.mem_cons_self
  · intro reason hmem
    rcases List.mem_append.mp (hsent.sent ▸ hmem) with hmem | hmem
    · exact h.terminals reason hmem
    · rw [← List.mem_singleton.mp hmem] at hitem
      cases hitem

/-- The state of the admission changes while nobody holds its lock. -/
theorem Accounted.setAdmission (h : s.Accounted) (hholder : s.holder = none)
    (hadmission : s.admission ≠ .terminal) {state : EventAdmissionState}
    (hstate : state ≠ .terminal)
    (hslots : s.slots ≤ slots { s with admission := state })
    (hadmits : Admits { s with admission := state } → s.Admits) :
    Accounted { s with admission := state } := by
  have hidle := h.ending.mpr hadmission
  refine ⟨h.metered, h.room.trans hslots, h.single, h.batches, iff_of_true hidle hstate, ?_, ?_,
    h.running, h.terminals⟩
  · intro holder hholder'
    cases hholder.symm.trans hholder'
  · exact h.once.imp_right fun hover => ⟨fun h => hover.1 (hadmits h), hover.2⟩

theorem Accounted.drain (h : s.Accounted) (hholder : s.holder = none)
    (hopened : s.admission = .opened) : Accounted { s with admission := .draining } := by
  refine h.setAdmission hholder (Admits.not_terminal (Or.inl hopened)) (by rintro ⟨⟩) ?_
    fun _ => Or.inl hopened
  rw [Admits.slots_eq (Or.inl hopened)]
  exact Nat.le_add_right _ _

theorem Accounted.seal (h : s.Accounted) (hholder : s.holder = none)
    (hadmission : s.admission ≠ .terminal) : Accounted { s with admission := .sealed } := by
  refine h.setAdmission hholder hadmission (by rintro ⟨⟩) (slots_le hadmission) ?_
  rintro (⟨⟨⟩⟩ | ⟨⟨⟩⟩)

theorem Accounted.backpressureClose (h : s.Accounted) (hholder : s.holder = none) :
    s.backpressureClose.Accounted := by
  unfold EventSpool.backpressureClose
  have hset : Accounted { s with admission :=
      if s.admission = .opened ∨ s.admission = .draining then .overflowed else s.admission } := by
    split_ifs with hadmits
    · refine h.setAdmission hholder (Admits.not_terminal hadmits) (by rintro ⟨⟩) ?_ ?_
      · rw [Admits.slots_eq hadmits]
        exact Nat.le_add_right _ _
      · rintro (⟨⟨⟩⟩ | ⟨⟨⟩⟩)
    · exact h
  exact ⟨hset.metered, hset.room, hset.single, hset.batches, hset.ending, hset.held, hset.once,
    hset.running, hset.terminals⟩

/-- Another cleanup stage that has no batch in hand. -/
theorem Accounted.setCleanup (h : s.Accounted) {index : ℕ} {stage : TeardownStage}
    (hstage : ∀ batch batches, stage ≠ .holding batch batches) :
    (s.setCleanup index stage).Accounted := by
  refine ⟨h.metered, h.room, h.single, ?_, h.ending, h.held, h.once, h.running, h.terminals⟩
  intro batch batches hmem
  rcases List.mem_or_eq_of_mem_set hmem with hmem | heq
  · exact h.batches batch batches hmem
  · exact hstage batch batches heq.symm

theorem Accounted.closeEventSpool (h : s.Accounted) (hholder : s.holder = none) :
    s.closeEventSpool.Accounted := by
  unfold EventSpool.closeEventSpool
  split_ifs with hterminal
  · exact h
  · obtain ⟨hidle, hcounted, hawaited⟩ := h.free hholder hterminal
    have hroom := h.room
    have hslots := slots_le hterminal
    have hmetered := h.metered
    rw [hcounted] at hmetered
    refine ⟨?_, ?_, h.single, h.batches, iff_of_false (by rintro ⟨⟩) fun hne => hne rfl,
      ?_, ?_, ?_, ?_⟩
    · change s.stream.Metered (s.holder.elim 0 AdmissionHolder.counted + 0)
      rw [hholder]
      exact hmetered
    · change s.stream.load + (s.holder.elim 0 (fun _ => 1) + 1) ≤ eventSpoolCapacity + 2
      rw [hholder]
      dsimp only [Option.elim]
      omega
    · intro holder hholder'
      cases hholder.symm.trans hholder'
    · refine h.once.imp_right fun hover => ⟨?_, hover.2⟩
      rintro (⟨⟨⟩⟩ | ⟨⟨⟩⟩)
    · intro hexited
      refine (h.running hexited).imp_right fun hended => ?_
      cases hidle.symm.trans hended
    · intro reason hmem
      cases hidle.symm.trans (h.terminals reason hmem)

theorem Accounted.takeReason (h : s.Accounted) (hlocked : s.terminal = .locked)
    (reason : Option Error) : Accounted { s.raiseDepth 1 with terminal := .sending reason } := by
  have hroom := h.room
  rw [awaited, hlocked] at hroom
  have hmetered := h.metered.raise 1
  rw [counted, hlocked] at hmetered
  refine ⟨hmetered, hroom, h.single, h.batches, iff_of_false (by rintro ⟨⟩) ?_, ?_, h.once, ?_, ?_⟩
  · intro hne
    cases hlocked.symm.trans (h.ending.mpr hne)
  · intro holder hholder
    cases hlocked.symm.trans (h.held holder hholder).2.1
  · intro hexited
    refine (h.running hexited).imp_right fun hended => ?_
    cases hlocked.symm.trans hended
  · intro reason hmem
    cases hlocked.symm.trans (h.terminals reason hmem)

/-- Until the last item is put there is a slot for it. -/
theorem Accounted.load_le (h : s.Accounted) (hended : s.terminal ≠ .ended) :
    s.stream.load ≤ eventSpoolCapacity + 1 := by
  have hroom := h.room
  rw [awaited] at hroom
  cases hterminal : s.terminal with
  | idle =>
    have hslots := slots_le (h.ending.mp hterminal)
    omega
  | ended => exact absurd hterminal hended
  | _ =>
    rw [hterminal] at hroom
    have hslots : s.slots ≤ eventSpoolCapacity + 2 := by
      unfold slots
      cases s.admission <;> dsimp only <;> omega
    change s.stream.load + (_ + 1) ≤ _ at hroom
    omega

theorem Accounted.terminal_ok (h : s.Accounted) (hstage : s.stream.stage ≠ .exited)
    (hended : s.terminal ≠ .ended) (reason : Option Error) :
    ∃ spool, s.stream.spool.trySend 0 (.terminal reason) = .ok spool :=
  (h.metered.fits hstage h.single).2 (Nat.succ_le_succ (h.load_le hended)) _

theorem Accounted.sendTerminal (h : s.Accounted) {reason : Option Error}
    (hsending : s.terminal = .sending reason) (halive : s.stream.alive = true) :
    (s.sendTerminal reason).Accounted := by
  have hended : s.terminal ≠ .ended := by
    rw [hsending]
    rintro ⟨⟩
  obtain ⟨spool, hput⟩ := h.terminal_ok (h.not_exited halive hended) hended reason
  have hsent := Channel.trySend_ok hput
  have hmetered := h.metered
  rw [counted, hsending] at hmetered
  obtain ⟨hmetered, hload⟩ := hmetered.put hsent
  have hroom := h.room
  rw [awaited, hsending] at hroom
  have hnotidle : s.terminal ≠ .idle := by
    rw [hsending]
    rintro ⟨⟩
  have hterminal : s.sendTerminal reason =
      { s with stream := { s.stream with spool }, terminal := .ended } := by
    unfold EventSpool.sendTerminal EventSpool.trySend
    rw [hput]
    rfl
  rw [hterminal]
  refine ⟨hmetered, ?_, ?_, h.batches, iff_of_false (by rintro ⟨⟩) ?_, ?_, ?_, fun _ => Or.inr rfl,
    fun _ _ => rfl⟩
  · change EventStream.load { s.stream with spool } + _ ≤ s.slots
    rw [hload, Nat.add_assoc, Nat.add_comm (EventSpoolItem.depth _)]
    exact hroom
  · intro item hmem
    rcases List.mem_append.mp (hsent.sent ▸ hmem) with hmem | hmem
    · exact h.single item hmem
    · rw [List.mem_singleton.mp hmem]
      rfl
  · exact fun hne => hnotidle (h.ending.mpr hne)
  · intro holder hholder
    exact absurd (h.held holder hholder).2.1 hnotidle
  · refine h.once.imp_right fun hover => ⟨hover.1, ?_⟩
    obtain ⟨item, hover, hplace⟩ := hover.2
    refine ⟨item, hover, hplace.imp_left fun hmem => ?_⟩
    change item ∈ spool.sent
    rw [hsent.sent]
    exact List.mem_append_left _ hmem

theorem Accounted.settleTicket (h : s.Accounted) {ticket : ℕ} {state : EventTicket}
    (hnext : s.settleTicket ticket state = some s') : s'.Accounted := by
  unfold EventSpool.settleTicket at hnext
  split_ifs at hnext
  obtain ⟨stream, hresolve, rfl⟩ := Option.map_eq_some_iff.mp hnext
  rw [(EventStream.keepsTickets_of_resolve hresolve).2]
  exact ⟨⟨h.metered.permit, h.metered.closed, h.metered.depth⟩, h.room, h.single,
    h.batches, h.ending, h.held, h.once, h.running, h.terminals⟩

theorem Accounted.cleanupNext (h : s.Accounted) {index : ℕ} {event : TeardownEvent}
    (hevent : event ≠ .takeBatch) (hnext : s.cleanupNext index event = some s') :
    s'.Accounted := by
  have hholding {batch : List ℕ} {batches : List (List ℕ)}
      (hstage : s.cleanups[index]? = some (.holding batch batches)) : False :=
    h.batches batch batches (List.mem_of_getElem? hstage)
  unfold EventSpool.cleanupNext at hnext
  cases event with
  | drain order =>
    dsimp only at hnext
    split at hnext
    · split_ifs at hnext
      cases hnext
      have hdrained : Accounted { s with pending := [] } :=
        ⟨h.metered, h.room, h.single, h.batches, h.ending, h.held, h.once, h.running, h.terminals⟩
      exact hdrained.setCleanup (by rintro _ _ ⟨⟩)
    · cases hnext
  | takeBatch => exact absurd rfl hevent
  | sendBatch =>
    dsimp only at hnext
    split at hnext
    · next hstage => exact (hholding hstage).elim
    · cases hnext
  | giveUp =>
    dsimp only at hnext
    split at hnext
    · next hstage => exact (hholding hstage).elim
    · cases hnext
  | closeSpool =>
    dsimp only at hnext
    split at hnext
    · split_ifs at hnext with hholder
      cases hnext
      exact (h.closeEventSpool hholder).setCleanup (by rintro _ _ ⟨⟩)
    · cases hnext
  | abort =>
    dsimp only at hnext
    split at hnext
    · next hstage => exact (hholding hstage).elim
    · cases hnext
      exact h.setCleanup (by rintro _ _ ⟨⟩)
    · cases hnext

theorem Accounted.countDropped (h : s.Accounted) (count : ℕ) : (s.countDropped count).Accounted :=
  ⟨⟨h.metered.permit, h.metered.closed, h.metered.depth⟩, h.room, h.single, h.batches, h.ending,
    h.held, h.once, h.running, h.terminals⟩

theorem Accounted.addCleanup (h : s.Accounted) :
    Accounted { s with cleanups := s.cleanups ++ [.starting] } := by
  refine ⟨h.metered, h.room, h.single, ?_, h.ending, h.held, h.once, h.running, h.terminals⟩
  intro batch batches hmem
  rcases List.mem_append.mp hmem with hmem | hmem
  · exact h.batches batch batches hmem
  · cases List.mem_singleton.mp hmem

/-- The stream has gone on without the producers. -/
theorem Accounted.setStream (h : s.Accounted)
    {stream : EventStream (eventSpoolCapacity + 2) capacity}
    (hmetered : stream.Metered s.counted) (hload : stream.load ≤ s.stream.load)
    (hstream : s.stream.Dispatched stream) : Accounted { s with stream } := by
  refine ⟨hmetered, (Nat.add_le_add_right hload _).trans h.room, ?_, h.batches, h.ending, h.held,
    ?_, ?_, ?_⟩
  · change ∀ item ∈ stream.spool.sent, item.depth = 1
    rw [hstream.sent]
    exact h.single
  · change s.overflowing = [] ∨ _ ∧ ∃ item, s.overflowing = [item] ∧ (item ∈ stream.spool.sent ∨ _)
    rw [hstream.sent]
    exact h.once
  · intro hexited
    change stream.alive = false ∨ _
    rw [hstream.alive]
    rcases (hstream.exited hexited).2 with ⟨hdead, _⟩ | ⟨reason, hqueued⟩
    · exact Or.inl hdead
    · have hmem : .terminal reason ∈ s.stream.spool.queued := hqueued ▸ List.mem_cons_self
      exact Or.inr (h.terminals reason (List.mem_of_mem_drop hmem))
  · intro reason hmem
    change .terminal reason ∈ stream.spool.sent at hmem
    rw [hstream.sent] at hmem
    exact h.terminals reason hmem

theorem Accounted.ownedNext (h : s.Accounted) (halive : s.stream.alive = true) {event : SpoolEvent}
    (hevent : ∀ index, event ≠ .cleanup index .takeBatch) (hnext : s.ownedNext event = some s') :
    s'.Accounted := by
  cases ownedNext_move hnext with
  | emitEvent _ hholder hadmits => exact h.enter hholder hadmits rfl
  | emitDropped _ _ => exact h.countDropped 1
  | reserveDeferredEvent hholder hadmits => exact h.enter hholder hadmits rfl
  | raise holder hholder hraised => exact h.raiseHolder hholder hraised
  | send holder hholder hraised => exact h.sendHolder hholder hraised halive
  | publish _ _ _ hsettle => exact h.settleTicket hsettle
  | dropTicket _ _ hsettle => exact h.settleTicket hsettle
  | beginEventDrain hholder hopened => exact h.drain hholder hopened
  | sealed _ _ hholder hterminal => exact h.seal hholder hterminal
  | still _ _ _ => exact h
  | finish _ =>
    have h := h.addCleanup
    exact ⟨h.metered, h.room, h.single, h.batches, h.ending, h.held, h.once, h.running, h.terminals⟩
  | fallback _ => exact h.addCleanup
  | cleanup index event _ hnext =>
    refine h.cleanupNext ?_ hnext
    rintro rfl
    exact hevent index rfl
  | takeReason reason hlocked => exact h.takeReason hlocked reason
  | sendTerminal reason hsending => exact h.sendTerminal hsending halive
  | admitSubmit _ _ | settleSubmit _ =>
    exact ⟨h.metered, h.room, h.single, h.batches, h.ending, h.held, h.once, h.running, h.terminals⟩

theorem Accounted.next (h : s.Accounted) {event : SpoolEvent}
    (hevent : ∀ index, event ≠ .cleanup index .takeBatch) (hnext : s.next event = some s') :
    s'.Accounted := by
  cases next_move hnext with
  | dropConnection _ =>
    exact ⟨⟨h.metered.permit, h.metered.closed, h.metered.depth⟩, h.room, h.single, h.batches,
      h.ending, h.held, h.once, fun _ => Or.inl rfl, h.terminals⟩
  | read _ hread =>
    obtain ⟨event, events, _, rfl⟩ := EventStream.next_read hread
    exact ⟨⟨h.metered.permit, h.metered.closed, h.metered.depth⟩, h.room, h.single, h.batches,
      h.ending, h.held, h.once, h.running, h.terminals⟩
  | dropReceiver =>
    exact ⟨⟨h.metered.permit, h.metered.closed, h.metered.depth⟩, h.room, h.single, h.batches,
      h.ending, h.held, h.once, h.running, h.terminals⟩
  | backpressure _ _ hholder hstream =>
    obtain ⟨hmetered, hload⟩ := h.metered.dispatcherNext hstream
    exact (h.backpressureClose hholder).setStream hmetered hload (EventStream.dispatched hstream)
  | dispatcher _ _ hstream =>
    obtain ⟨hmetered, hload⟩ := h.metered.dispatcherNext hstream
    exact h.setStream hmetered hload (EventStream.dispatched hstream)
  | owned _ _ halive hnext => exact h.ownedNext halive hevent hnext

theorem accounted_run {history : List SpoolEvent}
    (hrun : (machine eventSpoolCapacity capacity).Run history s)
    (hbatches : ∀ index, .cleanup index .takeBatch ∉ history) : s.Accounted := by
  refine hrun.invariant (I := fun history s =>
    (∀ index, .cleanup index .takeBatch ∉ history) → s.Accounted) ?_ ?_ hbatches
  · rintro s rfl _
    refine ⟨⟨fun _ => rfl, iff_of_false Bool.false_ne_true (by rintro ⟨⟩), rfl⟩,
      Nat.zero_le _, ?_, ?_,
      iff_of_true rfl (by rintro ⟨⟩), by rintro _ ⟨⟩, Or.inl rfl, by rintro ⟨⟩, by rintro _ ⟨⟩⟩
    · rintro item ⟨⟩
    · rintro batch batches ⟨⟩
  · intro history s event s' ih hnext hbatches
    refine (ih fun index hmem => hbatches index (List.mem_append_left _ hmem)).next ?_ hnext
    rintro index rfl
    exact hbatches index (List.mem_append_right _ List.mem_cons_self)

/-- The item is let in without capacity, and the admission switches over. -/
structure Overflows (s s' : EventSpool eventSpoolCapacity capacity) : Prop where
  admits : s.Admits
  depth : eventSpoolCapacity ≤ s.stream.eventDepth
  admission : s'.admission = .overflowed
  held : ∃ item, s'.overflowing = s.overflowing ++ [item] ∧ s'.holder = some ⟨item, false, false⟩

theorem enter_overflows (hadmits : s.Admits) (item : EventSpoolItem) :
    (s.enter item).overflowing = s.overflowing ∨ s.Overflows (s.enter item) := by
  unfold enter
  split_ifs with hcapacity
  · exact Or.inl rfl
  · exact Or.inr ⟨hadmits, Nat.le_of_not_lt hcapacity, rfl, item, rfl, rfl⟩

theorem trySend_overflowing {item : EventSpoolItem} (hput : s.trySend item = .ok s') :
    s'.overflowing = s.overflowing := by
  obtain ⟨spool, _, rfl⟩ := trySend_ok hput
  rfl

theorem cleanupNext_overflowing {index : ℕ} {event : TeardownEvent}
    (hnext : s.cleanupNext index event = some s') : s'.overflowing = s.overflowing := by
  unfold cleanupNext at hnext
  cases event with
  | drain order =>
    dsimp only at hnext
    split at hnext
    · split_ifs at hnext
      cases hnext
      rfl
    · cases hnext
  | sendBatch =>
    dsimp only at hnext
    split at hnext
    · split at hnext
      · next hput =>
        cases hnext
        have hsame := trySend_overflowing hput
        exact hsame
      · cases hnext
        rfl
      · cases hnext
        rfl
    · cases hnext
  | closeSpool =>
    dsimp only at hnext
    split at hnext
    · split_ifs at hnext
      cases hnext
      change s.closeEventSpool.overflowing = _
      unfold closeEventSpool
      split_ifs
      · rfl
      · rfl
    · cases hnext
  | abort =>
    dsimp only at hnext
    split at hnext
    · cases hnext
      rfl
    · cases hnext
      rfl
    · cases hnext
  | _ =>
    dsimp only at hnext
    split at hnext
    · cases hnext
      rfl
    · cases hnext

theorem sendHolder_overflowing (holder : AdmissionHolder) :
    (s.sendHolder holder).overflowing = s.overflowing := by
  unfold sendHolder
  split
  · next hput =>
    have hsame := trySend_overflowing hput
    exact hsame
  · rfl

theorem settleTicket_overflowing {ticket : ℕ} {state : EventTicket}
    (hnext : s.settleTicket ticket state = some s') : s'.overflowing = s.overflowing := by
  unfold settleTicket at hnext
  split_ifs at hnext
  obtain ⟨stream, _, rfl⟩ := Option.map_eq_some_iff.mp hnext
  rfl

theorem sendTerminal_overflowing (reason : Option Error) :
    (s.sendTerminal reason).overflowing = s.overflowing := by
  unfold sendTerminal
  split
  · next hput =>
    have hsame := trySend_overflowing hput
    exact hsame
  · rfl
  · rfl

theorem ownedNext_overflows {event : SpoolEvent} (hnext : s.ownedNext event = some s') :
    s'.overflowing = s.overflowing ∨ s.Overflows s' := by
  cases ownedNext_move hnext with
  | emitEvent event _ hadmits => exact enter_overflows hadmits (.direct event)
  | reserveDeferredEvent _ hadmits => exact enter_overflows hadmits (.deferred s.nextTicket)
  | send holder _ _ => exact Or.inl (sendHolder_overflowing holder)
  | publish _ _ _ hsettle => exact Or.inl (settleTicket_overflowing hsettle)
  | dropTicket _ _ hsettle => exact Or.inl (settleTicket_overflowing hsettle)
  | cleanup _ _ _ hnext => exact Or.inl (cleanupNext_overflowing hnext)
  | sendTerminal reason _ => exact Or.inl (sendTerminal_overflowing reason)
  | _ => exact Or.inl rfl

theorem next_overflows {event : SpoolEvent} (hnext : s.next event = some s') :
    s'.overflowing = s.overflowing ∨ s.Overflows s' := by
  cases next_move hnext with
  | owned _ _ halive hnext => exact ownedNext_overflows hnext
  | dropConnection _ => exact Or.inl rfl
  | read _ _ => exact Or.inl rfl
  | dropReceiver => exact Or.inl rfl
  | backpressure _ _ _ _ => exact Or.inl rfl
  | dispatcher _ _ _ => exact Or.inl rfl

/-- The spool holds no more items than the depth counts, and one more than the capacity at most.
What is let in finds a slot; one item at most is let in without capacity, by the step that makes the
admission `overflowed`, and it is put into the spool like the others; and there is a slot for the
last item. What is in the spool when the dispatcher ends goes with it. -/
theorem spool_capacity {history : List SpoolEvent}
    (hrun : (machine eventSpoolCapacity capacity).Run history s)
    (hbatches : ∀ index, .cleanup index .takeBatch ∉ history) :
    (s.stream.stage ≠ .exited →
      s.stream.spool.queued.length ≤ s.stream.eventDepth ∧
      (s.terminal ≠ .ended → s.stream.spool.queued.length ≤ eventSpoolCapacity + 1 ∧
        ∀ reason, ∃ spool, s.stream.spool.trySend 0 (.terminal reason) = .ok spool) ∧
      ∀ holder, s.holder = some holder →
        ∃ spool, s.stream.spool.trySend 0 holder.item = .ok spool) ∧
    s.overflowing.length ≤ 1 ∧
    (∀ item ∈ s.overflowing, item ∈ s.stream.spool.sent ∨
      ∃ holder, s.holder = some holder ∧ holder.item = item) ∧
    ∀ event s', s.next event = some s' → s'.overflowing = s.overflowing ∨ s.Overflows s' := by
  have h := accounted_run hrun hbatches
  refine ⟨fun hstage => ⟨?_, ?_, fun holder hholder => h.send_ok hholder hstage⟩, ?_, ?_,
    fun _ _ => next_overflows⟩
  · have hdepth := h.metered.depth
    have hlength := (h.metered.fits hstage h.single).1
    omega
  · intro hended
    exact ⟨(h.metered.fits hstage h.single).1.trans (h.load_le hended),
      h.terminal_ok hstage hended⟩
  · rcases h.once with hempty | ⟨_, item, hitem, _⟩
    · rw [hempty]
      exact Nat.zero_le _
    · rw [hitem]
      exact le_rfl
  · intro item hmem
    rcases h.once with hempty | ⟨_, other, hother, hplace⟩
    · rw [hempty] at hmem
      cases hmem
    · rw [hother] at hmem
      rw [List.mem_singleton.mp hmem]
      exact hplace

/-- The second event goes beyond the capacity, and there is a slot for the end. -/
theorem spool_capacity_overflowed : ∃ history s,
    (machine 1 2).Run history s ∧
    s.overflowing = [.direct (.submitDropped 8)] ∧ s.stream.spool.queued.length ≤ 2 ∧
    ∃ spool, s.stream.spool.trySend 0 (.terminal none) = .ok spool := by
  have hexec : (Machine.exec next (initial 1 2)
      [.emitEvent (.submitDropped 7), .raise, .send, .emitEvent (.submitDropped 8), .raise,
        .send]).map (fun s => (s.overflowing, s.stream.stage, s.terminal)) =
      some ([.direct (.submitDropped 8)], .receiving, .idle) := by decide +kernel
  obtain ⟨s, hrun, hview⟩ := Machine.exists_run_of_exec _ hexec
  obtain ⟨hoverflowing, hview⟩ := Prod.mk.inj hview
  obtain ⟨hstage, hterminal⟩ := Prod.mk.inj hview
  have hcapacity := (spool_capacity hrun (by intro index; simp)).1 (by rw [hstage]; rintro ⟨⟩)
  obtain ⟨hlength, hfree⟩ := hcapacity.2.1 (by rw [hterminal]; rintro ⟨⟩)
  exact ⟨_, s, hrun, hoverflowing, hlength, hfree none⟩

end EventSpool

end CmppProtocol
