import CmppProtocol.Events.Loss
import CmppProtocol.Library.Focus
import CmppProtocol.Login.Config
import Mathlib.Algebra.Order.BigOperators.Group.List
import Mathlib.Algebra.Order.Group.Nat

/-! # Room for the dropped SUBMITs

The cleanups send what is left of the window in batches, past the admission.
However many cleanups there are, the window is drained once, and a spool made for
the parameters has a slot for every batch.
-/

namespace CmppProtocol

def EventSpoolItem.isBatch : EventSpoolItem → Bool
  | .batch _ => true
  | _ => false

theorem EventSpoolItem.not_batch_of_isAdmitted {item : EventSpoolItem}
    (h : item.isAdmitted = true) :
    item.isBatch = false := by
  cases item with
  | batch events => cases h
  | _ => rfl

namespace EventSpool

variable {eventSpoolCapacity capacity windowSize : ℕ}
  {s s' : EventSpool eventSpoolCapacity capacity}

/-- A SUBMIT is admitted with a permit of the window, and its entry keeps the permit. -/
def keepsWindow (windowSize : ℕ) (s : EventSpool eventSpoolCapacity capacity) : SpoolEvent → Bool
  | .admitSubmit _ => s.pending.length < windowSize
  | _ => true

/-- The batches that were ever sent, and those that the cleanups have left. -/
def batches (s : EventSpool eventSpoolCapacity capacity) : ℕ :=
  s.stream.spool.sent.countP EventSpoolItem.isBatch +
    (s.cleanups.map fun stage => stage.remaining.length).sum

/-- There is no batch as long as there is an entry that could still come into one. -/
structure Fits (windowSize : ℕ) (s : EventSpool eventSpoolCapacity capacity) : Prop where
  window : s.pending.length ≤ windowSize
  opened : s.closed = false → s.cleanups = []
  fresh : s.closed = false ∨ s.pending ≠ [] → s.batches = 0
  bound : s.batches ≤ divCeil windowSize SUBMIT_DROPPED_BATCH_SIZE
  held : ∀ holder, s.holder = some holder → holder.item.isAdmitted = true

/-- Nothing comes into the window, nor does a batch come up. -/
structure Shrinks (s s' : EventSpool eventSpoolCapacity capacity) : Prop where
  pending : s'.pending.length ≤ s.pending.length
  closed : s'.closed = s.closed
  cleanups : s'.cleanups.length = s.cleanups.length
  batches : s'.batches ≤ s.batches

theorem Fits.shrink (h : s.Fits windowSize) (hshrinks : s.Shrinks s')
    (hheld : ∀ holder, s'.holder = some holder → holder.item.isAdmitted = true) :
    s'.Fits windowSize := by
  constructor
  · exact hshrinks.pending.trans h.window
  · intro hopen
    have hempty := h.opened (hshrinks.closed.symm.trans hopen)
    apply List.eq_nil_of_length_eq_zero
    rw [hshrinks.cleanups, hempty, List.length_nil]
  · intro hfresh
    have hbefore : s.closed = false ∨ s.pending ≠ [] := by
      rcases hfresh with hopen | hne
      · exact Or.inl (hshrinks.closed.symm.trans hopen)
      · refine Or.inr fun hnil => hne (List.eq_nil_of_length_eq_zero ?_)
        have hle := hshrinks.pending
        rw [hnil] at hle
        exact Nat.le_zero.mp hle
    have hzero := h.fresh hbefore
    have hle := hshrinks.batches
    omega
  · exact hshrinks.batches.trans h.bound
  · exact hheld

/-- Neither the window nor the cleanups nor what was sent is touched. -/
theorem Fits.keep (h : s.Fits windowSize) (hpending : s'.pending = s.pending)
    (hclosed : s'.closed = s.closed) (hcleanups : s'.cleanups = s.cleanups)
    (hsent : s'.stream.spool.sent = s.stream.spool.sent)
    (hheld : ∀ holder, s'.holder = some holder → holder.item.isAdmitted = true) :
    s'.Fits windowSize := by
  refine h.shrink ⟨?_, hclosed, ?_, ?_⟩ hheld
  · rw [hpending]
  · rw [hcleanups]
  · rw [batches, hsent, hcleanups, batches]

theorem batches_trySend {item : EventSpoolItem} (hput : s.trySend item = .ok s') :
    s'.batches = s.batches + item.isBatch.toNat := by
  obtain ⟨spool, hspool, rfl⟩ := trySend_ok hput
  unfold batches
  dsimp only
  rw [(Channel.trySend_ok hspool).sent, List.countP_append, List.countP_singleton]
  rw [List.ite_toNat]
  omega

/-- An item that is not a batch is sent. -/
theorem Fits.put (h : s.Fits windowSize) {item : EventSpoolItem} (hput : s.trySend item = .ok s')
    (hitem : item.isBatch = false) : s'.Fits windowSize := by
  have hbatches := batches_trySend hput
  rw [hitem] at hbatches
  obtain ⟨spool, hspool, rfl⟩ := trySend_ok hput
  exact h.shrink ⟨Nat.le_refl _, rfl, rfl, hbatches.le⟩ h.held

theorem Fits.enter (h : s.Fits windowSize) {item : EventSpoolItem}
    (hitem : item.isAdmitted = true) :
    (s.enter item).Fits windowSize := by
  unfold EventSpool.enter
  split_ifs
  · refine h.keep rfl rfl rfl rfl ?_
    rintro _ ⟨⟩
    exact hitem
  · refine h.keep rfl rfl rfl rfl ?_
    rintro _ ⟨⟩
    exact hitem

theorem Fits.sendHolder (h : s.Fits windowSize) {holder : AdmissionHolder}
    (hholder : s.holder = some holder) : (s.sendHolder holder).Fits windowSize := by
  unfold EventSpool.sendHolder
  split
  · next hput =>
    have hsent := h.put hput (EventSpoolItem.not_batch_of_isAdmitted (h.held holder hholder))
    exact hsent.keep rfl rfl rfl rfl (by rintro _ ⟨⟩)
  · exact h.keep rfl rfl rfl rfl (by rintro _ ⟨⟩)

theorem Fits.settleTicket (h : s.Fits windowSize) {ticket : ℕ} {state : EventTicket}
    (hnext : s.settleTicket ticket state = some s') : s'.Fits windowSize := by
  unfold EventSpool.settleTicket at hnext
  split_ifs at hnext
  obtain ⟨stream, hresolve, rfl⟩ := Option.map_eq_some_iff.mp hnext
  rw [(EventStream.keepsTickets_of_resolve hresolve).2]
  exact h.keep rfl rfl rfl rfl h.held

/-- A cleanup goes on, and has as many batches left as before, less those that `s'` has sent. -/
theorem batches_setCleanup {index : ℕ} {stage : TeardownStage}
    (hstage : s.cleanups[index]? = some stage) (stage' : TeardownStage) :
    (s.setCleanup index stage').batches + stage.remaining.length =
      s.batches + stage'.remaining.length := by
  have hsum := List.sum_map_set_add hstage (fun stage => stage.remaining.length) stage'
  unfold batches
  change s.stream.spool.sent.countP _ + ((s.cleanups.set index stage').map _).sum + _ = _
  omega

theorem Fits.setCleanup (h : s.Fits windowSize) {index : ℕ} {stage stage' : TeardownStage}
    (hstage : s.cleanups[index]? = some stage)
    (hle : stage'.remaining.length ≤ stage.remaining.length) :
    (s.setCleanup index stage').Fits windowSize := by
  have hbatches := batches_setCleanup hstage stage'
  exact h.shrink ⟨Nat.le_refl _, rfl, List.length_set, by omega⟩ h.held

/-- The window is drained: what was in it makes no more batches than a full one does, and only the
first cleanup that comes finds anything. -/
theorem Fits.drain (h : s.Fits windowSize) {index : ℕ} {order : List ℕ}
    (hstage : s.cleanups[index]? = some .starting) (hperm : order.Perm s.pending) :
    ({ s with pending := [] }.setCleanup index
      (.sending (Greedy.chunks SUBMIT_DROPPED_BATCH_SIZE order))).Fits windowSize := by
  have hclosed : s.closed = true := by
    by_contra hopen
    rw [h.opened (Bool.eq_false_of_not_eq_true hopen)] at hstage
    cases hstage
  have hlength := Greedy.length_chunks (n := SUBMIT_DROPPED_BATCH_SIZE) (by decide) order
  have hbatches := batches_setCleanup hstage
    (.sending (Greedy.chunks SUBMIT_DROPPED_BATCH_SIZE order))
  change _ + 0 = s.batches + (Greedy.chunks SUBMIT_DROPPED_BATCH_SIZE order).length at hbatches
  constructor
  · exact Nat.zero_le _
  · intro hopen
    cases hclosed.symm.trans hopen
  · rintro (hopen | hne)
    · cases hclosed.symm.trans hopen
    · exact absurd rfl hne
  · change
      (s.setCleanup index (.sending (Greedy.chunks SUBMIT_DROPPED_BATCH_SIZE order))).batches ≤ _
    by_cases hnil : s.pending = []
    · rw [hnil] at hperm
      rw [hperm.eq_nil] at hlength hbatches ⊢
      have hbound := h.bound
      change _ = s.batches + 0 at hbatches
      omega
    · have hfresh := h.fresh (Or.inr hnil)
      have hcount : (Greedy.chunks SUBMIT_DROPPED_BATCH_SIZE order).length ≤
          divCeil windowSize SUBMIT_DROPPED_BATCH_SIZE := by
        have hwindow := h.window
        rw [hlength, hperm.length_eq]
        unfold divCeil SUBMIT_DROPPED_BATCH_SIZE
        split_ifs
        · omega
        · omega
      omega
  · exact h.held

theorem Fits.cleanupNext (h : s.Fits windowSize) {index : ℕ} {event : TeardownEvent}
    (hnext : s.cleanupNext index event = some s') : s'.Fits windowSize := by
  unfold EventSpool.cleanupNext at hnext
  cases event with
  | drain order =>
    dsimp only at hnext
    split at hnext
    · next hstage =>
      split_ifs at hnext with hperm
      cases hnext
      exact h.drain hstage hperm
    · cases hnext
  | takeBatch =>
    dsimp only at hnext
    split at hnext
    · next batch batches hstage =>
      cases hnext
      have hraised : (s.raiseDepth batch.length).Fits windowSize := h.keep rfl rfl rfl rfl h.held
      exact hraised.setCleanup hstage (Nat.le_refl _)
    · cases hnext
  | sendBatch =>
    dsimp only at hnext
    split at hnext
    · next batch batches hstage =>
      split at hnext
      · next t hput =>
        cases hnext
        -- The batch goes from the cleanup to the spool.
        have hsent := batches_trySend hput
        obtain ⟨spool, hspool, rfl⟩ := trySend_ok hput
        have hbatches := @batches_setCleanup _ _ { s with stream := { s.stream with spool } } _ _
          hstage (.sending batches)
        have hone : (EventSpoolItem.batch (batch.map .submitDropped)).isBatch.toNat = 1 := rfl
        rw [hone] at hsent
        change _ + (batches.length + 1) = _ + batches.length at hbatches
        exact h.shrink ⟨Nat.le_refl _, rfl, List.length_set, by omega⟩ h.held
      · cases hnext
        exact h
      · cases hnext
        have hcounted : ((s.lowerDepth batch.length).countDropped
            (batch.length + batches.flatten.length)).Fits windowSize :=
          h.keep rfl rfl rfl rfl h.held
        exact hcounted.setCleanup hstage (Nat.zero_le _)
    · cases hnext
  | giveUp =>
    dsimp only at hnext
    split at hnext
    · next batch batches hstage =>
      cases hnext
      have hcounted : ((s.lowerDepth batch.length).countDropped batch.length).Fits windowSize :=
        h.keep rfl rfl rfl rfl h.held
      exact hcounted.setCleanup hstage (Nat.le_succ _)
    · cases hnext
  | closeSpool =>
    dsimp only at hnext
    split at hnext
    · next hstage =>
      split_ifs at hnext
      cases hnext
      unfold EventSpool.closeEventSpool
      split_ifs
      · exact h.setCleanup hstage (Nat.le_refl _)
      · have hlocked : Fits windowSize { s with admission := .terminal, terminal := .locked } :=
          h.keep rfl rfl rfl rfl h.held
        exact hlocked.setCleanup hstage (Nat.le_refl _)
    · cases hnext
  | abort =>
    dsimp only at hnext
    split at hnext
    · next batch batches hstage =>
      cases hnext
      have hlowered : (s.lowerDepth batch.length).Fits windowSize := h.keep rfl rfl rfl rfl h.held
      exact hlowered.setCleanup hstage (Nat.zero_le _)
    · next hstage =>
      cases hnext
      exact h.setCleanup hstage (Nat.zero_le _)
    · cases hnext

theorem Fits.addCleanup (h : s.Fits windowSize) (hclosed : s.closed = true) :
    Fits windowSize { s with cleanups := s.cleanups ++ [.starting] } := by
  have hbatches : batches { s with cleanups := s.cleanups ++ [.starting] } = s.batches := by
    unfold batches
    rw [List.map_append, List.sum_append]
    rfl
  constructor
  · exact h.window
  · intro hopen
    cases hclosed.symm.trans hopen
  · intro hfresh
    rw [hbatches]
    exact h.fresh hfresh
  · rw [hbatches]
    exact h.bound
  · exact h.held

theorem Fits.sendTerminal (h : s.Fits windowSize) (reason : Option Error) :
    (s.sendTerminal reason).Fits windowSize := by
  unfold EventSpool.sendTerminal
  split
  · next hput => exact (h.put hput rfl).keep rfl rfl rfl rfl (h.put hput rfl).held
  · exact h
  · exact h.keep rfl rfl rfl rfl h.held

theorem Fits.ownedNext (h : s.Fits windowSize) {event : SpoolEvent}
    (hkeeps : s.keepsWindow windowSize event = true) (hnext : s.ownedNext event = some s') :
    s'.Fits windowSize := by
  cases ownedNext_move hnext with
  | emitEvent _ _ _ => exact h.enter rfl
  | reserveDeferredEvent _ _ => exact h.enter rfl
  | raise holder hholder _ =>
    refine h.keep rfl rfl rfl rfl ?_
    rintro _ ⟨⟩
    exact h.held holder hholder
  | send holder hholder _ => exact h.sendHolder hholder
  | publish _ _ _ hsettle => exact h.settleTicket hsettle
  | dropTicket _ _ hsettle => exact h.settleTicket hsettle
  | admitSubmit sequenceId hopen =>
    have hroom : s.pending.length < windowSize := of_decide_eq_true hkeeps
    refine ⟨?_, h.opened, fun _ => h.fresh (Or.inl hopen), h.bound, h.held⟩
    rw [List.length_append, List.length_singleton]
    exact hroom
  | settleSubmit sequenceId =>
    exact h.shrink ⟨List.length_erase_le, rfl, rfl, Nat.le_refl _⟩ h.held
  | finish hopen =>
    have hfresh := h.fresh (Or.inl hopen)
    have hclosing : Fits windowSize { s with closed := true } :=
      ⟨h.window, by rintro ⟨⟩, fun _ => hfresh, h.bound, h.held⟩
    exact hclosing.addCleanup rfl
  | fallback hclosed => exact h.addCleanup hclosed
  | cleanup _ _ _ hnext => exact h.cleanupNext hnext
  | sendTerminal reason _ => exact h.sendTerminal reason
  | still _ _ _ => exact h
  | emitDropped _ _ | beginEventDrain _ _ | sealed _ _ _ _ | takeReason _ _ =>
    exact h.keep rfl rfl rfl rfl h.held

theorem Fits.next (h : s.Fits windowSize) {event : SpoolEvent}
    (hkeeps : s.keepsWindow windowSize event = true) (hnext : s.next event = some s') :
    s'.Fits windowSize := by
  cases next_move hnext with
  | dropConnection _ => exact h.keep rfl rfl rfl rfl h.held
  | read _ hread =>
    obtain ⟨event, events, _, rfl⟩ := EventStream.next_read hread
    exact h.keep rfl rfl rfl rfl h.held
  | dropReceiver => exact h.keep rfl rfl rfl rfl h.held
  | backpressure _ _ _ hstream =>
    exact h.keep rfl rfl rfl (EventStream.dispatched hstream).sent h.held
  | dispatcher _ _ hstream =>
    exact h.keep rfl rfl rfl (EventStream.dispatched hstream).sent h.held
  | owned _ _ _ hnext => exact h.ownedNext hkeeps hnext

theorem fits_run {history : List SpoolEvent}
    (hrun : ((machine eventSpoolCapacity capacity).restrict
      fun s event => s.keepsWindow windowSize event = true).Run history s) : s.Fits windowSize := by
  refine hrun.invariant (I := fun _ s => s.Fits windowSize) ?_ ?_
  · rintro s rfl
    exact ⟨Nat.zero_le _, fun _ => rfl, fun _ => rfl, Nat.zero_le _, by rintro _ ⟨⟩⟩
  · rintro history s event s' h ⟨hnext, hkeeps⟩
    exact h.next hkeeps hnext

theorem remaining_length_le {stage : TeardownStage} (hmem : stage ∈ s.cleanups) :
    s.stream.spool.sent.countP EventSpoolItem.isBatch + stage.remaining.length ≤ s.batches := by
  have hle := List.single_le_sum (fun _ _ => Nat.zero_le _) _
    (List.mem_map_of_mem (f := fun stage => stage.remaining.length) hmem)
  unfold batches
  omega

theorem length_of_full {item : EventSpoolItem} (hfull : s.trySend item = .error .full) :
    eventSpoolCapacity + 2 ≤ s.stream.spool.queued.length := by
  unfold EventSpool.trySend Channel.trySend at hfull
  have hqueued := s.stream.spool.queued_length
  split_ifs at hfull with hclosed hroom
  · cases hfull
  · cases hfull
  · omega

/-- A spool made for the parameters has a slot for each batch of every cleanup that there is or was:
a batch that finds the spool full finds three items in it at least that are no batches. -/
theorem batches_fit {p : CmppProtocolParams} {history : List SpoolEvent}
    {s : EventSpool p.spoolCapacity capacity}
    (hrun : ((machine p.spoolCapacity capacity).restrict
      fun s event => s.keepsWindow p.windowSize event = true).Run history s) :
    s.batches ≤ divCeil p.windowSize SUBMIT_DROPPED_BATCH_SIZE ∧
      s.batches ≤ p.spoolCapacity ∧
      ∀ batch batches, .holding batch batches ∈ s.cleanups →
        s.trySend (.batch (batch.map .submitDropped)) = .error .full →
        3 ≤ s.stream.spool.queued.countP fun item => !item.isBatch := by
  have h := fits_run hrun
  have hle : s.batches ≤ p.spoolCapacity := h.bound.trans (Nat.le_max_right _ _)
  refine ⟨h.bound, hle, fun batch batches hmem hfull => ?_⟩
  have hleft := remaining_length_le hmem
  have hsent : s.stream.spool.queued.countP EventSpoolItem.isBatch ≤
      s.stream.spool.sent.countP EventSpoolItem.isBatch :=
    (List.drop_sublist _ _).countP_le
  have hone : (TeardownStage.holding batch batches).remaining.length = batches.length + 1 := rfl
  have hlength := length_of_full hfull
  have hsplit := List.length_eq_countP_add_countP EventSpoolItem.isBatch
    (l := s.stream.spool.queued)
  have hothers : s.stream.spool.queued.countP (fun item => !item.isBatch) =
      s.stream.spool.queued.countP fun item => ¬ item.isBatch = true := by
    congr 1
    funext item
    simp
  omega

def narrowParams : CmppProtocolParams :=
  { CmppProtocolParams.default with windowSize := 1, eventSpoolCapacity := 1 }

/-- Two events and the last item fill the spool, so that the batch of the first cleanup waits. -/
def waitingBehind : List SpoolEvent :=
  [.admitSubmit 7, .emitEvent (.submitDropped 1), .raise, .send, .emitEvent (.submitDropped 2),
    .raise, .send, .finish, .cleanup 0 (.drain [7]), .cleanup 0 .takeBatch, .fallback,
    .cleanup 1 (.drain []), .cleanup 1 .closeSpool, .takeReason none, .sendTerminal,
    .cleanup 0 .sendBatch]

theorem batches_fit_waiting : ∃ s : EventSpool narrowParams.spoolCapacity 2,
    ((machine narrowParams.spoolCapacity 2).restrict
      fun s event => s.keepsWindow narrowParams.windowSize event = true).Run waitingBehind s ∧
    s.batches ≤ 1 ∧ .holding [7] [] ∈ s.cleanups ∧
    3 ≤ s.stream.spool.queued.countP fun item => !item.isBatch := by
  have hexec : (Machine.exec (fun s e => if s.keepsWindow narrowParams.windowSize e then next s e
      else none) (initial narrowParams.spoolCapacity 2) waitingBehind).map
        (fun s => (s.cleanups, s.stream.spool.closed, s.stream.spool.sent.length,
          s.stream.spool.taken)) = some ([.holding [7] [], .ended], false, 3, 0) := by
    decide +kernel
  obtain ⟨s, hrun, hview⟩ := Machine.exists_run_restrict_of_exec _ hexec
  obtain ⟨hcleanups, hopen, hsent, htaken⟩ : _ ∧ _ ∧ _ ∧ _ := by
    simpa only [Prod.mk.injEq] using hview
  obtain ⟨hbound, _, hwaits⟩ := batches_fit hrun
  have hmem : .holding [7] [] ∈ s.cleanups := by
    rw [hcleanups]
    exact List.mem_cons_self
  have hfull : s.trySend (.batch ([7].map .submitDropped)) = .error .full := by
    unfold EventSpool.trySend Channel.trySend
    rw [if_neg (by rw [hopen]; decide), dif_neg (by rw [hsent, htaken]; decide)]
    rfl
  exact ⟨s, hrun, hbound, hmem, hwaits _ _ hmem hfull⟩

end EventSpool

end CmppProtocol
