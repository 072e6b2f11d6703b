import CmppProtocol.Connection.Owners
import CmppProtocol.Connection.Retransmission
import CmppProtocol.Connection.Writing

/-! # Draining before the close

The marker of a graceful close is the last in the line. When it is answered,
nothing stands before it and no batch is held, so that what is still pending was
written and waits for its response.
-/

namespace CmppProtocol

namespace Window

variable {config : ConnectionConfig} {w w' : Window} {x : ℕ}

/-- The SUBMIT waits for its response, if it is pending at all. -/
def Sent (w : Window) (x : ℕ) : Prop :=
  ∀ entry, w.pending.find x = some entry → ∃ attempt writtenAt,
    entry.state = .awaitingResponse attempt writtenAt

theorem sweep_claimEntry_barred (entry : Option PendingSubmit) (batch : List Outbound) :
    (Compaction.sweep (claimEntry false) entry batch).1 = entry := by
  induction batch with
  | nil => rfl
  | cons outbound batch ih =>
    cases hkey : outbound.submitAttempt with
    | none =>
      have hkeep : claimEntry false entry outbound = (true, entry) := by
        simp only [claimEntry, hkey]
      rw [Compaction.sweep_keep hkeep, ih]
    | some key =>
      have hskip : claimEntry false entry outbound = (false, entry) := by
        cases entry <;> simp [claimEntry, hkey]
      rw [Compaction.sweep_skip hskip, ih]

theorem completeEntry_awaiting {writtenAt : ℕ} {entry : PendingSubmit} {attempt t : ℕ}
    (h : entry.state = .awaitingResponse attempt t) (keys : List SubmitAttemptKey) :
    keys.foldl (completeEntry writtenAt) (some entry) = some entry := by
  induction keys with
  | nil => rfl
  | cons key keys ih =>
    have hsame : completeEntry writtenAt (some entry) key = some entry := by
      simp [completeEntry, h]
    rw [List.foldl_cons, hsame, ih]

theorem completeEntry_none (writtenAt : ℕ) (keys : List SubmitAttemptKey) :
    keys.foldl (completeEntry writtenAt) none = none := by
  induction keys with
  | nil => rfl
  | cons key keys ih => exact ih

/-- When nothing may be queued or claimed, what waits for its response stays so until it goes. -/
theorem Step.sent (hstep : Step config w w') (hphase : w.phase ≠ .opened)
    (hbarred : w.canSendSubmit = false) (h : w.Sent x) : w'.Sent x := by
  cases hstep with
  | admitSubmit admission entry hopen hnew hnone hsub hpacket hstate => exact absurd hopen hphase
  | retry key keys entry hopen hexpired hattempt hstill => exact absurd hopen hphase
  | claim batch rest hline hstatus hheld =>
    intro entry hfind
    have hown := claimSubmitAttempts_at w.pending w.canSendSubmit x batch
    have hfst := congrArg Prod.fst hown
    rw [hbarred, sweep_claimEntry_barred] at hfst
    change (claimSubmitAttempts w.canSendSubmit w.pending batch).1.find x = some entry at hfind
    rw [hbarred] at hfind
    exact h entry (hfst.trans hfind)
  | complete batch writtenAt hheld hstatus =>
    intro entry hfind
    change OrderedMap.find (completeSubmitAttempts _ _ _) x = some entry at hfind
    rw [completeSubmitAttempts_at] at hfind
    cases hentry : w.pending.find x with
    | none =>
      rw [hentry, completeEntry_none] at hfind
      cases hfind
    | some e =>
      obtain ⟨attempt, t, hstate⟩ := h e hentry
      rw [hentry, completeEntry_awaiting hstate] at hfind
      cases hfind
      exact ⟨attempt, t, hstate⟩
  | matchResps responses hemitting =>
    intro entry hfind
    have hown := matchSubmitResps_at w.pending x responses
    have hcases := (Life.sweep_matchEntry (w.pending.find x)
      (responses.filter fun r => r.sequenceId = x)).2
    rw [hown] at hcases
    rcases hcases with hsame | ⟨hnone, _⟩ | ⟨e, k, hentry, hstate, _⟩
    · exact h entry (hsame.symm.trans hfind)
    · exact absurd (hnone.symm.trans hfind) (Option.some_ne_none entry).symm
    · obtain ⟨attempt, t, hawaiting⟩ := h e hentry
      rw [hstate] at hawaiting
      cases hawaiting
  | giveUp key keys entry hexpired hattempt hstill =>
    intro entry hfind
    change OrderedMap.find (w.pending.erase key.sequenceId) x = some entry at hfind
    rw [OrderedMap.find_erase] at hfind
    split_ifs at hfind
    exact h entry hfind
  | drain index order hindex horder => exact fun entry hfind => by cases hfind
  | _ => exact h

/-- Nothing before the marker and no batch: what is pending was written. -/
theorem sent_of_drained (hlives : ∀ x, (w.life x).Inv config x) (hsendable : w.canSendSubmit = true)
    (hline : w.line = [.drainMarker]) (hheld : w.held = []) (x : ℕ) : w.Sent x := by
  intro entry hfind
  have hnoline : (w.life x).line = [] := by
    change w.line.filter (Outbound.carries x) = []
    rw [hline]
    exact filter_marker x
  have hnoheld : (w.life x).held = [] := by
    change w.held.filter (Outbound.carries x) = []
    rw [hheld]
    rfl
  rcases hlives x with h | ⟨a, n, _, h⟩
  · have hnone : w.pending.find x = none := h.entry
    rw [hnone] at hfind
    cases hfind
  · obtain ⟨_, _, hagrees⟩ := h.entry entry hfind
    cases hstate : entry.state with
    | queued k =>
      simp only [Life.Agrees, hstate] at hagrees
      have hqueued := hagrees.2.2 hsendable
      rw [hnoline] at hqueued
      cases hqueued
    | writing k =>
      simp only [Life.Agrees, hstate] at hagrees
      rw [hnoheld] at hagrees
      cases hagrees.2
    | respondedWhileWriting k =>
      simp only [Life.Agrees, hstate] at hagrees
      rw [hnoheld] at hagrees
      cases hagrees.2
    | awaitingResponse k t => exact ⟨k, t, rfl⟩

/-- How far the drain has come: the marker is the last in the line and stands there only while the
drain is on, unless it was cut off. -/
structure Drains (w : Window) : Prop where
  opened : w.phase = .opened → w.closer ≠ .marking ∧ .drainMarker ∉ w.line ∧ w.drained = false
  marking : w.closer = .marking → .drainMarker ∉ w.line ∧ w.drained = false
  last : .drainMarker ∉ w.line.dropLast
  uncut : w.drained = false → w.log.drainCut = false →
    .drainMarker ∈ w.line ∨ w.closer = .marking → w.phase = .closing ∧ w.draining = true
  drained : w.drained = true → w.draining = false ∧ ∀ x, w.Sent x

theorem Drains.marked (h : w.Drains) (hmem : .drainMarker ∈ w.line) : w.phase ≠ .opened :=
  fun hopen => (h.opened hopen).2.1 hmem

theorem Drains.drained_unopened (h : w.Drains) (hdrained : w.drained = true) :
    w.phase ≠ .opened := by
  intro hopen
  rw [(h.opened hopen).2.2] at hdrained
  cases hdrained

theorem Drains.barred (h : w.Drains) (hdrained : w.drained = true) : w.canSendSubmit = false := by
  rw [canSendSubmit, (h.drained hdrained).1, Bool.and_false, Bool.or_false]
  exact decide_eq_false (h.drained_unopened hdrained)

/-- The pending SUBMITs of a drained window after one more step. -/
theorem Drains.sent (h : w.Drains) (hstep : Step config w w')
    (hdrained : w.drained = true) (x : ℕ) :
    w'.Sent x :=
  hstep.sent (h.drained_unopened hdrained) (h.barred hdrained) ((h.drained hdrained).2 x)

theorem marker_ne_submit (packet : List UInt8) (key : SubmitAttemptKey) :
    Outbound.drainMarker ≠ .submit packet key := by
  intro h
  cases congrArg Outbound.submitDrainMarker h

/-- A SUBMIT is queued while the connection is open. -/
theorem Drains.enqueue (h : w.Drains) (hopen : w.phase = .opened)
    (hcloser : w'.closer = w.closer) {packet : List UInt8} {key : SubmitAttemptKey}
    (hline : w'.line = w.line ++ [.submit packet key]) (hdrained : w'.drained = w.drained) :
    w'.Drains := by
  obtain ⟨hidle, hmarker, hnot⟩ := h.opened hopen
  have hidle' : w'.closer ≠ .marking := hcloser ▸ hidle
  have hmarker' : .drainMarker ∉ w'.line := by
    rw [hline, List.mem_append, List.mem_singleton]
    exact fun hmem => hmem.elim hmarker (marker_ne_submit packet key)
  have hnot' : w'.drained = false := hdrained.trans hnot
  constructor
  · exact fun _ => ⟨hidle', hmarker', hnot'⟩
  · exact fun hmarking => absurd hmarking hidle'
  · rw [hline, List.dropLast_concat]
    exact hmarker
  · exact fun _ _ hmarked => absurd hmarked (not_or.mpr ⟨hmarker', hidle'⟩)
  · intro hd
    rw [hnot'] at hd
    cases hd

theorem mem_dropLast_of_tail {α : Type*} {a b : α} {xs : List α} (h : b ∈ xs.dropLast) :
    b ∈ (a :: xs).dropLast := by
  cases xs with
  | nil => cases h
  | cons c cs => exact List.mem_cons_of_mem _ h

/-- Closing the connection cuts the drain off, unless it was closed already. -/
theorem Drains.shut (h : w.Drains) (closer : CloserStage)
    (hcloser : closer = .marking → w.closer = .marking) :
    Drains { w with
      phase := .closed
      closer
      log := { w.log with drainCut := w.log.drainCut || w.phase ≠ .closed } } := by
  refine { h with
    opened := nofun
    marking := fun hmarking => h.marking (hcloser hmarking)
    uncut := fun hd hcut hmarked => ?_ }
  obtain ⟨hcut, hclosed⟩ := Bool.or_eq_false_iff.mp hcut
  obtain ⟨hclosing, _⟩ := h.uncut hd hcut (hmarked.imp_right hcloser)
  simp [hclosing] at hclosed

theorem Drains.finishStores (h : w.Drains) (hclosed : w.phase = .closed) :
    Drains { w with draining := false, cleanups := w.cleanups ++ [.starting] } := by
  refine { h with
    uncut := fun hd hcut hmarked => ?_
    drained := fun hd => ⟨rfl, (h.drained hd).2⟩ }
  obtain ⟨hclosing, _⟩ := h.uncut hd hcut hmarked
  rw [hclosed] at hclosing
  cases hclosing

theorem Drains.beginClosing (h : w.Drains) (hopen : w.phase = .opened) {draining : Bool}
    {closer : CloserStage}
    (hcloser : closer = w.closer ∨ w.closer = .idle ∧ closer = .marking ∧ draining = true) :
    Drains { w with phase := .closing, draining, closer } := by
  obtain ⟨hidle, hline, hdrained⟩ := h.opened hopen
  have hmarking : closer = .marking → draining = true := by
    rcases hcloser with rfl | ⟨_, _, hdraining⟩
    · exact fun hmarking => absurd hmarking hidle
    · exact fun _ => hdraining
  refine { h with
    opened := nofun
    marking := fun _ => ⟨hline, hdrained⟩
    uncut := fun _ _ hmarked => ⟨rfl, hmarked.elim (fun hmem => absurd hmem hline) hmarking⟩
    drained := fun hd => ?_ }
  rw [hdrained] at hd
  cases hd

theorem Drains.cutDrain (h : w.Drains) {closer : CloserStage}
    (hcloser : closer = w.closer ∨ closer = .cleared) :
    Drains { w with draining := false, closer, log := { w.log with drainCut := true } } := by
  have hmarks : closer = .marking → w.closer = .marking := by
    rcases hcloser with rfl | rfl
    · exact id
    · exact nofun
  exact { h with
    opened := fun hopen =>
      ⟨fun hmarking => (h.opened hopen).1 (hmarks hmarking), (h.opened hopen).2⟩
    marking := fun hmarking => h.marking (hmarks hmarking)
    uncut := nofun
    drained := fun hd => ⟨rfl, (h.drained hd).2⟩ }

/-- The one marker goes behind everything that is in the line. -/
theorem Drains.mark (h : w.Drains) (hmarking : w.closer = .marking) :
    Drains { w with line := w.line ++ [.drainMarker], closer := .awaitingMarker } := by
  obtain ⟨hline, hdrained⟩ := h.marking hmarking
  refine { h with
    opened := fun hopen => absurd hmarking (h.opened hopen).1
    marking := nofun
    last := ?_
    uncut := fun hd hcut _ => h.uncut hd hcut (Or.inr hmarking) }
  rw [List.dropLast_concat]
  exact hline

/-- What is claimed comes off the front of the line. -/
theorem Drains.shorten (h : w.Drains) {batch rest : List Outbound} (hline : w.line = batch ++ rest)
    (hphase : w'.phase = w.phase) (hcloser : w'.closer = w.closer) (hrest : w'.line = rest)
    (hdraining : w'.draining = w.draining) (hdrained : w'.drained = w.drained)
    (hcut : w'.log.drainCut = w.log.drainCut) (hsent : w.drained = true → ∀ x, w'.Sent x) :
    w'.Drains := by
  have hmem : .drainMarker ∈ w'.line → .drainMarker ∈ w.line := by
    rw [hline, hrest]
    exact List.mem_append_right _
  constructor
  · rw [hphase, hcloser, hdrained]
    intro hopen
    obtain ⟨hidle, hnot, hundrained⟩ := h.opened hopen
    exact ⟨hidle, fun hin => hnot (hmem hin), hundrained⟩
  · rw [hcloser, hdrained]
    intro hmarking
    obtain ⟨hnot, hundrained⟩ := h.marking hmarking
    exact ⟨fun hin => hnot (hmem hin), hundrained⟩
  · intro hlast
    apply h.last
    have hne : rest ≠ [] := by
      rintro rfl
      rw [hrest] at hlast
      cases hlast
    rw [hline, List.dropLast_append_of_ne_nil hne]
    exact List.mem_append_right _ (hrest ▸ hlast)
  · rw [hphase, hcloser, hdraining, hdrained, hcut]
    exact fun hd hcut hmarked => h.uncut hd hcut (hmarked.imp_left hmem)
  · rw [hdraining, hdrained]
    exact fun hd => ⟨(h.drained hd).1, hsent hd⟩

/-- The marker is seen with no batch on its way: all that was queued before it has been sent. -/
theorem Drains.endDrain (h : w.Drains) (hlives : ∀ x, (w.life x).Inv config x)
    (huncut : w.drained = false → w.log.drainCut = false) {rest : List Outbound}
    (hline : w.line = .drainMarker :: rest) (hheld : w.held = []) :
    Drains { w with draining := false, drained := true } := by
  have hmem : .drainMarker ∈ w.line := hline ▸ List.mem_cons_self
  have hrest : rest = [] := by
    cases rest with
    | nil => rfl
    | cons outbound rest =>
      have hlast := h.last
      rw [hline] at hlast
      exact absurd List.mem_cons_self hlast
  have hidle : w.closer ≠ .marking := fun hmarking => (h.marking hmarking).1 hmem
  refine { h with
    opened := fun hopen => absurd hopen (h.marked hmem)
    marking := fun hmarking => absurd hmarking hidle
    uncut := nofun
    drained := fun _ => ⟨rfl, ?_⟩ }
  cases hdrained : w.drained with
  | true => exact (h.drained hdrained).2
  | false =>
    obtain ⟨hclosing, hdraining⟩ := h.uncut hdrained (huncut hdrained) (Or.inl hmem)
    have hsendable : w.canSendSubmit = true := by
      rw [canSendSubmit, hclosing, hdraining]
      rfl
    have hsent := sent_of_drained hlives hsendable (hrest ▸ hline) hheld
    exact hsent

theorem Drains.answer (h : w.Drains) {rest : List Outbound}
    (hline : w.line = .drainMarker :: rest) (hdrained : w.drained = true) :
    Drains { w with line := rest } := by
  have hmem : .drainMarker ∈ w.line := hline ▸ List.mem_cons_self
  refine { h with
    opened := fun hopen => absurd hopen (h.marked hmem)
    marking := fun hmarking => absurd hmem (h.marking hmarking).1
    last := fun hlast => h.last ?_
    uncut := fun hd => ?_ }
  · rw [hline]
    exact mem_dropLast_of_tail hlast
  · rw [hdrained] at hd
    cases hd

theorem Step.drains (hstep : Step config w w') (hlives : ∀ x, (w.life x).Inv config x)
    (huncut : w.drained = false → w'.drained = true → w.log.drainCut = false) (h : w.Drains) :
    w'.Drains := by
  have hsent := fun hdrained => h.sent hstep hdrained
  cases hstep with
  | finish => exact h.shut w.closer id
  | finishStores hclosed => exact h.finishStores hclosed
  | beginClosing draining closer hopen hcloser => exact h.beginClosing hopen hcloser
  | cutDrain closer hcloser => exact h.cutDrain hcloser
  | closer closer h₁ h₂ h₃ =>
    exact { h with
      opened := fun hopen => ⟨h₂, (h.opened hopen).2⟩
      marking := fun hmarking => absurd hmarking h₂
      uncut := fun hd hcut hmarked => h.uncut hd hcut (Or.inl (hmarked.resolve_right h₂)) }
  | closeLast closer h₁ h₂ h₃ => exact h.shut closer fun hmarking => absurd hmarking h₂
  | marker hmarking => exact h.mark hmarking
  | admitSubmit admission entry hopen hnew hnone hsub hpacket hstate =>
    exact h.enqueue hopen rfl rfl rfl
  | claim batch rest hline hstatus hheld => exact h.shorten hline rfl rfl rfl rfl rfl rfl hsent
  | endDrain rest hline hheld =>
    exact h.endDrain hlives (fun hdrained => huncut hdrained rfl) hline hheld
  | answer rest hline hdrained => exact h.answer hline hdrained
  | retry key keys entry hopen hexpired hattempt hstill =>
    exact h.enqueue hopen rfl rfl rfl
  | _ => exact { h with drained := fun hd => ⟨(h.drained hd).1, hsent hd⟩ }

/-- Nothing is accepted once the connection is not open. -/
theorem Step.unopened (hstep : Step config w w') (h : w.phase ≠ .opened) :
    w'.phase ≠ .opened ∧ w'.log.admissions = w.log.admissions ∧
      w'.log.enqueued = w.log.enqueued := by
  cases hstep with
  | finish => exact ⟨nofun, rfl, rfl⟩
  | beginClosing draining closer hopen hcloser => exact absurd hopen h
  | closeLast closer h₁ h₂ h₃ => exact ⟨nofun, rfl, rfl⟩
  | admitSubmit admission entry hopen hnew hnone hsub hpacket hstate => exact absurd hopen h
  | retry key keys entry hopen hexpired hattempt hstill => exact absurd hopen h
  | _ => exact ⟨h, rfl, rfl⟩

/-- The SUBMIT has been answered or given up. -/
def Concluded (w : Window) (x : ℕ) : Prop :=
  x ∈ w.log.responded ∨ x ∈ w.emitting.map SubmitResponse.sequenceId ∨ x ∈ w.log.timedOut

/-- Every attempt that was queued has been written, or its SUBMIT is concluded. -/
def Delivered (w : Window) : Prop :=
  ∀ key queuedAt, (key, queuedAt) ∈ w.log.enqueued →
    (∃ packet writtenAt, (.submit packet key, writtenAt) ∈ w.log.written) ∨
      w.Concluded key.sequenceId

/-- While the drain is not cut off the connection is not closed, and nothing is dropped. -/
def Undropped (w : Window) : Prop :=
  w.log.drainCut = false → w.phase ≠ .closed ∧ w.cleanups = [] ∧ w.log.drained = []

theorem Step.concluded (hstep : Step config w w') (h : w.Concluded x) : w'.Concluded x := by
  cases hstep with
  | matchResps responses hemitting =>
    rcases h with hresponded | hmem | htimedOut
    · exact Or.inl hresponded
    · rw [hemitting] at hmem
      cases hmem
    · exact Or.inr (Or.inr htimedOut)
  | emitResp response emitting sent hemitting =>
    rcases h with hresponded | hmem | htimedOut
    · exact Or.inl (List.mem_append_left _ hresponded)
    · rw [hemitting, List.map_cons, List.mem_cons] at hmem
      rcases hmem with rfl | hmem
      · exact Or.inl (List.mem_append_right _ (List.mem_singleton_self _))
      · exact Or.inr (Or.inl hmem)
    · exact Or.inr (Or.inr htimedOut)
  | giveUp key keys entry hexpired hattempt hstill =>
    exact h.imp_right fun h => h.imp_right (List.mem_append_left _)
  | _ => exact h

theorem Step.written (hstep : Step config w w') {p : Outbound × ℕ} (h : p ∈ w.log.written) :
    p ∈ w'.log.written := by
  cases hstep with
  | write batch hheld hstatus => exact List.mem_append_left _ h
  | _ => exact h

theorem Undropped.cut (h : w.Undropped) {index : ℕ} {stage : CleanupStage}
    (hindex : w.cleanups[index]? = some stage) : w.log.drainCut ≠ false := by
  intro hcut
  rw [(h hcut).2.1] at hindex
  cases hindex

/-- What ends the connection cuts the drain off first. -/
theorem Step.undropped (hstep : Step config w w') (h : w.Undropped) : w'.Undropped := by
  cases hstep with
  | finish =>
    intro hcut
    obtain ⟨hcut, hclosed⟩ := Bool.or_eq_false_iff.mp hcut
    exact absurd (not_not.mp (of_decide_eq_false hclosed)) (h hcut).1
  | finishStores hclosed => exact fun hcut => absurd hclosed (h hcut).1
  | beginClosing draining closer hopen hcloser => exact fun hcut => ⟨nofun, (h hcut).2⟩
  | cutDrain closer hcloser => exact nofun
  | closeLast closer h₁ h₂ h₃ =>
    intro hcut
    obtain ⟨hcut, hclosed⟩ := Bool.or_eq_false_iff.mp hcut
    exact absurd (not_not.mp (of_decide_eq_false hclosed)) (h hcut).1
  | startCleanup hclosed => exact fun hcut => absurd hclosed (h hcut).1
  | drain index order hindex horder => exact fun hcut => absurd hcut (h.cut hindex)
  | sendDropped index batch batches sent hindex => exact fun hcut => absurd hcut (h.cut hindex)
  | endCleanup index stage stage' hindex h₁ h₂ h₃ => exact fun hcut => absurd hcut (h.cut hindex)
  | _ => exact h

/-- What was queued and has no outcome was written if nothing is left to be sent. -/
theorem written_of_sent (hlives : ∀ x, (w.life x).Inv config x) {key : SubmitAttemptKey}
    {queuedAt : ℕ} (hmem : (key, queuedAt) ∈ w.log.enqueued) (hsent : w.Sent key.sequenceId) :
    (∃ packet writtenAt, (.submit packet key, writtenAt) ∈ w.log.written) ∨
      key.sequenceId ∈ w.log.responded ∨
      key.sequenceId ∈ w.emitting.map SubmitResponse.sequenceId ∨
      key.sequenceId ∈ w.log.timedOut ∨ key.sequenceId ∈ w.log.drained := by
  have hqueued : (key, queuedAt) ∈ (w.life key.sequenceId).enqueued :=
    List.mem_filter.mpr ⟨hmem, decide_eq_true rfl⟩
  rcases hlives key.sequenceId with h | ⟨a, n, _, h⟩
  · rw [h.enqueued] at hqueued
    cases hqueued
  cases hentry : w.pending.find key.sequenceId with
  | some entry =>
    left
    obtain ⟨attempt, t, hstate⟩ := hsent entry hentry
    obtain ⟨_, _, hagrees⟩ := h.entry entry hentry
    simp only [Life.Agrees, hstate] at hagrees
    have hkey : key ∈ (List.range' 1 n.queued).map a.key := by
      rw [← h.enqueued]
      exact List.mem_map_of_mem hqueued
    obtain ⟨k, hk, rfl⟩ := List.mem_map.mp hkey
    have hframe : a.frame k ∈ (w.life (a.key k).sequenceId).written.map Prod.fst := by
      rw [h.written, hagrees.2.1]
      exact List.mem_map_of_mem hk
    obtain ⟨⟨outbound, writtenAt⟩, hwritten, houtbound⟩ := List.mem_map.mp hframe
    cases houtbound
    exact ⟨a.packet, writtenAt, (List.mem_filter.mp hwritten).1⟩
  | none =>
    right
    have houtcome := h.outcome
    have hlive : Life.live (w.life key.sequenceId).entry = 0 := by
      change Life.live (w.pending.find key.sequenceId) = 0
      rw [hentry]
      rfl
    by_contra hnot
    simp only [not_or] at hnot
    obtain ⟨hresponded, hemitting, htimedOut, hdrained⟩ := hnot
    have h₁ : (w.life key.sequenceId).responded = 0 := List.count_eq_zero.mpr hresponded
    have h₂ : (w.life key.sequenceId).timedOut = 0 := List.count_eq_zero.mpr htimedOut
    have h₃ : (w.life key.sequenceId).drained = 0 := List.count_eq_zero.mpr hdrained
    have h₄ : (w.life key.sequenceId).emitting = 0 := by
      refine List.length_eq_zero_iff.mpr (List.filter_eq_nil_iff.mpr fun r hr hx => ?_)
      exact hemitting (List.mem_map.mpr ⟨r, hr, of_decide_eq_true hx⟩)
    omega

/-- From the end of the drain on every attempt is delivered. -/
theorem Step.delivered (hstep : Step config w w') (hlives : ∀ x, (w'.life x).Inv config x)
    (hdrains : w.Drains) (hdrains' : w'.Drains) (hundropped : w.Undropped)
    (huncut : w.drained = false → w'.drained = true → w.log.drainCut = false)
    (h : w.drained = true → w.Delivered) (hdrained' : w'.drained = true) : w'.Delivered := by
  intro key queuedAt hmem
  cases hdrained : w.drained with
  | true =>
    obtain ⟨_, _, henqueued⟩ := hstep.unopened (hdrains.drained_unopened hdrained)
    rw [henqueued] at hmem
    rcases h hdrained key queuedAt hmem with ⟨packet, writtenAt, hwritten⟩ | hconcluded
    · exact Or.inl ⟨packet, writtenAt, hstep.written hwritten⟩
    · exact Or.inr (hstep.concluded hconcluded)
  | false =>
    have hnone : w.log.drained = [] := (hundropped (huncut hdrained hdrained')).2.2
    have hsent := (hdrains'.drained hdrained').2 key.sequenceId
    have houtcome := written_of_sent hlives hmem hsent
    cases hstep with
    | endDrain rest hline hheld =>
      rcases houtcome with hwritten | hresponded | hemitting | htimedOut | hdropped
      · exact Or.inl hwritten
      · exact Or.inr (Or.inl hresponded)
      · exact Or.inr (Or.inr (Or.inl hemitting))
      · exact Or.inr (Or.inr (Or.inr htimedOut))
      · have hdropped : key.sequenceId ∈ w.log.drained := hdropped
        rw [hnone] at hdropped
        cases hdropped
    | _ => cases hdrained.symm.trans hdrained'

end Window

namespace Connection

variable {gbk : Gbk} {config : ConnectionConfig} {s s' : Connection}

/-- The marker is not answered after the drain was cut off. -/
def answersUncut (s : Connection) : ConnectionEvent → Bool
  | .writer .advance => s.writer.stage ≠ .answering || !s.log.drainCut
  | _ => true

theorem window_drained_of_owned {t : Connection} (hwriter : t.writer = s.writer)
    (hsignalled : t.signalled = s.signalled) : t.window.drained = s.window.drained := by
  simp only [window, hwriter, hsignalled]

/-- The writer does not come to signal the marker, and does not signal it. -/
def Unanswered (s s' : Connection) : Prop :=
  s'.writer.stage ≠ .signallingMarker ∧
    (WrittenTx.drainMarker ∈ s'.signalled → WrittenTx.drainMarker ∈ s.signalled)

theorem unanswered_move (hw : s.Wired config) {event : WriterEvent} (h : WriterMove s event s')
    (hanswering : s.writer.stage ≠ .answering)
    (hsignalling : s.writer.stage ≠ .signallingMarker) : s.Unanswered s' := by
  cases h with
  | answer hstage => exact absurd hstage hanswering
  | signalMarker hstage => exact absurd hstage hsignalling
  | signal writtenTx rest hstage =>
    have hstaged := hw.writer.stage
    rw [Writer.Staged, hstage] at hstaged
    refine ⟨by rintro ⟨⟩, fun hmem => ?_⟩
    rcases List.mem_append.mp hmem with hmem | hmem
    · exact hmem
    · exact absurd (Option.mem_toList.mp hmem) hstaged.2.1
  | fail writer outbound hhand hstatus hbatch hfailing =>
    exact ⟨fun hstage => (by cases hfailing.symm.trans hstage), id⟩
  | dropBatch hstage hbatch => exact ⟨s.afterBatch_stage.2, id⟩
  | endBatch hstage => exact ⟨s.afterBatch_stage.2, id⟩
  | giveUp hstage =>
    rw [finish_eq]
    exact ⟨by rintro ⟨⟩, id⟩
  | _ => exact ⟨by rintro ⟨⟩, id⟩

theorem drained_writerNext (hw : s.Wired config) {event : WriterEvent}
    (h : s.writerNext config event = some s') (hbefore : s.window.drained = false)
    (hafter : s'.window.drained = true) : event = .advance ∧ s.writer.stage = .answering := by
  obtain ⟨hsignalling, hsignalled⟩ := Bool.or_eq_false_iff.mp hbefore
  have hno : ¬ s.Unanswered s' := by
    rintro ⟨hstage, hsame⟩
    rcases Bool.or_eq_true_iff.mp hafter with hstage' | hmem
    · exact hstage (of_decide_eq_true hstage')
    · exact of_decide_eq_false hsignalled (hsame (of_decide_eq_true hmem))
  cases event with
  | advance =>
    refine ⟨rfl, ?_⟩
    by_contra hanswering
    exact hno (unanswered_move hw (writerAdvance_move h) hanswering
      (of_decide_eq_false hsignalling))
  | _ =>
    simp only [writerNext] at h
    repeat' split at h
    all_goals cases h
    all_goals exact absurd ⟨by rintro ⟨⟩, id⟩ hno

/-- Only the writer ends the drain, when it comes to answer the marker. -/
theorem drained_next (hw : s.Wired config) {event : ConnectionEvent}
    (h : next gbk config s event = some s')
    (hbefore : s.window.drained = false) (hafter : s'.window.drained = true) :
    event = .writer .advance ∧ s.writer.stage = .answering := by
  have howned := next_owned h
  cases event with
  | writer event =>
    obtain ⟨rfl, hstage⟩ := drained_writerNext hw h hbefore hafter
    exact ⟨rfl, hstage⟩
  | _ =>
    have hsame := window_drained_of_owned (congrArg Owned.writer howned)
      (congrArg Owned.signalled howned)
    rw [hsame, hbefore] at hafter
    cases hafter

/-- The SUBMIT has been answered or given up. -/
def Concluded (s : Connection) (x : ℕ) : Prop :=
  x ∈ s.log.responded ∨ x ∈ s.reader.emitting.map SubmitResponse.sequenceId ∨ x ∈ s.log.timedOut

/-- The window while it is drained. -/
structure Graceful (config : ConnectionConfig) (s : Connection) : Prop where
  sound : s.Sound config
  drains : s.window.Drains
  undropped : s.window.Undropped
  delivered : s.window.drained = true → s.window.Delivered

theorem Graceful.next (h : s.Graceful config) {event : ConnectionEvent}
    (hnext : Connection.next gbk config s event = some s')
    (huncut : s.answersUncut event = true) : s'.Graceful config := by
  have hsound := h.sound.next hnext
  rcases (follows_next h.sound.wired h.sound.ledger hnext).window with hsame | hstep
  · refine ⟨hsound, ?_, ?_, ?_⟩
    · exact hsame ▸ h.drains
    · exact hsame ▸ h.undropped
    · exact hsame ▸ h.delivered
  · have hcut : s.window.drained = false → s'.window.drained = true →
        s.window.log.drainCut = false := by
      intro hbefore hafter
      obtain ⟨rfl, hstage⟩ := drained_next h.sound.wired hnext hbefore hafter
      have hcut : s.log.drainCut = false := by
        simpa [answersUncut, hstage] using huncut
      exact hcut
    have hdrains := hstep.drains h.sound.lives hcut h.drains
    refine ⟨hsound, hdrains, hstep.undropped h.undropped, ?_⟩
    exact hstep.delivered hsound.lives h.drains hdrains h.undropped hcut h.delivered

end Connection

end CmppProtocol
