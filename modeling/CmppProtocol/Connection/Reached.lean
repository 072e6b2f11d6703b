import CmppProtocol.Connection.Refinement

/-! # What holds in every reachable state

The invariants of the holdings, of the wiring and of the window together, and
the run lemma for them.
-/

namespace CmppProtocol

namespace Window

variable {config : ConnectionConfig} {w w' : Window}

/-- The counters count the log, and a drained map stays empty. -/
structure Tallied (w : Window) : Prop where
  admitted : w.metrics.submitsAdmitted = w.log.admissions.length
  responded : w.metrics.submitResponses = w.log.responded.length
  timedOut : w.metrics.submitTimeouts = w.log.timedOut.length
  lost : w.log.lost.length ≤ w.metrics.eventsDropped
  closed : w.cleanups ≠ [] → w.phase = .closed
  empty : swept w.cleanups = true → ∀ p, p ∉ w.pending

theorem cleanups_of_swept {cleanups : List CleanupStage} (h : swept cleanups = true) :
    cleanups ≠ [] := by
  rintro rfl
  cases h

theorem Tallied.opened (h : w.Tallied) (hphase : w.phase = .opened) : swept w.cleanups = false := by
  cases hswept : swept w.cleanups with
  | false => rfl
  | true =>
    have hclosed := h.closed (cleanups_of_swept hswept)
    rw [hphase] at hclosed
    cases hclosed

/-- Entries may leave the map. -/
theorem Tallied.shrinks (h : w.Tallied) {pending : PendingSubmits}
    (hshrinks : Shrinks w.pending pending) (hswept : swept w.cleanups = true) :
    ∀ p, p ∉ pending := by
  intro p hp
  obtain ⟨q, hq, _⟩ := hshrinks p hp
  exact h.empty hswept q hq

theorem ne_nil_of_getElem? {α : Type*} {xs : List α} {i : ℕ} {a : α} (h : xs[i]? = some a) :
    xs ≠ [] := by
  rintro rfl
  cases h

theorem Step.tallied (hstep : Step config w w') (h : w.Tallied) : w'.Tallied := by
  cases hstep with
  | clock duration => exact { h with }
  | finish => exact { h with closed := fun _ => rfl }
  | finishStores hclosed =>
    exact { h with
      closed := fun _ => hclosed
      empty := fun hswept => h.empty (swept_starting w.cleanups ▸ hswept) }
  | beginClosing draining closer hopen hcloser =>
    refine { h with closed := fun hne => ?_ }
    have hclosed := h.closed hne
    rw [hopen] at hclosed
    cases hclosed
  | cutDrain closer hcloser => exact { h with }
  | closer closer h₁ h₂ h₃ => exact { h with }
  | closeLast closer h₁ h₂ h₃ => exact { h with closed := fun _ => rfl }
  | marker hmarking => exact { h with }
  | admitSubmit admission entry hopen hnew hnone hsub hpacket hstate =>
    refine { h with admitted := ?_, empty := fun hswept => ?_ }
    · rw [List.length_append, h.admitted]
      rfl
    · rw [h.opened hopen] at hswept
      cases hswept
  | claim batch rest hline hstatus hheld =>
    exact { h with empty := h.shrinks (claimSubmitAttempts_restates batch).2 }
  | rest hheld => exact { h with }
  | hand batch hheld hstatus => exact { h with }
  | write batch hheld hstatus => exact { h with }
  | complete batch writtenAt hheld hstatus =>
    exact { h with empty := h.shrinks (completeSubmitAttempts_shrinks _ _ _) }
  | endDrain rest hline hheld => exact { h with }
  | answer rest hline hdrained => exact { h with }
  | matchResps responses hemitting =>
    exact { h with empty := h.shrinks (matchSubmitResps_shrinks responses) }
  | emitResp response emitting sent hemitting =>
    refine { h with responded := ?_, lost := ?_ }
    · rw [List.length_append, ← h.responded]
      rfl
    · have hlost := h.lost
      cases sent with
      | true => exact hlost
      | false =>
        simp only [Bool.false_eq_true, if_false, List.length_append, List.length_singleton]
        omega
  | attend now expired hnow hexpired => exact { h with }
  | scan => exact { h with }
  | giveUpLost key keys hexpired => exact { h with lost := h.lost.trans (Nat.le_succ _) }
  | giveUp key keys entry hexpired hattempt hstill =>
    refine { h with timedOut := ?_, empty := h.shrinks (shrinks_erase _ _) }
    rw [List.length_append, ← h.timedOut]
    rfl
  | retry key keys entry hopen hexpired hattempt hstill =>
    refine { h with empty := fun hswept => ?_ }
    rw [h.opened hopen] at hswept
    cases hswept
  | startCleanup hclosed =>
    exact { h with
      closed := fun _ => hclosed
      empty := fun hswept => h.empty (swept_starting w.cleanups ▸ hswept) }
  | drain index order hindex horder =>
    exact { h with
      closed := fun _ => h.closed (ne_nil_of_getElem? hindex)
      empty := fun _ _ => OrderedMap.not_mem_empty }
  | sendDropped index batch batches sent hindex =>
    refine { h with
      lost := ?_
      closed := fun _ => h.closed (ne_nil_of_getElem? hindex)
      empty := fun _ => h.empty (swept_of_ne hindex nofun) }
    have hlost := h.lost
    cases sent with
    | true => exact hlost
    | false =>
      simp only [Bool.false_eq_true, if_false, List.length_append]
      omega
  | endCleanup index stage stage' hindex hstart hstart' hbatches =>
    exact { h with
      closed := fun _ => h.closed (ne_nil_of_getElem? hindex)
      empty := fun _ => h.empty (swept_of_ne hindex hstart) }

theorem Step.closed (hstep : Step config w w') (h : w.phase = .closed) : w'.phase = .closed := by
  cases hstep with
  | finish => rfl
  | closeLast closer h₁ h₂ h₃ => rfl
  | beginClosing draining closer hopen hcloser =>
    rw [h] at hopen
    cases hopen
  | _ => exact h

theorem Step.opened (hstep : Step config w w') (h : w'.phase = .opened) : w.phase = .opened := by
  cases hstep with
  | finish => cases h
  | closeLast closer h₁ h₂ h₃ => cases h
  | beginClosing draining closer hopen hcloser => cases h
  | _ => exact h

/-- The permission to send is not given again. -/
theorem Step.barred (hstep : Step config w w') (h : w.canSendSubmit = false) :
    w'.canSendSubmit = false := by
  have hphase : w.phase ≠ .opened := by
    intro hopen
    rw [canSendSubmit_of_opened hopen] at h
    cases h
  cases hstep with
  | beginClosing draining closer hopen hcloser => exact absurd hopen hphase
  | finishStores hclosed => simp [canSendSubmit, hclosed]
  | cutDrain closer hcloser => simpa [canSendSubmit] using hphase
  | endDrain rest hline hheld => simpa [canSendSubmit] using hphase
  | finish => rfl
  | closeLast closer h₁ h₂ h₃ => rfl
  | _ => exact h

end Window

namespace Connection

variable {gbk : Gbk} {config : ConnectionConfig} {s s' : Connection}

structure Sound (config : ConnectionConfig) (s : Connection) : Prop where
  ledger : Ledger config s.holdings
  wired : s.Wired config
  lives : ∀ x, (s.window.life x).Inv config x
  tallied : s.window.Tallied

theorem sound_initial (config : ConnectionConfig) (clock : ℕ) (udhCounter : UInt32) :
    (initial config clock udhCounter).Sound config where
  ledger := ledger_initial config clock udhCounter
  wired := wired_initial config clock udhCounter
  lives := fun _ => Or.inl ⟨rfl, rfl, rfl, rfl, rfl, rfl, rfl, rfl, rfl, rfl,
    ⟨rfl, rfl, rfl, rfl, rfl, rfl⟩, Nat.zero_le _⟩
  tallied := ⟨rfl, rfl, rfl, le_rfl, fun h => absurd rfl h, nofun⟩

theorem Sound.next (h : s.Sound config) {event : ConnectionEvent}
    (hnext : next gbk config s event = some s') : s'.Sound config := by
  have hfollows := follows_next h.wired h.ledger hnext
  refine ⟨ledger_next h.ledger hnext, hfollows.wired, ?_, ?_⟩
  · rcases hfollows.window with hsame | hstep
    · rw [hsame]
      exact h.lives
    · exact hstep.lives h.lives
  · rcases hfollows.window with hsame | hstep
    · rw [hsame]
      exact h.tallied
    · exact hstep.tallied h.tallied

theorem Sound.opened_of_next (hsound : s.Sound config) {event : ConnectionEvent}
    (hnext : Connection.next gbk config s event = some s') (h : s'.phase = .opened) :
    s.phase = .opened := by
  rcases (follows_next hsound.wired hsound.ledger hnext).window with hsame | hstep
  · exact (congrArg Window.phase hsame).symm.trans h
  · exact hstep.opened h

theorem Sound.closed_of_next (hsound : s.Sound config) {event : ConnectionEvent}
    (hnext : Connection.next gbk config s event = some s') (h : s.phase = .closed) :
    s'.phase = .closed := by
  rcases (follows_next hsound.wired hsound.ledger hnext).window with hsame | hstep
  · exact (congrArg Window.phase hsame).trans h
  · exact hstep.closed h

theorem Sound.barred_of_next (hsound : s.Sound config) {event : ConnectionEvent}
    (hnext : Connection.next gbk config s event = some s') (h : s.canSendSubmit = false) :
    s'.canSendSubmit = false := by
  rcases (follows_next hsound.wired hsound.ledger hnext).window with hsame | hstep
  · exact (congrArg Window.canSendSubmit hsame).trans h
  · exact hstep.barred h

theorem sound_run {clock : ℕ} {udhCounter : UInt32} {events : List ConnectionEvent}
    (hrun : (machine gbk config clock udhCounter).Run events s) : s.Sound config := by
  refine hrun.invariant (I := fun _ s => s.Sound config) ?_ ?_
  · rintro s rfl
    exact sound_initial config clock udhCounter
  · exact fun _ _ _ _ h hnext => h.next hnext

/-! ## A small connection -/

/-- On ASCII text GBK is ASCII. -/
def asciiGbk : Gbk where
  encode content := content.toList.map fun c => .ofNat c.toNat
  decode bytes := .ofList (bytes.map fun b => .ofNat b.toNat)

def smallConfig : ConnectionConfig where
  responseTimeout := 60
  retryCount := 2
  windowSize := 1
  writeBatchMaxFrames := 4
  writeBatchMaxBytes := 4096
  responseTimeout_pos := by decide
  retryCount_pos := by decide
  windowSize_pos := by decide
  writeBatchMaxFrames_pos := by decide
  writeBatchMaxBytes_pos := by decide

/-- A short message is submitted and admitted. -/
def admitOne : List ConnectionEvent :=
  [.submit (.new "SMS" "901234" "1065" "13800000000") "hello" none, .call 0 (.prepare none),
    .call 0 .nextSegment, .call 0 .acquirePermit, .call 0 .encode, .call 0 .reserveSlot,
    .call 0 .admitSubmit]

/-- The writer finds one SUBMIT and sends it. -/
def writeOne : List ConnectionEvent :=
  List.replicate 11 (.writer .advance) ++ .writer .written :: List.replicate 4 (.writer .advance)

/-- The response timeout passes and the scan looks for overdue attempts. -/
def scanOnce : List ConnectionEvent :=
  [.clock 60, .timeout .tick, .timeout .scanHeartbeat, .timeout .scanSubmits]

end Connection

end CmppProtocol
