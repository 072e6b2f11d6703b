import CmppProtocol.Events.Admission
import CmppProtocol.Teardown.Machine

/-! # Teardown happens once

The holder of a lock keeps what its section has established, so that the phase
goes forward only, its mirror follows before the lock is free, and one call of
`finish` wins. Its reason stays until the last item takes it.
-/

namespace CmppProtocol

def ConnectionPhase.rank : ConnectionPhase → ℕ
  | .opened => 0
  | .closing => 1
  | .closed => 2

/-- The call holds the admission lock too. -/
def ReasonStage.admits : ReasonStage → Bool
  | .admitted | .swapped | .published => true
  | _ => false

namespace Teardown

variable {eventSpoolCapacity capacity : ℕ} {s s' : Teardown eventSpoolCapacity capacity}

/-- What the holder of the admission lock knows of the phase and its mirror. -/
def Owned (s : Teardown eventSpoolCapacity capacity) : Prop :=
  match s.submitAdmission with
  | none | some .claim => s.phaseTx = s.phase
  | some (.closing _ .entered) | some (.closing _ .flagged) | some .submit | some .heartbeat =>
    s.phase = .opened ∧ s.phaseTx = .opened
  | some (.closing _ .swapped) => s.phase = .closing ∧ s.phaseTx = .opened
  | some (.closing _ .published) => s.phase = .closing ∧ s.phaseTx = .closing
  | some .finish => ∃ holder, s.reasonLock = some holder ∧ holder.stage.admits = true

/-- What the holder of the lock of the terminal reason has done so far. -/
def Holding (s : Teardown eventSpoolCapacity capacity) (holder : ReasonHolder) : Prop :=
  match holder.stage with
  | .stored => s.phase ≠ .closed
  | .admitted => s.phase ≠ .closed ∧ s.submitAdmission = some .finish ∧ s.phaseTx = s.phase
  | .swapped => s.winners = [(holder.call, holder.reason)] ∧ s.submitAdmission = some .finish
  | .published => s.winners = [(holder.call, holder.reason)] ∧ s.submitAdmission = some .finish ∧
    s.phaseTx = .closed
  | .released => s.winners = [(holder.call, holder.reason)]

/-- The winner has released its locks, and its cleanup is still to be spawned. -/
def HasWon (s : Teardown eventSpoolCapacity capacity) (call : ℕ) : Prop :=
  s.finishes[call]? = some .won ∨ s.finishes[call]? = some .cleared

structure Inv (s : Teardown eventSpoolCapacity capacity) : Prop where
  owned : s.Owned
  holding : ∀ holder, s.reasonLock = some holder → s.created = [] ∧ s.spawned = [] ∧
    s.finishes[holder.call]? = some .locked ∧ s.terminalReason = holder.reason ∧ s.Holding holder
  closed : s.phase = .closed ↔ s.winners ≠ []
  one : s.winners.length ≤ 1
  begun : s.winners = [] → s.spool.cleanups = [] ∧ s.spool.terminal = .idle ∧ s.spawned = []
  won : ∀ call, s.HasWon call → s.winners.map Prod.fst = [call] ∧ s.spawned = []
  spawned : s.spawned = [] ∨ s.spawned = s.winners.map Prod.fst
  created : s.created = [] ↔ s.spool.terminal = .idle ∨ s.spool.terminal = .locked
  reason : ∀ winner ∈ s.winners, s.created = [] ∧ s.terminalReason = winner.2 ∨
    s.created = [winner.2] ∧ s.terminalReason = none
  ending : s.spool.terminal = .idle ↔ s.spool.admission ≠ .terminal
  held : s.spool.HeldOpen

theorem Inv.initial : (initial eventSpoolCapacity capacity).Inv := by
  refine ⟨rfl, by rintro _ ⟨⟩, iff_of_false (by rintro ⟨⟩) fun hne => hne rfl, Nat.zero_le _,
    fun _ => ⟨rfl, rfl, rfl⟩, ?_, Or.inl rfl, iff_of_true rfl (Or.inl rfl), by rintro _ ⟨⟩,
    iff_of_true rfl (by rintro ⟨⟩), by rintro _ ⟨⟩⟩
  rintro call (⟨⟨⟩⟩ | ⟨⟨⟩⟩)

/-- A call goes on outside the lock, without winning. -/
theorem Inv.setFinish (h : s.Inv) {call : ℕ} {stage stage' : FinishStage}
    (hstage : s.finishes[call]? = some stage) (hlocked : stage ≠ .locked)
    (hwon : stage' ≠ .won) (hcleared : stage' ≠ .cleared) : (s.setFinish call stage').Inv := by
  refine ⟨h.owned, fun holder hholder => ?_, h.closed, h.one, h.begun, fun other hother => ?_,
    h.spawned, h.created, h.reason, h.ending, h.held⟩
  · obtain ⟨hcreated, hspawned, hcall, hreason, hholding⟩ := h.holding holder hholder
    refine ⟨hcreated, hspawned, ?_, hreason, hholding⟩
    have hne : call ≠ holder.call := by
      rintro rfl
      exact hlocked (Option.some.inj (hstage.symm.trans hcall))
    exact (List.getElem?_set_ne hne).trans hcall
  · by_cases hne : call = other
    · subst hne
      have hset : (s.finishes.set call stage')[call]? = some stage' :=
        List.getElem?_set_self (List.getElem?_eq_some_iff.mp hstage).1
      rcases hother with hother | hother
      · exact absurd (Option.some.inj (hset.symm.trans hother)) hwon
      · exact absurd (Option.some.inj (hset.symm.trans hother)) hcleared
    · refine h.won other (hother.imp (fun hother => ?_) fun hother => ?_)
      · exact (List.getElem?_set_ne hne).symm.trans hother
      · exact (List.getElem?_set_ne hne).symm.trans hother

/-- Only the section of `finish` looks at the lock of the terminal reason. -/
theorem Owned.of_ne_finish (h : s.Owned) (hne : s.submitAdmission ≠ some .finish)
    (hlock : s'.submitAdmission = s.submitAdmission) (hphase : s'.phase = s.phase)
    (hmirror : s'.phaseTx = s.phaseTx) : s'.Owned := by
  unfold Owned at h ⊢
  rw [hlock, hphase, hmirror]
  cases howner : s.submitAdmission with
  | none =>
    rw [howner] at h
    exact h
  | some owner =>
    rw [howner] at h hne
    cases owner with
    | closing drainSubmits stage => cases stage <;> exact h
    | finish => exact absurd rfl hne
    | _ => exact h

/-- A section other than that of `finish` changes what the admission lock guards. -/
theorem Inv.setLock (h : s.Inv) (hlock : s.submitAdmission ≠ some .finish)
    {phase phaseTx : ConnectionPhase} {drainSubmitsOnClose : Bool}
    {submitAdmission : Option AdmissionOwner} (hclosed : phase = .closed ↔ s.phase = .closed)
    (howned : Owned { s with phase, phaseTx, drainSubmitsOnClose, submitAdmission }) :
    Inv { s with phase, phaseTx, drainSubmitsOnClose, submitAdmission } := by
  refine ⟨howned, fun holder hholder => ?_, hclosed.trans h.closed, h.one, h.begun,
    h.won, h.spawned, h.created, h.reason, h.ending, h.held⟩
  obtain ⟨hcreated, hspawned, hcall, hreason, hholding⟩ := h.holding holder hholder
  refine ⟨hcreated, hspawned, hcall, hreason, ?_⟩
  unfold Holding at hholding ⊢
  cases hstage : holder.stage with
  | stored =>
    rw [hstage] at hholding
    exact fun heq => hholding (hclosed.mp heq)
  | released =>
    rw [hstage] at hholding
    exact hholding
  | admitted =>
    rw [hstage] at hholding
    exact absurd hholding.2.1 hlock
  | swapped =>
    rw [hstage] at hholding
    exact absurd hholding.2 hlock
  | published =>
    rw [hstage] at hholding
    exact absurd hholding.2.1 hlock

theorem Inv.beginClosing (h : s.Inv) (hlock : s.submitAdmission = none) (drainSubmits : Bool) :
    (s.beginClosing drainSubmits).Inv := by
  have hother : s.submitAdmission ≠ some .finish := by
    rw [hlock]
    rintro ⟨⟩
  have howned := h.owned
  unfold Owned at howned
  rw [hlock] at howned
  unfold Teardown.beginClosing
  split
  · next hphase => exact h.setLock hother Iff.rfl ⟨hphase, howned.trans hphase⟩
  · split_ifs
    · exact h
    · exact h.setLock hother Iff.rfl h.owned
  · exact h

theorem Inv.closingNext (h : s.Inv) (hnext : s.closingNext = some s') : s'.Inv := by
  have howned := h.owned
  unfold Owned at howned
  unfold Teardown.closingNext at hnext
  split at hnext
  · next drainSubmits hlock =>
    cases hnext
    rw [hlock] at howned
    exact h.setLock (by rw [hlock]; rintro ⟨⟩) Iff.rfl howned
  · next drainSubmits hlock =>
    cases hnext
    rw [hlock] at howned
    refine h.setLock (by rw [hlock]; rintro ⟨⟩) (iff_of_false (by rintro ⟨⟩) ?_) ⟨rfl, howned.2⟩
    rw [howned.1]
    rintro ⟨⟩
  · next drainSubmits hlock =>
    cases hnext
    rw [hlock] at howned
    refine h.setLock (by rw [hlock]; rintro ⟨⟩) Iff.rfl ⟨howned.1, if_pos howned.2⟩
  · next hlock =>
    cases hnext
    rw [hlock] at howned
    exact h.setLock (by rw [hlock]; rintro ⟨⟩) Iff.rfl (howned.2.trans howned.1.symm)
  · cases hnext

/-- Under the admission lock in a section that lets something in, the phase is open. -/
theorem Inv.opened_of_owner (h : s.Inv) {owner : AdmissionOwner}
    (hlock : s.submitAdmission = some owner) (howner : owner = .submit ∨ owner = .heartbeat) :
    s.phase = .opened ∧ s.phaseTx = .opened := by
  have howned := h.owned
  unfold Owned at howned
  rw [hlock] at howned
  rcases howner with rfl | rfl
  · exact howned
  · exact howned

theorem Inv.lockAdmission (h : s.Inv) {owner : AdmissionOwner}
    (howner : owner = .submit ∨ owner = .heartbeat) (hnext : s.lockAdmission owner = some s') :
    s'.Inv := by
  unfold Teardown.lockAdmission at hnext
  split_ifs at hnext with hlock hopened
  · cases hnext
    have howned := h.owned
    unfold Owned at howned
    rw [hlock] at howned
    have hboth : s.phase = .opened ∧ s.phaseTx = .opened := ⟨hopened, howned.trans hopened⟩
    refine h.setLock (by rw [hlock]; rintro ⟨⟩) Iff.rfl ?_
    rcases howner with rfl | rfl
    · exact hboth
    · exact hboth
  · cases hnext
    exact h

/-- The section ends, and the mirror shows the phase. -/
theorem Inv.unlock (h : s.Inv) {owner : AdmissionOwner} (hlock : s.submitAdmission = some owner)
    (howner : owner ≠ .finish) (hmirror : s.phaseTx = s.phase) :
    Inv { s with submitAdmission := none } := by
  refine h.setLock ?_ Iff.rfl hmirror
  rw [hlock]
  exact fun heq => howner (Option.some.inj heq)

theorem Inv.leave (h : s.Inv) (hnext : s.leave = some s') : s'.Inv := by
  unfold Teardown.leave at hnext
  split at hnext
  · next hlock =>
    cases hnext
    obtain ⟨hopened, hmirror⟩ := h.opened_of_owner hlock (Or.inl rfl)
    exact h.unlock hlock (by rintro ⟨⟩) (hmirror.trans hopened.symm)
  · next hlock =>
    cases hnext
    obtain ⟨hopened, hmirror⟩ := h.opened_of_owner hlock (Or.inr rfl)
    exact h.unlock hlock (by rintro ⟨⟩) (hmirror.trans hopened.symm)
  · next hlock =>
    cases hnext
    have howned := h.owned
    unfold Owned at howned
    rw [hlock] at howned
    exact h.unlock hlock (by rintro ⟨⟩) howned
  · cases hnext

theorem Inv.resolve (h : s.Inv) {call : ℕ} (hnext : s.resolve call = some s') : s'.Inv := by
  unfold Teardown.resolve at hnext
  split at hnext
  · next hstage =>
    cases hnext
    refine h.setFinish hstage (by rintro ⟨⟩) ?_ ?_
    · split_ifs <;> rintro ⟨⟩
    · split_ifs <;> rintro ⟨⟩
  · next hstage =>
    cases hnext
    exact h.setFinish hstage (by rintro ⟨⟩) (by rintro ⟨⟩) (by rintro ⟨⟩)
  · cases hnext

theorem set_self {call : ℕ} {stage stage' : FinishStage} (hstage : s.finishes[call]? = some stage) :
    (s.finishes.set call stage')[call]? = some stage' :=
  List.getElem?_set_self (List.getElem?_eq_some_iff.mp hstage).1

theorem Inv.lockReason (h : s.Inv) {call : ℕ} (hnext : s.lockReason call = some s') : s'.Inv := by
  unfold Teardown.lockReason at hnext
  split at hnext
  · next reason hstage =>
    split_ifs at hnext with hfree hclosed
    · cases hnext
      exact h.setFinish hstage (by rintro ⟨⟩) (by rintro ⟨⟩) (by rintro ⟨⟩)
    · cases hnext
      have hnone : s.winners = [] := by
        by_contra hne
        exact hclosed (h.closed.mpr hne)
      obtain ⟨_, hidle, hspawned⟩ := h.begun hnone
      have hset : (s.setFinish call .locked).Inv :=
        h.setFinish hstage (by rintro ⟨⟩) (by rintro ⟨⟩) (by rintro ⟨⟩)
      refine ⟨?_, ?_, h.closed, h.one, h.begun, hset.won, h.spawned, h.created, ?_,
        h.ending, h.held⟩
      · refine h.owned.of_ne_finish (fun hlock => ?_) rfl rfl rfl
        have howned := h.owned
        unfold Owned at howned
        rw [hlock] at howned
        obtain ⟨holder, hholder, _⟩ := howned
        cases hfree.symm.trans hholder
      · rintro holder ⟨⟩
        exact ⟨h.created.mpr (Or.inl hidle), hspawned, set_self hstage, rfl, hclosed⟩
      · intro winner hmem
        change winner ∈ s.winners at hmem
        rw [hnone] at hmem
        cases hmem
  · cases hnext

theorem Inv.underReasonNext (h : s.Inv) (hnext : s.underReasonNext = some s') : s'.Inv := by
  unfold Teardown.underReasonNext at hnext
  split at hnext
  · next call reason hlock =>
    split_ifs at hnext with hfree
    cases hnext
    obtain ⟨hcreated, hspawned, hcall, hreason, hopen⟩ := h.holding _ hlock
    have howned := h.owned
    unfold Owned at howned
    rw [hfree] at howned
    refine ⟨⟨_, rfl, rfl⟩, ?_, h.closed, h.one, h.begun, h.won, h.spawned, h.created, h.reason,
      h.ending, h.held⟩
    rintro holder ⟨⟩
    exact ⟨hcreated, hspawned, hcall, hreason, hopen, rfl, howned⟩
  · next call reason hlock =>
    obtain ⟨hcreated, hspawned, hcall, hreason, hopen, hfinish, hmirror⟩ := h.holding _ hlock
    rw [if_neg hopen] at hnext
    cases hnext
    have hnone : s.winners = [] := by
      by_contra hne
      exact hopen (h.closed.mpr hne)
    obtain ⟨hcleanups, hidle, _⟩ := h.begun hnone
    have hwinners : s.winners ++ [(call, reason)] = [(call, reason)] := by
      rw [hnone, List.nil_append]
    refine ⟨?_, ?_, iff_of_true rfl ?_, ?_, ?_, fun other hother => ?_, Or.inl hspawned,
      h.created, ?_, h.ending, h.held⟩
    · unfold Owned
      dsimp only
      rw [hfinish]
      exact ⟨_, rfl, rfl⟩
    · rintro holder ⟨⟩
      exact ⟨hcreated, hspawned, hcall, hreason, hwinners, hfinish⟩
    · rw [hwinners]
      exact List.cons_ne_nil _ _
    · dsimp only
      rw [hwinners]
      exact le_rfl
    · intro hempty
      dsimp only at hempty
      rw [hwinners] at hempty
      cases hempty
    · obtain ⟨hfst, _⟩ := h.won other hother
      rw [hnone] at hfst
      cases hfst
    · intro winner hmem
      dsimp only at hmem
      rw [hwinners] at hmem
      rw [List.mem_singleton.mp hmem]
      exact Or.inl ⟨hcreated, hreason⟩
  · next call reason hlock =>
    cases hnext
    obtain ⟨hcreated, hspawned, hcall, hreason, hwinners, hfinish⟩ := h.holding _ hlock
    refine ⟨?_, ?_, h.closed, h.one, h.begun, h.won, h.spawned, h.created, h.reason,
      h.ending, h.held⟩
    · unfold Owned
      dsimp only
      rw [hfinish]
      exact ⟨_, rfl, rfl⟩
    · rintro holder ⟨⟩
      exact ⟨hcreated, hspawned, hcall, hreason, hwinners, hfinish, rfl⟩
  · next call reason hlock =>
    cases hnext
    obtain ⟨hcreated, hspawned, hcall, hreason, hwinners, hfinish, hmirror⟩ := h.holding _ hlock
    have hclosed : s.phase = .closed := h.closed.mpr (hwinners ▸ List.cons_ne_nil _ _)
    refine ⟨hmirror.trans hclosed.symm, ?_, h.closed, h.one, h.begun, h.won, h.spawned, h.created,
      h.reason, h.ending, h.held⟩
    rintro holder ⟨⟩
    exact ⟨hcreated, hspawned, hcall, hreason, hwinners⟩
  · next call reason hlock =>
    cases hnext
    obtain ⟨hcreated, hspawned, hcall, hreason, hwinners⟩ := h.holding _ hlock
    have hwinners : s.winners = [(call, reason)] := hwinners
    refine ⟨?_, by rintro _ ⟨⟩, h.closed, h.one, h.begun, fun other hother => ?_,
      h.spawned, h.created, h.reason, h.ending, h.held⟩
    · refine h.owned.of_ne_finish (fun hfinish => ?_) rfl rfl rfl
      have howned := h.owned
      unfold Owned at howned
      rw [hfinish] at howned
      obtain ⟨holder, hholder, hadmits⟩ := howned
      cases hlock.symm.trans hholder
      cases hadmits
    · by_cases hne : call = other
      · subst hne
        refine ⟨?_, hspawned⟩
        change s.winners.map Prod.fst = [call]
        rw [hwinners]
        rfl
      · refine h.won other (hother.imp (fun hother => ?_) fun hother => ?_)
        · exact (List.getElem?_set_ne hne).symm.trans hother
        · exact (List.getElem?_set_ne hne).symm.trans hother
  · cases hnext

/-- While the cleanup is still to be spawned, nobody holds the lock of the terminal reason. -/
theorem Inv.free_of_hasWon (h : s.Inv) {call : ℕ} (hwon : s.HasWon call) : s.reasonLock = none := by
  obtain ⟨hfst, _⟩ := h.won call hwon
  rw [Option.eq_none_iff_forall_ne_some]
  intro holder hlock
  obtain ⟨_, _, hcall, _, hholding⟩ := h.holding holder hlock
  have hother (hwinners : s.winners = [(holder.call, holder.reason)]) : False := by
    rw [hwinners] at hfst
    cases (List.cons.inj hfst).1
    rcases hwon with hwon | hwon
    · cases hcall.symm.trans hwon
    · cases hcall.symm.trans hwon
  have hclosed : s.phase = .closed := h.closed.mpr fun hnone => by
    rw [hnone] at hfst
    cases hfst
  unfold Holding at hholding
  split at hholding
  · exact hholding hclosed
  · exact hholding.1 hclosed
  · exact hother hholding.1
  · exact hother hholding.1
  · exact hother hholding

theorem Inv.afterWin (h : s.Inv) {call : ℕ} (hnext : s.afterWin call = some s') : s'.Inv := by
  unfold Teardown.afterWin at hnext
  split at hnext
  · next hwon =>
    cases hnext
    have hfree := h.free_of_hasWon (Or.inl hwon)
    refine ⟨?_, fun holder hholder => ?_, h.closed, h.one, h.begun,
      fun other hother => ?_, h.spawned, h.created, h.reason, h.ending, h.held⟩
    · exact h.owned
    · cases hfree.symm.trans hholder
    · by_cases hne : call = other
      · subst hne
        exact h.won call (Or.inl hwon)
      · refine h.won other (hother.imp (fun hother => ?_) fun hother => ?_)
        · exact (List.getElem?_set_ne hne).symm.trans hother
        · exact (List.getElem?_set_ne hne).symm.trans hother
  · next hcleared =>
    cases hnext
    have hfree := h.free_of_hasWon (Or.inr hcleared)
    obtain ⟨hfst, hspawned⟩ := h.won call (Or.inr hcleared)
    have hnew : s.spawned ++ [call] = s.winners.map Prod.fst := by
      rw [hspawned, hfst]
      rfl
    refine ⟨h.owned, fun holder hholder => ?_, h.closed, h.one, fun hnone => ?_,
      fun other hother => ?_, Or.inr hnew, h.created, h.reason, h.ending, h.held⟩
    · cases hfree.symm.trans hholder
    · have hnone : s.winners = [] := hnone
      rw [hnone] at hfst
      cases hfst
    · have hne : call ≠ other := by
        rintro rfl
        have hset : (s.finishes.set call .ended)[call]? = some .ended := set_self hcleared
        rcases hother with hother | hother
        · cases hset.symm.trans hother
        · cases hset.symm.trans hother
      have hwon : s.HasWon other := by
        refine hother.imp (fun hother => ?_) fun hother => ?_
        · exact (List.getElem?_set_ne hne).symm.trans hother
        · exact (List.getElem?_set_ne hne).symm.trans hother
      exact absurd (List.cons.inj (hfst.symm.trans (h.won other hwon).1)).1 hne
  · cases hnext

theorem Inv.takeReason (h : s.Inv) (hnext : s.takeReason = some s') : s'.Inv := by
  unfold Teardown.takeReason at hnext
  split_ifs at hnext with htakes
  obtain ⟨hlocked, hfree⟩ := htakes
  cases hnext
  have hidle : s.spool.terminal ≠ .idle := by
    rw [hlocked]
    rintro ⟨⟩
  have hempty : s.created = [] := h.created.mpr (Or.inr hlocked)
  refine ⟨h.owned, fun holder hholder => ?_, h.closed, h.one, fun hnone => ?_, h.won, h.spawned, ?_,
    fun winner hmem => Or.inr ⟨?_, rfl⟩, ?_, h.held⟩
  · cases hfree.symm.trans hholder
  · exact absurd (h.begun hnone).2.1 hidle
  · refine iff_of_false (List.append_ne_nil_of_right_ne_nil _ (List.cons_ne_nil _ _)) ?_
    rintro (⟨⟨⟩⟩ | ⟨⟨⟩⟩)
  · rcases h.reason winner hmem with ⟨_, hreason⟩ | ⟨hcreated, _⟩
    · change s.created ++ [s.terminalReason] = [winner.2]
      rw [hempty, hreason]
      rfl
    · cases hempty.symm.trans hcreated
  · exact iff_of_false (by rintro ⟨⟩) fun hne => hidle (h.ending.mpr hne)

theorem Inv.carries (h : s.Inv) {spool : EventSpool eventSpoolCapacity capacity}
    (hspool : s.spool.Carries spool) : Inv { s with spool } := by
  refine ⟨h.owned, h.holding, h.closed, h.one, fun hnone => ?_, h.won, h.spawned, ?_, h.reason, ?_,
    hspool.held h.held⟩
  · obtain ⟨hcleanups, hidle, hspawned⟩ := h.begun hnone
    refine ⟨hspool.cleanups.trans hcleanups, ?_, hspawned⟩
    rcases hspool.terminal with hsame | ⟨⟨reason, hsending⟩, _⟩
    · exact hsame.trans hidle
    · cases hidle.symm.trans hsending
  · change s.created = [] ↔ spool.terminal = .idle ∨ spool.terminal = .locked
    rcases hspool.terminal with hsame | ⟨⟨reason, hsending⟩, hended⟩
    · rw [hsame]
      exact h.created
    · rw [h.created, hsending, hended]
      exact iff_of_false (by rintro (⟨⟨⟩⟩ | ⟨⟨⟩⟩)) (by rintro (⟨⟨⟩⟩ | ⟨⟨⟩⟩))
  · change spool.terminal = .idle ↔ spool.admission ≠ .terminal
    rcases hspool.terminal with hsame | ⟨⟨reason, hsending⟩, hended⟩
    · rw [hsame, h.ending]
      refine ⟨hspool.ending, fun hne hterminal => hne ?_⟩
      have hrank := hspool.rank
      rw [hterminal] at hrank
      cases hadmission : spool.admission with
      | terminal => rfl
      | _ =>
        rw [hadmission] at hrank
        exact absurd hrank (by decide)
    · rw [hended]
      have hterminal : ¬ s.spool.admission ≠ .terminal := by
        intro hne
        cases hsending.symm.trans (h.ending.mpr hne)
      refine iff_of_false (by rintro ⟨⟩) fun hne => ?_
      have hrank := hspool.rank
      rw [not_not.mp hterminal] at hrank
      cases hadmission : spool.admission with
      | terminal => exact hne hadmission
      | _ =>
        rw [hadmission] at hrank
        exact absurd hrank (by decide)

theorem Inv.cleans (h : s.Inv) {spool : EventSpool eventSpoolCapacity capacity}
    (hspool : s.spool.Cleans spool) : Inv { s with spool } := by
  refine ⟨h.owned, h.holding, h.closed, h.one, fun hnone => ?_, h.won, h.spawned, ?_, h.reason, ?_,
    hspool.held h.held⟩
  · exact absurd (h.begun hnone).1 hspool.cleanups.2
  · change s.created = [] ↔ spool.terminal = .idle ∨ spool.terminal = .locked
    rcases hspool.terminal with ⟨hsame, _⟩ | ⟨hopen, _, hlocked⟩
    · rw [hsame]
      exact h.created
    · exact iff_of_true (h.created.mpr (Or.inl (h.ending.mpr hopen))) (Or.inr hlocked)
  · change spool.terminal = .idle ↔ spool.admission ≠ .terminal
    rcases hspool.terminal with ⟨hsame, hadmission⟩ | ⟨_, hterminal, hlocked⟩
    · rw [hsame, hadmission]
      exact h.ending
    · rw [hterminal, hlocked]
      exact iff_of_false (by rintro ⟨⟩) fun hne => hne rfl

/-- The mirror does not run ahead. -/
theorem Inv.closed_of_mirror (h : s.Inv) (hmirror : s.phaseTx = .closed) : s.phase = .closed := by
  have howned := h.owned
  unfold Owned at howned
  split at howned
  · exact howned.symm.trans hmirror
  · exact howned.symm.trans hmirror
  · cases hmirror.symm.trans howned.2
  · cases hmirror.symm.trans howned.2
  · cases hmirror.symm.trans howned.2
  · cases hmirror.symm.trans howned.2
  · cases hmirror.symm.trans howned.2
  · cases hmirror.symm.trans howned.2
  · obtain ⟨holder, hholder, hadmits⟩ := howned
    obtain ⟨_, _, _, _, hholding⟩ := h.holding holder hholder
    unfold Holding at hholding
    cases hstage : holder.stage with
    | admitted =>
      rw [hstage] at hholding
      exact hholding.2.2.symm.trans hmirror
    | swapped =>
      rw [hstage] at hholding
      exact h.closed.mpr (hholding.1 ▸ List.cons_ne_nil _ _)
    | published =>
      rw [hstage] at hholding
      exact h.closed.mpr (hholding.1 ▸ List.cons_ne_nil _ _)
    | stored =>
      rw [hstage] at hadmits
      cases hadmits
    | released =>
      rw [hstage] at hadmits
      cases hadmits

theorem Inv.next (h : s.Inv) {event : TeardownStep} (hnext : s.next event = some s') : s'.Inv := by
  cases event with
  | peerTerminate =>
    cases hnext
    exact ⟨h.owned, h.holding, h.closed, h.one, h.begun, h.won, h.spawned, h.created,
      h.reason, h.ending, h.held⟩
  | beginClosing drainSubmits =>
    simp only [Teardown.next] at hnext
    split_ifs at hnext with hlock
    cases hnext
    exact h.beginClosing hlock drainSubmits
  | closing => exact h.closingNext hnext
  | clearDrain =>
    cases hnext
    exact ⟨h.owned, h.holding, h.closed, h.one, h.begun, h.won, h.spawned, h.created,
      h.reason, h.ending, h.held⟩
  | lockSubmit => exact h.lockAdmission (Or.inl rfl) hnext
  | insertSubmit sequenceId =>
    simp only [Teardown.next, Teardown.insertSubmit] at hnext
    split_ifs at hnext with hlock
    cases hnext
    obtain ⟨hopened, hmirror⟩ := h.opened_of_owner hlock (Or.inl rfl)
    have h := h.unlock hlock (by rintro ⟨⟩) (hmirror.trans hopened.symm)
    exact ⟨h.owned, h.holding, h.closed, h.one, h.begun, h.won, h.spawned, h.created,
      h.reason, h.ending, h.held⟩
  | lockHeartbeat => exact h.lockAdmission (Or.inr rfl) hnext
  | insertHeartbeat sequenceId =>
    simp only [Teardown.next, Teardown.insertHeartbeat] at hnext
    split_ifs at hnext with hlock
    cases hnext
    obtain ⟨hopened, hmirror⟩ := h.opened_of_owner hlock (Or.inr rfl)
    have h := h.unlock hlock (by rintro ⟨⟩) (hmirror.trans hopened.symm)
    exact ⟨h.owned, h.holding, h.closed, h.one, h.begun, h.won, h.spawned, h.created,
      h.reason, h.ending, h.held⟩
  | lockClaim =>
    simp only [Teardown.next] at hnext
    split_ifs at hnext with hlock
    cases hnext
    have howned := h.owned
    unfold Owned at howned
    rw [hlock] at howned
    exact h.setLock (by rw [hlock]; rintro ⟨⟩) Iff.rfl howned
  | leave => exact h.leave hnext
  | settleSubmit sequenceId =>
    cases hnext
    exact ⟨h.owned, h.holding, h.closed, h.one, h.begun, h.won, h.spawned, h.created,
      h.reason, h.ending, h.held⟩
  | settleHeartbeat sequenceId =>
    cases hnext
    exact ⟨h.owned, h.holding, h.closed, h.one, h.begun, h.won, h.spawned, h.created,
      h.reason, h.ending, h.held⟩
  | finish reason =>
    cases hnext
    have hstage {call : ℕ} {stage : FinishStage} (hne : stage ≠ .called reason)
        (hcall : (s.finishes ++ [.called reason])[call]? = some stage) :
        s.finishes[call]? = some stage := by
      rw [List.getElem?_append] at hcall
      split_ifs at hcall
      · exact hcall
      · rcases List.mem_singleton.mp (List.mem_of_getElem? hcall) with rfl
        exact absurd rfl hne
    refine ⟨h.owned, fun holder hholder => ?_, h.closed, h.one, h.begun,
      fun call hwon => ?_, h.spawned, h.created, h.reason, h.ending, h.held⟩
    · obtain ⟨hcreated, hspawned, hcall, hreason, hholding⟩ := h.holding holder hholder
      refine ⟨hcreated, hspawned, ?_, hreason, hholding⟩
      exact (List.getElem?_append_left (List.getElem?_eq_some_iff.mp hcall).1).trans hcall
    · exact h.won call (hwon.imp (hstage (by rintro ⟨⟩)) (hstage (by rintro ⟨⟩)))
  | resolve call => exact h.resolve hnext
  | lockReason call => exact h.lockReason hnext
  | underReason => exact h.underReasonNext hnext
  | afterWin call => exact h.afterWin hnext
  | fallback =>
    simp only [Teardown.next] at hnext
    split_ifs at hnext with hclosed
    cases hnext
    refine ⟨h.owned, h.holding, h.closed, h.one, fun hnone => ?_, h.won, h.spawned,
      h.created, h.reason, h.ending, h.held⟩
    exact absurd (h.closed_of_mirror hclosed) fun hphase => h.closed.mp hphase hnone
  | sweep index =>
    simp only [Teardown.next, Teardown.sweep] at hnext
    split_ifs at hnext
    cases hnext
    exact ⟨h.owned, h.holding, h.closed, h.one, h.begun, h.won, h.spawned, h.created,
      h.reason, h.ending, h.held⟩
  | cleanup index event =>
    simp only [Teardown.next, Teardown.cleanupNext] at hnext
    split_ifs at hnext
    obtain ⟨spool, hspool, rfl⟩ := Option.map_eq_some_iff.mp hnext
    exact h.cleans (EventSpool.cleans_cleanupNext hspool)
  | takeReason => exact h.takeReason hnext
  | spool event =>
    simp only [Teardown.next] at hnext
    split_ifs at hnext with hshared
    obtain ⟨spool, hspool, rfl⟩ := Option.map_eq_some_iff.mp hnext
    exact h.carries (EventSpool.carries_next h.held hshared hspool)

theorem inv_run {history : List TeardownStep}
    (hrun : (machine eventSpoolCapacity capacity).Run history s) : s.Inv := by
  refine hrun.invariant (I := fun _ s => s.Inv) ?_ fun _ _ _ _ h hnext => h.next hnext
  rintro s rfl
  exact .initial

/-! ## What goes one way only -/

structure Advances (s s' : Teardown eventSpoolCapacity capacity) : Prop where
  phase : s.phase.rank ≤ s'.phase.rank
  admission : s.spool.admission.rank ≤ s'.spool.admission.rank
  winners : s.winners <+: s'.winners
  drain : s.phase ≠ .opened → s.drainSubmitsOnClose = false → s'.drainSubmitsOnClose = false
  pending : s.phase = .closed → s'.spool.pending.Sublist s.spool.pending
  heartbeats : s.phase = .closed → s'.heartbeatPending.Sublist s.heartbeatPending

theorem rank_closed {phase phase' : ConnectionPhase} (h : phase.rank ≤ phase'.rank)
    (hclosed : phase = .closed) : phase' = .closed := by
  subst hclosed
  cases phase' with
  | closed => rfl
  | _ => exact absurd h (by decide)

theorem rank_not_opened {phase phase' : ConnectionPhase} (h : phase.rank ≤ phase'.rank)
    (hopened : phase ≠ .opened) : phase' ≠ .opened := by
  rintro rfl
  cases phase with
  | opened => exact hopened rfl
  | _ => exact absurd h (by decide)

theorem Advances.refl (s : Teardown eventSpoolCapacity capacity) : s.Advances s :=
  ⟨le_rfl, le_rfl, List.prefix_rfl, fun _ h => h, fun _ => .refl _, fun _ => .refl _⟩

theorem Advances.trans {s'' : Teardown eventSpoolCapacity capacity} (h : s.Advances s')
    (h' : s'.Advances s'') : s.Advances s'' where
  phase := h.phase.trans h'.phase
  admission := h.admission.trans h'.admission
  winners := h.winners.trans h'.winners
  drain hopened hdrain := h'.drain (rank_not_opened h.phase hopened) (h.drain hopened hdrain)
  pending hclosed := (h'.pending (rank_closed h.phase hclosed)).trans (h.pending hclosed)
  heartbeats hclosed := (h'.heartbeats (rank_closed h.phase hclosed)).trans (h.heartbeats hclosed)

theorem ConnectionPhase.rank_le_closed (phase : ConnectionPhase) :
    phase.rank ≤ ConnectionPhase.closed.rank := by
  cases phase <;> decide

/-- A step that leaves the phase, the admission and the winners, and takes no drain back. -/
theorem Advances.same (hphase : s'.phase = s.phase)
    (hadmission : s'.spool.admission = s.spool.admission)
    (hpending : s'.spool.pending = s.spool.pending) (hwinners : s'.winners = s.winners)
    (hdrain : s'.drainSubmitsOnClose = true → s.drainSubmitsOnClose = true)
    (hheartbeats : s'.heartbeatPending.Sublist s.heartbeatPending) : s.Advances s' := by
  constructor
  · rw [hphase]
  · rw [hadmission]
  · rw [hwinners]
  · intro _ hfalse
    by_contra htrue
    cases hfalse.symm.trans (hdrain (Bool.eq_true_of_not_eq_false htrue))
  · intro _
    rw [hpending]
  · exact fun _ => hheartbeats

theorem Advances.underReason (hnext : s.underReasonNext = some s') : s.Advances s' := by
  unfold Teardown.underReasonNext at hnext
  split at hnext
  · split_ifs at hnext
    cases hnext
    exact .same rfl rfl rfl rfl id (.refl _)
  · cases hnext
    split_ifs
    · exact .same rfl rfl rfl rfl id (.refl _)
    · exact { Advances.refl s with
        phase := ConnectionPhase.rank_le_closed _, winners := List.prefix_append _ _ }
  · cases hnext
    exact .same rfl rfl rfl rfl id (.refl _)
  · cases hnext
    exact .same rfl rfl rfl rfl id (.refl _)
  · cases hnext
    exact .same rfl rfl rfl rfl id (.refl _)
  · cases hnext

theorem Advances.beginClosing (drainSubmits : Bool) : s.Advances (s.beginClosing drainSubmits) := by
  unfold Teardown.beginClosing
  split
  · exact .same rfl rfl rfl rfl id (.refl _)
  · split_ifs
    · exact .refl s
    · exact .same rfl rfl rfl rfl (by rintro ⟨⟩) (.refl _)
  · exact .refl s

theorem Advances.lockAdmission {owner : AdmissionOwner}
    (hnext : s.lockAdmission owner = some s') : s.Advances s' := by
  unfold Teardown.lockAdmission at hnext
  split_ifs at hnext
  · cases hnext
    exact .same rfl rfl rfl rfl id (.refl _)
  · cases hnext
    exact .refl s

theorem Advances.leave (hnext : s.leave = some s') : s.Advances s' := by
  unfold Teardown.leave at hnext
  split at hnext
  · cases hnext
    exact .same rfl rfl rfl rfl id (.refl _)
  · cases hnext
    exact .same rfl rfl rfl rfl id (.refl _)
  · cases hnext
    exact .same rfl rfl rfl rfl id (.refl _)
  · cases hnext

theorem Advances.resolve {call : ℕ} (hnext : s.resolve call = some s') : s.Advances s' := by
  unfold Teardown.resolve at hnext
  split at hnext
  · cases hnext
    exact .same rfl rfl rfl rfl id (.refl _)
  · cases hnext
    exact .same rfl rfl rfl rfl id (.refl _)
  · cases hnext

theorem Advances.lockReason {call : ℕ} (hnext : s.lockReason call = some s') :
    s.Advances s' := by
  unfold Teardown.lockReason at hnext
  split at hnext
  · split_ifs at hnext
    · cases hnext
      exact .same rfl rfl rfl rfl id (.refl _)
    · cases hnext
      exact .same rfl rfl rfl rfl id (.refl _)
  · cases hnext

theorem Advances.afterWin {call : ℕ} (hnext : s.afterWin call = some s') : s.Advances s' := by
  unfold Teardown.afterWin at hnext
  split at hnext
  · cases hnext
    exact .same rfl rfl rfl rfl (by rintro ⟨⟩) (.refl _)
  · cases hnext
    exact .same rfl rfl rfl rfl id (.refl _)
  · cases hnext

/-- The cleanup empties the store of the pending SUBMITs and shuts the admission. -/
theorem Advances.cleanup {index : ℕ} {event : TeardownEvent}
    (hnext : s.cleanupNext index event = some s') : s.Advances s' := by
  unfold Teardown.cleanupNext at hnext
  split_ifs at hnext
  obtain ⟨spool, hspool, rfl⟩ := Option.map_eq_some_iff.mp hnext
  have hcleans := EventSpool.cleans_cleanupNext hspool
  refine { Advances.refl s with admission := hcleans.rank, pending := fun _ => ?_ }
  change spool.pending.Sublist s.spool.pending
  rcases hcleans.pending with hsame | hempty
  · rw [hsame]
  · rw [hempty]
    exact List.nil_sublist _

end Teardown

end CmppProtocol
