import CmppProtocol.Connection.Ledger

/-! # Submit calls balance the ledger

A call trades leases with the registry; an admission moves one of them, with a
permit, into the window; the end of a call gives back all that is left.
-/

namespace CmppProtocol

open SequenceLease SequenceState

namespace Connection

variable {gbk : Gbk} {config : ConnectionConfig} {s s' : Connection} {index : ℕ}
  {call call' : SubmitCall}

@[simp] theorem finish_holdings (s : Connection) : s.finish.holdings = s.holdings := by
  rw [finish_eq]
  rfl

@[simp] theorem beginClosing_holdings (s : Connection) (drainSubmits : Bool) :
    (s.beginClosing drainSubmits).2.holdings = s.holdings := by
  rw [beginClosing]
  split
  · rfl
  · split_ifs <;> rfl
  · rfl

/-! ## Submit calls -/

theorem obtainLease_some {registry registry' : SequenceState} {lease : Option SequenceLease}
    {obtained : SequenceLease} (hwf : ∃ ids, registry.Holds ids)
    (h : obtainLease registry lease = (some obtained, registry')) :
    Keeps registry registry' ∧
      (∀ ids, registry.Holds (held lease.toList + ids) → registry'.Holds (held [obtained] + ids)) ∧
      (lease = some obtained ∨ lease = none ∧ obtained.releaseOnDrop = true ∧
        obtained.manual = false ∧ obtained.sequenceId ∉ registry.blocked ∧
        obtained.sequenceId ∈ registry'.blocked) := by
  obtain ⟨ids, hwf⟩ := hwf
  cases lease with
  | some lease =>
    simp only [obtainLease, Prod.mk.injEq, Option.some.injEq] at h
    obtain ⟨rfl, rfl⟩ := h
    exact ⟨.refl _, fun _ hids => hids, Or.inl rfl⟩
  | none =>
    simp only [obtainLease] at h
    split at h
    · next id registry' hnext =>
      simp only [Prod.mk.injEq, Option.some.injEq] at h
      obtain ⟨rfl, rfl⟩ := h
      obtain ⟨_, hkeeps, hnew, hblocked⟩ := hwf.issue hnext
      refine ⟨hkeeps, fun ids hids => ?_, Or.inr ⟨rfl, rfl, rfl, hnew, hblocked⟩⟩
      rw [Option.toList_none, held_nil, zero_add] at hids
      rw [held_releasable rfl, Multiset.singleton_add]
      exact (hids.issue hnext).1
    · cases h

@[simp] theorem endCall_setCall (s : Connection) (call'' : SubmitCall) (stage : CallStage) :
    (s.setCall index call').endCall index call'' stage = s.endCall index call'' stage := by
  simp only [endCall, setCall, List.set_set]

theorem commitSubmit_holdings (s : Connection) (lease : SequenceLease) (packet : List UInt8)
    (key : SubmitAttemptKey) :
    (s.commitSubmit index call lease packet key).holdings = { s.holdings with
      calls := s.calls.set index { call with
        udhExposed := call.udhReference.isSome
        sequenceIds := call.sequenceIds ++ [key.sequenceId]
        stage := .looping }
      pending := s.pendingSubmits.insert key.sequenceId
        ⟨key.submissionId, packet, .queued 1, call.udhReference.map fun _ => index, lease⟩
      admitted := s.log.admissions.map Admission.sequenceId ++ [key.sequenceId] } := by
  simp only [commitSubmit, holdings, setCall, List.map_append, List.map_cons, List.map_nil]

/-- A call that ends gives back all that it holds. -/
theorem ledger_endCall (h : Ledger config s.holdings) (hcall : s.calls[index]? = some call)
    {stage : CallStage} (hstage : (∃ result, stage = .returned result) ∨ stage = .cancelled) :
    Ledger config (s.endCall index call stage).holdings := by
  have hleases : SubmitCall.leases { call with stage, manualSequenceLeases := [] } = [] := by
    rcases hstage with ⟨result, rfl⟩ | rfl <;> rfl
  have hpermit :
      SubmitCall.holdsPermit { call with stage, manualSequenceLeases := [] } = false := by
    rcases hstage with ⟨result, rfl⟩ | rfl <;> rfl
  refine h.moveCall { call with stage, manualSequenceLeases := [] } hcall
    (fun ids hids => ?_) (keeps_dropLeases _ call.leases) ?_ ⟨?_, ?_, ?_, ?_, fun _ => rfl⟩
  · rw [hleases, held_nil, zero_add]
    exact holds_dropLeases hids
  · rw [hpermit]
    rfl
  · rw [hleases]
    exact fun l hl => absurd hl List.not_mem_nil
  · rw [hleases]
    exact fun l hl => absurd hl List.not_mem_nil
  · rw [hleases]
    exact fun l hl => absurd hl List.not_mem_nil
  · intro l packet key hk
    rcases hstage with ⟨result, rfl⟩ | rfl <;> rcases hk with hk | hk <;> cases hk

/-- A call that moves on with the leases that it has. -/
theorem holding_of_leases {registry : SequenceState} {admitted retireFailed : List ℕ}
    (h : call.Holding registry admitted retireFailed) (hleases : call'.leases = call.leases)
    (hstage : ∀ l error, call.stage ≠ .failing (some l) error)
    (hkeyed : ∀ l packet key,
      call'.stage = .encoded l packet key ∨ call'.stage = .reserved l packet key →
        key.sequenceId = l.sequenceId ∧ key.attempt = 1)
    (hclear : call'.stage = .entered ∨ call'.ended = true → call'.manualSequenceLeases = []) :
    call'.Holding registry admitted retireFailed := by
  refine ⟨?_, hleases ▸ h.automatic, hleases ▸ h.fresh, hkeyed, hclear⟩
  intro l hl
  rcases h.releasable l (hleases ▸ hl) with hr | ⟨_, error, he⟩
  · exact Or.inl hr
  · exact absurd he (hstage l error)

theorem ledger_move (h : Ledger config s.holdings) (hcall : s.calls[index]? = some call)
    (hleases : call'.leases = call.leases) (hpermit : call'.holdsPermit = call.holdsPermit)
    (hstage : ∀ l error, call.stage ≠ .failing (some l) error)
    (hkeyed : ∀ l packet key,
      call'.stage = .encoded l packet key ∨ call'.stage = .reserved l packet key →
        key.sequenceId = l.sequenceId ∧ key.attempt = 1)
    (hclear : call'.stage = .entered ∨ call'.ended = true → call'.manualSequenceLeases = []) :
    Ledger config (s.setCall index call').holdings :=
  h.moveCall call' hcall (fun _ hids => hleases ▸ hids) (.refl _) (by rw [hpermit]; rfl)
    (holding_of_leases (h.calls call (List.mem_of_getElem? hcall)) hleases hstage hkeyed hclear)

theorem ledger_granted {base : UInt32} {count : ℕ} {leases : List SequenceLease}
    {sequenceRegistry : SequenceState} {udhReference : Option UInt8}
    (h : Ledger config s.holdings) (hcall : s.calls[index]? = some call)
    (hstage : call.stage = .entered)
    (hgrant : s.sequenceRegistry.reserveBatch base count = (some leases, sequenceRegistry)) :
    Ledger config (({ s with sequenceRegistry } : Connection).setCall index
      { call with udhReference, stage := .looping, manualSequenceLeases := leases }).holdings := by
  obtain ⟨_, hkeeps, hleases, hfree⟩ := h.holds.grant hgrant
  have hnone : call.leases = [] := by
    simp only [SubmitCall.leases, SubmitCall.lease, hstage,
      (h.calls call (List.mem_of_getElem? hcall)).clear (Or.inl hstage), Option.toList_none,
      List.append_nil]
  refine h.moveCall
    { call with udhReference, stage := .looping, manualSequenceLeases := leases } hcall
    (fun ids hids => ?_) hkeeps ?_ ⟨?_, ?_, ?_, fun l packet key hk => ?_, fun hk => ?_⟩
  · rw [hnone, held_nil, zero_add] at hids
    exact (hids.grant hgrant).1
  · simp only [SubmitCall.holdsPermit, hstage]
    rfl
  · intro l hl
    rw [hleases] at hl
    obtain ⟨x, _, rfl⟩ := List.mem_map.mp hl
    exact Or.inl rfl
  · intro l hl hm
    rw [hleases] at hl
    obtain ⟨x, _, rfl⟩ := List.mem_map.mp hl
    cases hm
  · exact fun l hl hm => hfree l hl (h.blocked _ hm)
  · rcases hk with hk | hk <;> cases hk
  · rcases hk with hk | hk <;> cases hk

variable (call') in
/-- The lease that a segment obtains goes into the call. -/
theorem ledger_obtained {lease : Option SequenceLease} {obtained : SequenceLease}
    {sequenceRegistry : SequenceState} (h : Ledger config s.holdings)
    (hcall : s.calls[index]? = some call) (hstage : call.stage = .permitted lease)
    (hobtain : obtainLease s.sequenceRegistry lease = (some obtained, sequenceRegistry))
    (hlease : call'.lease = some obtained)
    (hmanual : call'.manualSequenceLeases = call.manualSequenceLeases)
    (hpermit : call'.holdsPermit = true)
    (hkeyed : ∀ l packet key,
      call'.stage = .encoded l packet key ∨ call'.stage = .reserved l packet key →
        key.sequenceId = l.sequenceId ∧ key.attempt = 1)
    (hended : call'.stage ≠ .entered ∧ call'.ended = false) :
    Ledger config (({ s with sequenceRegistry } : Connection).setCall index call').holdings := by
  obtain ⟨hkeeps, hholds, hsource⟩ := obtainLease_some ⟨_, h.holds⟩ hobtain
  have hold := h.calls call (List.mem_of_getElem? hcall)
  have hleases : call.leases = lease.toList ++ call.manualSequenceLeases := by
    simp only [SubmitCall.leases, SubmitCall.lease, hstage]
  have hleases' : call'.leases = obtained :: call.manualSequenceLeases := by
    rw [SubmitCall.leases, hlease, hmanual]
    rfl
  have hcases : ∀ l ∈ call'.leases, l ∈ call.leases ∨
      l = obtained ∧ obtained.releaseOnDrop = true ∧ obtained.manual = false ∧
        obtained.sequenceId ∉ s.sequenceRegistry.blocked ∧
        obtained.sequenceId ∈ sequenceRegistry.blocked := by
    intro l hl
    rw [hleases'] at hl
    rw [hleases]
    rcases List.mem_cons.mp hl with rfl | hl
    · rcases hsource with rfl | ⟨_, hnew⟩
      · exact Or.inl List.mem_cons_self
      · exact Or.inr ⟨rfl, hnew⟩
    · exact Or.inl (List.mem_append_right _ hl)
  refine h.moveCall call' hcall (fun ids hids => ?_) hkeeps ?_
    ⟨?_, ?_, ?_, hkeyed, fun hk => ?_⟩
  · rw [hleases, held_append, add_assoc] at hids
    rw [hleases', held_cons, add_assoc]
    exact hholds _ hids
  · have hheld : call.holdsPermit = true := by rw [SubmitCall.holdsPermit, hstage]
    rw [hpermit, hheld]
    rfl
  · intro l hl
    rcases hcases l hl with hl | ⟨rfl, hr, _⟩
    · rcases hold.releasable l hl with hr | ⟨_, error, he⟩
      · exact Or.inl hr
      · rw [hstage] at he
        cases he
    · exact Or.inl hr
  · intro l hl hm
    rcases hcases l hl with hl | ⟨rfl, _, _, _, hb⟩
    · exact hkeeps.blocked (hold.automatic l hl hm)
    · exact hb
  · intro l hl hm
    rcases hcases l hl with hl | ⟨rfl, _, _, hnew, _⟩
    · exact hold.fresh l hl hm
    · exact hnew (h.blocked _ hm)
  · rcases hk with hk | hk
    · exact absurd hk hended.1
    · rw [hended.2] at hk
      cases hk

theorem ledger_callStep (h : Ledger config s.holdings) (hcall : s.calls[index]? = some call)
    (hstep : CallStep gbk s index call s') : Ledger config s'.holdings := by
  have hold := h.calls call (List.mem_of_getElem? hcall)
  cases hstep with
  | refused udhReference error hstage _ =>
    exact ledger_move h hcall (by simp only [SubmitCall.leases, SubmitCall.lease, hstage])
      (by simp only [SubmitCall.holdsPermit, hstage]) (by simp [hstage]) (by simp)
      fun _ => hold.clear (Or.inl hstage)
  | automatic udhReference hstage _ =>
    exact ledger_move h hcall (by simp only [SubmitCall.leases, SubmitCall.lease, hstage])
      (by simp only [SubmitCall.holdsPermit, hstage]) (by simp [hstage]) (by simp)
      (by simp [SubmitCall.ended])
  | granted udhReference base leases registry hstage _ hgrant =>
    exact ledger_granted h hcall hstage hgrant
  | finished hstage _ => exact ledger_endCall h hcall (Or.inl ⟨_, rfl⟩)
  | nextManual lease leases hstage _ _ hleases =>
    exact ledger_move h hcall
      (by simp only [SubmitCall.leases, SubmitCall.lease, hstage, hleases]; rfl)
      (by simp only [SubmitCall.holdsPermit, hstage]) (by simp [hstage]) (by simp)
      (by simp [SubmitCall.ended])
  | nextAutomatic hstage _ _ =>
    exact ledger_move h hcall (by simp only [SubmitCall.leases, SubmitCall.lease, hstage])
      (by simp only [SubmitCall.holdsPermit, hstage]) (by simp [hstage]) (by simp)
      (by simp [SubmitCall.ended])
  | permitted lease hstage hpermits =>
    have hleases : SubmitCall.leases { call with stage := .permitted lease } = call.leases := by
      simp only [SubmitCall.leases, SubmitCall.lease, hstage]
    refine h.moveCall { call with stage := .permitted lease } hcall
      (fun ids hids => hleases ▸ hids) (.refl _) ?_
      (holding_of_leases hold hleases (by simp [hstage]) (by simp) (by simp [SubmitCall.ended]))
    change s.windowPermits - 1 + 1 = s.windowPermits + if call.holdsPermit then 1 else 0
    simp only [SubmitCall.holdsPermit, hstage, Bool.false_eq_true, if_false]
    omega
  | closed hstage => exact ledger_endCall h hcall (Or.inl ⟨_, rfl⟩)
  | cancelled _ => exact ledger_endCall h hcall (Or.inr rfl)
  | failed source _ => exact ledger_endCall h hcall (Or.inl ⟨_, rfl⟩)
  | exhausted template registry hstage hnext =>
    have hleases : SubmitCall.leases { call with template, stage := .failing none .channelClosed } =
        call.leases := by
      simp only [SubmitCall.leases, SubmitCall.lease, hstage]
    have hkeeps := (h.holds.exhaust hnext).2
    have hold' : SubmitCall.Holding { call with template, stage := .failing none .channelClosed }
        s.sequenceRegistry s.holdings.admitted s.holdings.retireFailed :=
      holding_of_leases hold hleases (by simp [hstage]) (by simp) (by simp [SubmitCall.ended])
    refine h.moveCall { call with template, stage := .failing none .channelClosed } hcall
      (fun ids hids => hleases ▸ (hids.exhaust hnext).1) hkeeps ?_
      ⟨hold'.releasable, fun l hl hm => hkeeps.blocked (hold'.automatic l hl hm), hold'.fresh,
        hold'.keyed, hold'.clear⟩
    simp only [SubmitCall.holdsPermit, hstage]
    rfl
  | unencodable template lease obtained registry error hstage hobtain =>
    have hobtained := ledger_obtained { call with template, stage := .permitted (some obtained) }
      h hcall hstage hobtain rfl rfl rfl (by simp) (by simp [SubmitCall.ended])
    have hcall' := List.getElem?_set_self (l := s.calls)
      (a := { call with template, stage := .permitted (some obtained) })
      (List.getElem?_eq_some_iff.mp hcall).1
    have hended := ledger_endCall hobtained hcall'
      (Or.inl ⟨.error (partialSubmitError call.sequenceIds error), rfl⟩)
    rw [endCall_setCall] at hended
    exact hended
  | encoded segment lease obtained registry packet hstage _ hobtain _ =>
    have hobtained := ledger_obtained
      { call with
        template := call.template.applySegment segment
        stage := .encoded obtained packet ⟨obtained.sequenceId, s.nextSubmissionId, 1⟩ }
      h hcall hstage hobtain rfl rfl rfl (by
        rintro l packet key (hk | hk) <;> cases hk
        exact ⟨rfl, rfl⟩) (by simp [SubmitCall.ended])
    exact hobtained
  | reserved lease packet key hstage =>
    exact ledger_move h hcall (by simp only [SubmitCall.leases, SubmitCall.lease, hstage])
      (by simp only [SubmitCall.holdsPermit, hstage]) (by simp [hstage]) (by
        rintro l packet key (hk | hk) <;> cases hk
        exact hold.keyed _ _ _ (Or.inl hstage))
      (by simp [SubmitCall.ended])
  | retireFailed lease packet key retired registry hstage _ hretire =>
    exact h.failRetire hcall hstage hretire rfl rfl
  | admitted lease packet key retired registry hstage _ hretire =>
    rw [commitSubmit_holdings]
    exact h.admitSubmit hcall hstage hretire rfl rfl rfl
  | failing lease error hstage =>
    have hcall' : s.finish.calls[index]? = some call := by
      rw [show s.finish.calls = s.calls from congrArg Holdings.calls (finish_holdings s)]
      exact hcall
    exact ledger_endCall (by rw [finish_holdings]; exact h) hcall' (Or.inl ⟨_, rfl⟩)

end Connection

end CmppProtocol
