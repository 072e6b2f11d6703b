import CmppProtocol.Connection.Reached
import CmppProtocol.Sequence.Runs

/-! # Used ids stay isolated

After every run of the registry the table of used manual ids is an exact set in
canonical form. Only the automatic cursor takes ids out of it, those that it has
passed itself, and an id that was admitted can be retired again at any time.
-/

namespace CmppProtocol

open IntervalTable

namespace SequenceState

variable {s s' : SequenceState}

/-- The table of used ids is canonical, within its bounds and read and written as a set. -/
structure RetiredExact (s : SequenceState) : Prop where
  ordered : ∀ p ∈ s.retired, p.1 ≤ p.2 ∧ p.2 ≤ u32Max
  separated : ∀ p ∈ s.retired, ∀ q ∈ s.retired, p ≠ q → p.2 + 1 < q.1 ∨ q.2 + 1 < p.1
  size_le : s.retired.size ≤ MAX_RETIRED_SEQUENCE_RANGES
  contains_iff : ∀ id : UInt32,
    retiredSequenceContains s.retired id.toNat = true ↔ id.toNat ∈ covered s.retired
  inserted : ∀ (id : UInt32) retired, id.toNat ∉ covered s.retired →
    insertRetiredSequence s.retired id.toNat = (true, retired) →
      covered retired = insert id.toNat (covered s.retired)
  refused : ∀ (id : UInt32) retired, id.toNat ∉ covered s.retired →
    insertRetiredSequence s.retired id.toNat = (false, retired) →
      retired = s.retired ∧ s.retired.size = MAX_RETIRED_SEQUENCE_RANGES ∧
        ∀ p ∈ s.retired, p.2 + 1 ≠ id.toNat ∧ id.toNat + 1 ≠ p.1

theorem toNat_le_u32Max (id : UInt32) : id.toNat ≤ u32Max := Nat.le_of_lt_succ id.toNat_lt

theorem WellFormed.retiredExact (h : s.WellFormed) : s.RetiredExact where
  ordered p hp := ⟨h.canonical.ordered p hp, h.retired_le p hp⟩
  separated p hp q hq hne := by
    rcases lt_trichotomy p.1 q.1 with hlt | heq | hgt
    · exact Or.inl (h.canonical.separated p hp q hq hlt)
    · exact absurd (OrderedMap.key_injective hp hq heq) hne
    · exact Or.inr (h.canonical.separated q hq p hp hgt)
  size_le := h.retired_size
  contains_iff _ := retiredSequenceContains_iff h.canonical
  inserted id _ hid hinsert :=
    (insertRetiredSequence_true h.canonical h.retired_le h.retired_size hid (toNat_le_u32Max id)
      hinsert).covered_eq
  refused id _ _ hinsert := by
    obtain ⟨hsame, hfull, hapart⟩ :=
      insertRetiredSequence_false h.canonical h.retired_le (toNat_le_u32Max id) hinsert
    exact ⟨hsame, h.retired_size.antisymm hfull, hapart⟩

/-- Ids that leave the table are blocked still, so that the prefix has swallowed them. -/
theorem swallowed (hblocked : s.blocked ⊆ s'.blocked) :
    covered s.retired \ covered s'.retired ⊆ s'.automaticPrefix := by
  rintro id ⟨hid, hgone⟩
  rcases hblocked (Or.inr hid) with hpassed | hkept
  · exact hpassed
  · exact absurd hkept hgone

end SequenceState

namespace Connection

variable {gbk : Gbk} {config : ConnectionConfig} {s s' : Connection}

/-- A SUBMIT that times out for good retires its id without fail. -/
theorem Sound.retires_timedOut (h : s.Sound config) {now : ℕ} {key : SubmitAttemptKey}
    {keys : List SubmitAttemptKey} {sent : Bool} :
    (s.giveUpSubmit now key keys sent).log.retireFailed = s.log.retireFailed := by
  unfold giveUpSubmit
  split
  · rfl
  · next entry hawaiting =>
    have hfind := (stillAwaiting_some hawaiting).1
    cases sent with
    | false => rfl
    | true =>
      have hretire := (h.ledger.giveUp hfind).1
      simp only [holdings] at hretire
      simp only [hretire, Bool.not_true, Bool.false_eq_true, if_false, if_true]
      rfl

/-- The table of used ids is an exact set after every run of the registry: the cursor takes out
only ids of its own prefix, and the lease of an admitted SUBMIT can always be retired. -/
theorem retired_ranges_exact {first : UInt32} {history : List RegistryEvent}
    {registry : SequenceRegistry} {clock : ℕ} {udhCounter : UInt32} {events : List ConnectionEvent}
    (hregistry : (SequenceRegistry.machine first).Run history registry)
    (hrun : (machine gbk config clock udhCounter).Run events s) :
    registry.state.RetiredExact ∧
    (∀ id registry', SequenceRegistry.Step registry (.reserveNext id) registry' →
      covered registry'.state.retired ⊆ covered registry.state.retired ∧
      covered registry.state.retired \ covered registry'.state.retired ⊆
        registry'.state.automaticPrefix) ∧
    s.sequenceRegistry.RetiredExact ∧
    (∀ sequenceId entry, s.pendingSubmits.find sequenceId = some entry →
      (entry.sequenceLease.retire s.sequenceRegistry).1 = true) ∧
    ∀ sent s', next gbk config s (.timeout (.giveUpSubmit sent)) = some s' →
      s'.log.retireFailed = s.log.retireFailed := by
  have hrecorded := SequenceRegistry.run_recorded hregistry
  have hsound := sound_run hrun
  refine ⟨hrecorded.wellFormed.retiredExact, fun id registry' hstep => ?_,
    hsound.ledger.holds.wellFormed.retiredExact, fun sequenceId entry hfind => ?_,
    fun sent s' hnext => ?_⟩
  · constructor
    · cases hstep with
      | issued hnext =>
        exact (SequenceState.reserveNext_some hrecorded.wellFormed hnext).covered_subset
      | exhausted hnext =>
        exact (SequenceState.reserveNext_none hrecorded.wellFormed hnext).covered_subset
    · exact SequenceState.swallowed (hrecorded.blocked_subset hstep)
  · have hretire := (hsound.ledger.giveUp hfind).1
    exact congrArg Prod.fst hretire
  · simp only [next, timeoutNext] at hnext
    split at hnext
    · split_ifs at hnext
      cases hnext
      exact hsound.retires_timedOut
    · cases hnext

/-- Two ids of a manual batch are retired into one range, while a SUBMIT is in the window. -/
theorem retired_ranges_exact_joined : ∃ history registry events s,
    (SequenceRegistry.machine 2).Run history registry ∧ registry.state.retired.entries = [(5, 6)] ∧
    (machine asciiGbk smallConfig 0 0).Run events s ∧ s.pendingSubmits.size = 1 ∧
    registry.state.RetiredExact ∧ s.sequenceRegistry.RetiredExact := by
  have hgranted : (SequenceState.new 2).reserveBatch 5 2 =
      (some [⟨5, true, true⟩, ⟨6, true, true⟩], _) := rfl
  have hbatch := (Machine.Run.start (m := SequenceRegistry.machine 2) rfl).snoc (.granted hgranted)
  have hregistry := (hbatch.snoc (@SequenceRegistry.Step.retire _ _ [] _ _ _ _ rfl)).snoc
    (@SequenceRegistry.Step.retire _ _ [_] _ _ _ _ rfl)
  have hexec : (Machine.exec (next asciiGbk smallConfig) (initial smallConfig 0 0) admitOne).map
      (fun s => s.pendingSubmits.size) = some 1 := by decide +kernel
  obtain ⟨s, hrun, hsize⟩ := Machine.exists_run_of_exec _ hexec
  have hexact := retired_ranges_exact hregistry hrun
  exact ⟨_, _, _, s, hregistry, rfl, hrun, hsize, hexact.1, hexact.2.2.1⟩

end Connection

end CmppProtocol
