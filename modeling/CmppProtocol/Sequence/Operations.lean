import CmppProtocol.Sequence.Preservation
import Mathlib.Data.Finset.Dedup
import Mathlib.Data.Finset.Lattice.Basic

/-! # What the registry operations return

The automatic cursor returns an id above everything it has passed; a batch is
granted as a whole or not at all; retiring blocks the id or, on a full table,
changes nothing. The loop of the cursor takes at most one round for each
reservation and each range, and one to leave.
-/

namespace CmppProtocol

open IntervalTable

namespace SequenceState

variable {s s' : SequenceState} {id x : ℕ}

theorem round_inl (h : s.WellFormed) (hr : s.reserveNextRound = .inl s') :
    RoundAgain s s' := by
  unfold reserveNextRound at hr
  split at hr
  · cases hr
  · next id hn =>
    split at hr
    · next start stop hf =>
      obtain ⟨hfl, hle⟩ := Option.filter_eq_some_iff.mp hf
      obtain ⟨hm, hlo, _⟩ := OrderedMap.floor_some hfl
      exact passed_range h hn hm hlo (of_decide_eq_true hle) (Sum.inl.inj hr).symm
    · next hf =>
      have hfree : id ∉ covered s.retired := by
        rw [h.canonical.covered_iff_floor]
        rintro ⟨p, hp, hle⟩
        exact absurd (decide_eq_true hle) (Option.filter_eq_none_iff.mp hf p hp)
      simp only at hr
      split_ifs at hr with hres
      exact passed_reserved h hn hfree hres (Sum.inl.inj hr).symm

/-- How the loop leaves: the cursor is exhausted or stands on a free id. -/
theorem round_inr {r : Option ℕ} (h : s.WellFormed) (hr : s.reserveNextRound = .inr (r, s')) :
    (r = none ∧ s.nextAutomatic = none ∧ s' = s) ∨
    ∃ id, r = some id ∧ s.nextAutomatic = some id ∧ id ∉ covered s.retired ∧ id ∉ s.reserved ∧
      s' = { s with
        automaticUsedThrough := some id
        nextAutomatic := checkedSucc id
        reserved := insert id s.reserved } := by
  unfold reserveNextRound at hr
  split at hr
  · next hn =>
    simp only [Sum.inr.injEq, Prod.mk.injEq] at hr
    exact Or.inl ⟨hr.1.symm, hn, hr.2.symm⟩
  · next id hn =>
    split at hr
    · cases hr
    · next hf =>
      simp only at hr
      split_ifs at hr with hres
      simp only [Sum.inr.injEq, Prod.mk.injEq] at hr
      refine Or.inr ⟨id, hr.1.symm, hn, ?_, hres, hr.2.symm⟩
      rw [h.canonical.covered_iff_floor]
      rintro ⟨p, hp, hle⟩
      exact absurd (decide_eq_true hle) (Option.filter_eq_none_iff.mp hf p hp)

/-- The reservations and the ranges that the cursor has still to pass. -/
def roundsAhead (s : SequenceState) : ℕ :=
  (s.reserved.filter (s.cursor ≤ ·)).card +
    (s.retired.entries.toFinset.filter (s.cursor ≤ ·.2)).card

theorem RoundAgain.roundsAhead_lt (h : RoundAgain s s') : s'.roundsAhead < s.roundsAhead := by
  have hlt := h.cursor_lt
  have hres : s'.reserved.filter (s'.cursor ≤ ·) ⊆ s.reserved.filter (s.cursor ≤ ·) := by
    intro x hx
    simp only [Finset.mem_filter, h.reserved_eq] at hx ⊢
    exact ⟨hx.1, hlt.le.trans hx.2⟩
  have hran : s'.retired.entries.toFinset.filter (s'.cursor ≤ ·.2) ⊆
      s.retired.entries.toFinset.filter (s.cursor ≤ ·.2) := by
    intro p hp
    simp only [Finset.mem_filter, List.mem_toFinset] at hp ⊢
    exact ⟨h.ranges p hp.1 hp.2, hlt.le.trans hp.2⟩
  rcases h.consumed with hc | ⟨p, hp, hle, hp'⟩
  · refine Nat.add_lt_add_of_lt_of_le (Finset.card_lt_card ?_) (Finset.card_le_card hran)
    refine (Finset.ssubset_iff_of_subset hres).mpr ⟨s.cursor, ?_, ?_⟩
    · simpa using hc
    · simp [hlt]
  · refine Nat.add_lt_add_of_le_of_lt (Finset.card_le_card hres) (Finset.card_lt_card ?_)
    refine (Finset.ssubset_iff_of_subset hran).mpr ⟨p, ?_, ?_⟩
    · simpa using ⟨OrderedMap.mem_def.mp hp, hle⟩
    · simp [hp']

theorem roundsAhead_le (s : SequenceState) : s.roundsAhead ≤ s.reserved.card + s.retired.size :=
  Nat.add_le_add (Finset.card_filter_le _ _)
    ((Finset.card_filter_le _ _).trans (List.toFinset_card_le _))

/-- The loop of `reserve_next` leaves after at most one round for each reservation
and each range, and one more. -/
theorem reserveNext_terminates (h : s.WellFormed) :
    ∃ r, Loop.run reserveNextRound (s.reserved.card + s.retired.size + 1) s = some r := by
  obtain ⟨r, hr⟩ : ∃ r, Loop.run reserveNextRound (s.roundsAhead + 1) s = some r :=
    Loop.run_of_measure (I := WellFormed) roundsAhead h fun s s' hs hb =>
      ⟨(round_inl hs hb).wellFormed, (round_inl hs hb).roundsAhead_lt⟩
  exact ⟨r, Loop.run_mono (Nat.succ_le_succ (roundsAhead_le s)) hr⟩

theorem reserveNext_returns (h : s.WellFormed) :
    s.ReserveNext s.reserveNext.1 s.reserveNext.2 := by
  obtain ⟨r, hr⟩ := reserveNext_terminates h
  refine ⟨_, hr.trans ?_⟩
  rw [reserveNext, hr]
  rfl

/-- The state in which `reserve_next` leaves is reached by passing blocked and reserved ids. -/
theorem ReserveNext.passed {r : Option ℕ} (h : s.WellFormed) (hr : ReserveNext s r s') :
    ∃ t, Passed s t ∧ t.reserveNextRound = .inr (r, s') := by
  refine Loop.Returns.invariant (I := Passed s)
    (Q := fun out => ∃ t, Passed s t ∧ t.reserveNextRound = .inr out) hr (Passed.refl h) ?_ ?_
  · intro t t' ht hb
    exact ht.trans (round_inl ht.wellFormed hb).toPassed
  · intro t out ht hb
    exact ⟨t, ht, hb⟩

/-- An id returned by the automatic cursor. -/
structure Issued (s s' : SequenceState) (id : ℕ) : Prop where
  wellFormed : s'.WellFormed
  start_eq : s'.automaticStart = s.automaticStart
  cursor_le : s.cursor ≤ id
  id_le : id ≤ u32Max
  cursor_eq : s'.cursor = id + 1
  not_reserved : id ∉ s.reserved
  not_blocked : id ∉ s.blocked
  reserved_eq : s'.reserved = insert id s.reserved
  blocked_subset : s.blocked ⊆ s'.blocked
  covered_subset : covered s'.retired ⊆ covered s.retired
  passed : ∀ x, s.cursor ≤ x → x < id → x ∈ s.blocked ∨ x ∈ s.reserved

/-- The automatic cursor has run out of ids. -/
structure Exhausted (s s' : SequenceState) : Prop extends Passed s s' where
  next_eq : s'.nextAutomatic = none

theorem reserveNext_none (h : s.WellFormed) (hr : ReserveNext s none s') : Exhausted s s' := by
  obtain ⟨t, ht, hb⟩ := hr.passed h
  rcases round_inr ht.wellFormed hb with ⟨_, hn, rfl⟩ | ⟨id, he, _⟩
  · exact ⟨ht, hn⟩
  · cases he

theorem reserveNext_some (h : s.WellFormed) (hr : ReserveNext s (some id) s') :
    Issued s s' id := by
  obtain ⟨t, ht, hb⟩ := hr.passed h
  rcases round_inr ht.wellFormed hb with ⟨he, _⟩ | ⟨_, he, hn, hfree, hres, hs'⟩
  · cases he
  cases he
  have hw := ht.wellFormed
  have hc := cursor_of_next hn
  have a : Advanced t s' id := by
    subst hs'
    exact ⟨rfl, rfl, rfl, hc.le, hw.next_le id hn⟩
  have hret : s'.retired = t.retired := by rw [hs']
  have hw' : s'.WellFormed := by
    refine a.wellFormed hw (hret ▸ hw.canonical) (hret ▸ hw.retired_le)
      (hret ▸ hw.retired_size) ?_ ?_
    · intro x hx hxid
      have hp := hw.retired_disjoint x (hret ▸ hx)
      rw [Bool.eq_false_iff, ne_eq, hw.prefix_iff, hc] at hp
      have hne : x ≠ id := fun he => hfree (he ▸ hret ▸ hx)
      omega
    · intro x hx
      subst hs'
      rcases Finset.mem_insert.mp hx with rfl | hx
      · exact hw.next_le x hn
      · exact hw.reserved_le x hx
  refine ⟨hw', a.start_eq.trans ht.start_eq, hc ▸ ht.cursor_le, a.upper, a.cursor_eq,
    ht.reserved_eq ▸ hres, ?_, ?_, ?_, hret ▸ ht.covered_subset, hc ▸ ht.passed⟩
  · intro hx
    rcases hw.mem_blocked_iff.mp (ht.blocked_subset hx) with hp | hp
    · omega
    · exact hfree hp
  · rw [hs', ← ht.reserved_eq]
  · intro x hx
    rw [hw'.mem_blocked_iff, a.cursor_eq, a.start_eq, hret]
    rcases hw.mem_blocked_iff.mp (ht.blocked_subset hx) with hp | hp
    · exact Or.inl (by omega)
    · exact Or.inr hp

theorem WellFormed.of_reserved (h : s.WellFormed) {r : Finset ℕ} (hr : ∀ x ∈ r, x ≤ u32Max) :
    WellFormed { s with reserved := r } :=
  ⟨h.start_pos, h.start_le, h.cursor_le, h.next_le, h.prefix_iff, h.canonical, h.retired_le,
    h.retired_size, h.retired_disjoint, hr⟩

@[simp] theorem blocked_of_reserved (s : SequenceState) (r : Finset ℕ) :
    blocked { s with reserved := r } = s.blocked := rfl

@[simp] theorem blocked_release (s : SequenceState) (id : ℕ) : (s.release id).blocked = s.blocked :=
  rfl

theorem WellFormed.release (h : s.WellFormed) (id : ℕ) : (s.release id).WellFormed :=
  h.of_reserved fun x hx => h.reserved_le x (Finset.mem_of_mem_erase hx)

theorem mem_batchIds {base : UInt32} {count : ℕ} :
    x ∈ batchIds base count ↔ ∃ index < count, wrappingAdd base.toNat index = x := by
  simp [batchIds]

theorem batchIds_nodup {base : UInt32} {count : ℕ} (h : count ≤ 255) :
    (batchIds base count).Nodup := by
  refine List.Nodup.map_on ?_ List.nodup_range
  intro i hi j hj he
  simp only [List.mem_range] at hi hj
  simp only [wrappingAdd, u32Max] at he
  omega

theorem batchIds_le {base : UInt32} {count : ℕ} (hx : x ∈ batchIds base count) : x ≤ u32Max := by
  obtain ⟨i, _, rfl⟩ := mem_batchIds.mp hx
  unfold wrappingAdd u32Max
  omega

/-- A batch that is granted holds exactly the ids from the base on, all of them free. -/
structure Granted (s s' : SequenceState) (base : UInt32) (count : ℕ)
    (leases : List SequenceLease) : Prop where
  wellFormed : s'.WellFormed
  count_le : count ≤ 255
  leases_eq : leases = (batchIds base count).map fun id => ⟨id, true, true⟩
  state_eq : s' = { s with reserved := s.reserved ∪ (batchIds base count).toFinset }
  free : ∀ id ∈ batchIds base count, id ∉ s.blocked ∧ id ∉ s.reserved

theorem Granted.blocked_eq {base : UInt32} {count : ℕ} {leases : List SequenceLease}
    (h : Granted s s' base count leases) : s'.blocked = s.blocked := by
  rw [h.state_eq, blocked_of_reserved]

theorem reserveBatch_some {base : UInt32} {count : ℕ} {leases : List SequenceLease}
    (h : s.WellFormed) (hr : s.reserveBatch base count = (some leases, s')) :
    Granted s s' base count leases := by
  simp only [reserveBatch] at hr
  split_ifs at hr with hcount hnodup hused
  · cases hr
  · cases hr
  swap
  · cases hr
  simp only [Prod.mk.injEq, Option.some.injEq] at hr
  have hfree : ∀ id ∈ batchIds base count, s.inAutomaticPrefix id = false ∧ id ∉ s.reserved ∧
      retiredSequenceContains s.retired id = false := by
    simpa [and_assoc] using hused
  refine ⟨?_, not_lt.mp hcount, hr.1.symm, hr.2.symm, ?_⟩
  · rw [← hr.2]
    refine h.of_reserved fun x hx => ?_
    rcases Finset.mem_union.mp hx with hx | hx
    · exact h.reserved_le x hx
    · exact batchIds_le (List.mem_toFinset.mp hx)
  · intro id hid
    obtain ⟨hp, hres, hret⟩ := hfree id hid
    refine ⟨fun hb => ?_, hres⟩
    rcases mem_blocked.mp hb with hb | hb
    · exact absurd hb (by simp [hp])
    · rw [← retiredSequenceContains_iff h.canonical, hret] at hb
      exact absurd hb (by simp)

theorem reserveBatch_none {base : UInt32} {count : ℕ}
    (hr : s.reserveBatch base count = (none, s')) : s' = s := by
  simp only [reserveBatch] at hr
  split_ifs at hr <;> simp_all

/-- Retiring succeeds and blocks the id, or fails on a full table and changes nothing. -/
theorem retire_true (h : s.WellFormed) (hid : id ≤ u32Max) (hr : s.retire id = (true, s')) :
    s'.WellFormed ∧ s'.blocked = insert id s.blocked ∧ s'.reserved = s.reserved.erase id ∧
      s'.automaticStart = s.automaticStart ∧ s'.cursor = s.cursor := by
  have hold : id ∈ s.blocked → insert id s.blocked = s.blocked := Set.insert_eq_of_mem
  unfold retire at hr
  split_ifs at hr with hp hc
  · simp only [Prod.mk.injEq, true_and] at hr
    subst hr
    exact ⟨h.release id, (hold (Or.inl hp)).symm, rfl, rfl, rfl⟩
  · simp only [Prod.mk.injEq, true_and] at hr
    subst hr
    rw [retiredSequenceContains_iff h.canonical] at hc
    exact ⟨h.release id, (hold (Or.inr hc)).symm, rfl, rfl, rfl⟩
  rw [retiredSequenceContains_iff h.canonical] at hc
  split at hr
  · cases hr
  next retired hi =>
  have hins := insertRetiredSequence_true h.canonical h.retired_le h.retired_size hc hid hi
  have hw : WellFormed { s with retired := retired } := by
    refine ⟨h.start_pos, h.start_le, h.cursor_le, h.next_le, h.prefix_iff,
      hins.canonical, hins.bounded, hins.size_le, ?_, h.reserved_le⟩
    intro x hx
    simp only [hins.covered_eq, Set.mem_insert_iff] at hx
    rcases hx with rfl | hx
    · simpa [inAutomaticPrefix] using hp
    · exact h.retired_disjoint x hx
  simp only [Prod.mk.injEq, true_and] at hr
  subst hr
  refine ⟨hw.release id, ?_, rfl, rfl, rfl⟩
  rw [blocked_release]
  simp only [blocked, hins.covered_eq, Set.union_insert]
  rfl

theorem retire_false (h : s.WellFormed) (hid : id ≤ u32Max) (hr : s.retire id = (false, s')) :
    s' = s ∧ id ∉ s.blocked ∧ MAX_RETIRED_SEQUENCE_RANGES ≤ s.retired.size := by
  unfold retire at hr
  split_ifs at hr with hp hc
  · cases hr
  · cases hr
  rw [retiredSequenceContains_iff h.canonical] at hc
  split at hr
  · next retired hi =>
    simp only [Prod.mk.injEq, true_and] at hr
    exact ⟨hr.symm, fun hb => (mem_blocked.mp hb).elim hp hc,
      (insertRetiredSequence_false h.canonical h.retired_le hid hi).2.1⟩
  · cases hr

end SequenceState

end CmppProtocol
