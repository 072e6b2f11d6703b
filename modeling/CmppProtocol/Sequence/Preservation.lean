import CmppProtocol.Sequence.Invariant
import Mathlib.Tactic.Tauto

/-! # Registry operations keep the invariant

Each operation has one specification: what it returns, how the cursor, the
reservations and the blocked ids change, and that the invariant is kept.
-/

namespace CmppProtocol

open IntervalTable

namespace SequenceState

variable {s s' : SequenceState} {id x : ℕ}

/-- The next id the automatic cursor tries; one past the last `u32` when it is exhausted. -/
def cursor (s : SequenceState) : ℕ := s.nextAutomatic.getD (u32Max + 1)

def automaticPrefix (s : SequenceState) : Set ℕ := {x | s.inAutomaticPrefix x = true}

/-- The ids that no later reservation may hand out. -/
def blocked (s : SequenceState) : Set ℕ := s.automaticPrefix ∪ covered s.retired

structure WellFormed (s : SequenceState) : Prop where
  start_pos : 1 ≤ s.automaticStart
  start_le : s.automaticStart ≤ s.cursor
  cursor_le : s.cursor ≤ u32Max + 1
  next_le : ∀ n, s.nextAutomatic = some n → n ≤ u32Max
  prefix_iff : ∀ x, s.inAutomaticPrefix x = true ↔ s.automaticStart ≤ x ∧ x < s.cursor
  canonical : Canonical s.retired
  retired_le : ∀ p ∈ s.retired, p.2 ≤ u32Max
  retired_size : s.retired.size ≤ MAX_RETIRED_SEQUENCE_RANGES
  retired_disjoint : ∀ x ∈ covered s.retired, s.inAutomaticPrefix x = false
  reserved_le : ∀ x ∈ s.reserved, x ≤ u32Max

theorem cursor_of_checkedSucc {u : ℕ} (hs : s.nextAutomatic = checkedSucc u) (hu : u ≤ u32Max) :
    s.cursor = u + 1 := by
  unfold cursor checkedSucc at *
  split_ifs at hs with h <;> simp only [hs, Option.getD_some, Option.getD_none]
  omega

theorem mem_blocked :
    x ∈ s.blocked ↔ s.inAutomaticPrefix x = true ∨ x ∈ covered s.retired := Iff.rfl

theorem WellFormed.mem_blocked_iff (h : s.WellFormed) :
    x ∈ s.blocked ↔ (s.automaticStart ≤ x ∧ x < s.cursor) ∨ x ∈ covered s.retired := by
  rw [mem_blocked, h.prefix_iff]

theorem WellFormed.covered_le (h : s.WellFormed) (hx : x ∈ covered s.retired) : x ≤ u32Max := by
  obtain ⟨p, hp, hpx⟩ := hx
  exact hpx.2.trans (h.retired_le p hp)

theorem WellFormed.blocked_le (h : s.WellFormed) (hx : x ∈ s.blocked) : x ≤ u32Max := by
  rcases h.mem_blocked_iff.mp hx with hx | hx
  · have := h.cursor_le
    omega
  · exact h.covered_le hx

theorem new_wellFormed (next : UInt32) : (new next).WellFormed := by
  have hlt : next.toNat < 4294967296 := next.toNat_lt
  have hle : max next.toNat 1 ≤ u32Max := by unfold u32Max; omega
  refine ⟨le_max_right _ _, le_rfl, by simp only [new, cursor, Option.getD_some]; omega, ?_, ?_,
    canonical_empty, by simp [new], by simp [new], by simp [new], by simp [new]⟩
  · intro n hn
    cases hn
    exact hle
  · intro x
    simp only [new, inAutomaticPrefix, cursor, Option.getD_some, Bool.false_eq_true, false_iff]
    omega

/-- The cursor has moved up to and including `u`. -/
structure Advanced (s s' : SequenceState) (u : ℕ) : Prop where
  start_eq : s'.automaticStart = s.automaticStart
  used_eq : s'.automaticUsedThrough = some u
  next_eq : s'.nextAutomatic = checkedSucc u
  lower : s.cursor ≤ u
  upper : u ≤ u32Max

theorem Advanced.cursor_eq (a : Advanced s s' id) : s'.cursor = id + 1 :=
  cursor_of_checkedSucc a.next_eq a.upper

theorem Advanced.prefix_iff (a : Advanced s s' id) :
    s'.inAutomaticPrefix x = true ↔ s'.automaticStart ≤ x ∧ x < s'.cursor := by
  simp only [inAutomaticPrefix, a.used_eq, a.cursor_eq, Bool.and_eq_true, decide_eq_true_eq]
  omega

/-- An advance keeps the invariant when the table gives up what the prefix has swallowed. -/
theorem Advanced.wellFormed (a : Advanced s s' id) (h : s.WellFormed)
    (hc : Canonical s'.retired) (hle : ∀ p ∈ s'.retired, p.2 ≤ u32Max)
    (hsize : s'.retired.size ≤ MAX_RETIRED_SEQUENCE_RANGES)
    (hd : ∀ x ∈ covered s'.retired, ¬ (s.automaticStart ≤ x ∧ x ≤ id))
    (hr : ∀ x ∈ s'.reserved, x ≤ u32Max) : s'.WellFormed where
  start_pos := a.start_eq ▸ h.start_pos
  start_le := by
    have := h.start_le
    have := a.lower
    rw [a.start_eq, a.cursor_eq]
    omega
  cursor_le := by have := a.upper; rw [a.cursor_eq]; omega
  next_le n hn := by
    rw [a.next_eq] at hn
    have := checkedSucc_eq_some.mp hn
    omega
  prefix_iff x := a.prefix_iff
  canonical := hc
  retired_le := hle
  retired_size := hsize
  retired_disjoint x hx := by
    rw [Bool.eq_false_iff, ne_eq, a.prefix_iff, a.start_eq, a.cursor_eq]
    have := hd x hx
    omega
  reserved_le := hr

/-- The cursor has passed blocked and reserved ids only. -/
structure Passed (s s' : SequenceState) : Prop where
  wellFormed : s'.WellFormed
  start_eq : s'.automaticStart = s.automaticStart
  reserved_eq : s'.reserved = s.reserved
  cursor_le : s.cursor ≤ s'.cursor
  blocked_subset : s.blocked ⊆ s'.blocked
  covered_subset : covered s'.retired ⊆ covered s.retired
  passed : ∀ x, s.cursor ≤ x → x < s'.cursor → x ∈ s.blocked ∨ x ∈ s.reserved

theorem Passed.refl (h : s.WellFormed) : Passed s s :=
  ⟨h, rfl, rfl, le_rfl, subset_rfl, subset_rfl, fun _ hx hx' => absurd hx (not_le.mpr hx')⟩

theorem Passed.trans {s'' : SequenceState} (h : Passed s s') (h' : Passed s' s'') :
    Passed s s'' := by
  refine ⟨h'.wellFormed, h'.start_eq.trans h.start_eq, h'.reserved_eq.trans h.reserved_eq,
    h.cursor_le.trans h'.cursor_le, h.blocked_subset.trans h'.blocked_subset,
    h'.covered_subset.trans h.covered_subset, ?_⟩
  intro x hx hx'
  by_cases hlt : x < s'.cursor
  · exact h.passed x hx hlt
  · rcases h'.passed x (not_lt.mp hlt) hx' with hb | hr
    · rcases h.wellFormed.mem_blocked_iff.mp hb with hp | hc
      · exact absurd hp.2 hlt
      · exact Or.inl (Or.inr (h.covered_subset hc))
    · exact Or.inr (h.reserved_eq ▸ hr)

/-- A round that goes round again uses up the reservation or the range at the cursor. -/
structure RoundAgain (s s' : SequenceState) : Prop extends Passed s s' where
  cursor_lt : s.cursor < s'.cursor
  ranges : ∀ p ∈ s'.retired, s'.cursor ≤ p.2 → p ∈ s.retired
  consumed : s.cursor ∈ s.reserved ∨ ∃ p ∈ s.retired, s.cursor ≤ p.2 ∧ p.2 < s'.cursor

theorem cursor_of_next (hn : s.nextAutomatic = some id) : s.cursor = id := by
  simp [cursor, hn]

theorem passed_reserved (h : s.WellFormed) (hn : s.nextAutomatic = some id)
    (hfree : id ∉ covered s.retired) (hres : id ∈ s.reserved)
    (hs' : s' = { s with automaticUsedThrough := some id, nextAutomatic := checkedSucc id }) :
    RoundAgain s s' := by
  have hc := cursor_of_next hn
  have a : Advanced s s' id := by
    subst hs'
    exact ⟨rfl, rfl, rfl, hc.le, h.next_le id hn⟩
  have hw : s'.WellFormed := by
    refine a.wellFormed h ?_ ?_ ?_ ?_ ?_ <;> subst hs'
    · exact h.canonical
    · exact h.retired_le
    · exact h.retired_size
    · intro x hx hxid
      have hp := h.retired_disjoint x hx
      rw [Bool.eq_false_iff, ne_eq, h.prefix_iff, hc] at hp
      have hne : x ≠ id := fun he => hfree (he ▸ hx)
      omega
    · exact h.reserved_le
  have hlt : s.cursor < s'.cursor := by rw [a.cursor_eq, hc]; omega
  have hret : s'.retired = s.retired := by rw [hs']
  refine ⟨⟨hw, a.start_eq, by rw [hs'], hlt.le, ?_, by rw [hret], ?_⟩, hlt,
    fun p hp _ => hret ▸ hp, Or.inl (hc ▸ hres)⟩
  · intro x hx
    rw [hw.mem_blocked_iff, a.cursor_eq, a.start_eq, hret]
    rw [h.mem_blocked_iff, hc] at hx
    rcases hx with hx | hx
    · exact Or.inl (by omega)
    · exact Or.inr hx
  · intro x hx hx'
    rw [a.cursor_eq] at hx'
    exact Or.inr ((show x = id by omega) ▸ hres)

/-- The table without a range that the cursor has come to, but for the part of the range below the
automatic start. -/
def trimmed (s : SequenceState) (start : ℕ) : OrderedMap ℕ ℕ :=
  if start < s.automaticStart then (s.retired.erase start).insert start (s.automaticStart - 1)
  else s.retired.erase start

theorem covered_trimmed (h : s.WellFormed) {start stop : ℕ} (hm : (start, stop) ∈ s.retired)
    (hlo : start ≤ s.cursor) (hhi : s.cursor ≤ stop) :
    covered (s.trimmed start) =
      {x | x ∈ covered s.retired ∧ ¬ (s.automaticStart ≤ x ∧ x ≤ stop)} := by
  have hstart := h.start_le
  have hpos := h.start_pos
  have herase := covered_erase h.canonical hm
  -- No id of another range lies between the automatic start and the end of this one.
  have hother : ∀ x ∈ covered s.retired, ¬ (start ≤ x ∧ x ≤ stop) →
      ¬ (s.automaticStart ≤ x ∧ x ≤ stop) := by
    intro x hx hnot hin
    have hp := h.retired_disjoint x hx
    rw [Bool.eq_false_iff, ne_eq, h.prefix_iff] at hp
    omega
  unfold trimmed
  ext x
  simp only [Set.mem_ofPred_eq]
  split_ifs with hlt
  · rw [covered_insert fun w hw => (OrderedMap.mem_erase.mp hw).2 rfl, herase]
    simp only [Set.mem_union, Set.mem_sdiff, Set.mem_Icc]
    constructor
    · rintro (⟨hx, hnot⟩ | hx)
      · exact ⟨hx, hother x hx hnot⟩
      · exact ⟨⟨_, hm, hx.1, by simp only; omega⟩, by omega⟩
    · rintro ⟨hx, hnot⟩
      by_cases hin : start ≤ x ∧ x ≤ stop
      · exact Or.inr (by omega)
      · exact Or.inl ⟨hx, hin⟩
  · rw [herase]
    simp only [Set.mem_sdiff, Set.mem_Icc]
    constructor
    · rintro ⟨hx, hnot⟩
      exact ⟨hx, hother x hx hnot⟩
    · rintro ⟨hx, hnot⟩
      exact ⟨hx, by omega⟩

/-- What is left in the table was there, or it is the part below the automatic start. -/
theorem mem_trimmed {start : ℕ} {p : ℕ × ℕ} (hp : p ∈ s.trimmed start) :
    p ∈ s.retired ∨ p = (start, s.automaticStart - 1) := by
  unfold trimmed at hp
  split_ifs at hp
  · rcases OrderedMap.mem_insert.mp hp with rfl | ⟨hp, _⟩
    · exact Or.inr rfl
    · exact Or.inl (OrderedMap.mem_erase.mp hp).1
  · exact Or.inl (OrderedMap.mem_erase.mp hp).1

theorem canonical_trimmed (h : s.WellFormed) {start stop : ℕ} (hm : (start, stop) ∈ s.retired)
    (hhi : s.cursor ≤ stop) : Canonical (s.trimmed start) := by
  have hstart := h.start_le
  have hpos := h.start_pos
  unfold trimmed
  split_ifs with hlt
  · refine (h.canonical.erase start).insert (by omega) fun p hp hne => ?_
    have hpm := (OrderedMap.mem_erase.mp hp).1
    rcases lt_or_gt_of_ne hne with hp' | hp'
    · exact Or.inl (h.canonical.separated p hpm _ hm hp')
    · have := h.canonical.separated _ hm p hpm hp'
      simp only at this
      exact Or.inr (by omega)
  · exact h.canonical.erase start

theorem size_trimmed_le {start stop : ℕ} (hm : (start, stop) ∈ s.retired) :
    (s.trimmed start).size ≤ s.retired.size := by
  have hlt := OrderedMap.size_erase_lt hm
  unfold trimmed
  split_ifs
  · have := OrderedMap.size_insert_le (m := s.retired.erase start) (k := start)
      (v := s.automaticStart - 1)
    omega
  · omega

theorem passed_range (h : s.WellFormed) (hn : s.nextAutomatic = some id) {start stop : ℕ}
    (hm : (start, stop) ∈ s.retired) (hlo : start ≤ id) (hhi : id ≤ stop)
    (hs' : s' = { s with
      automaticUsedThrough := some stop
      nextAutomatic := checkedSucc stop
      retired := s.trimmed start }) :
    RoundAgain s s' := by
  have hc := cursor_of_next hn
  have hstart := h.start_le
  have hcursor := h.cursor_le
  have hret : s'.retired = s.trimmed start := by rw [hs']
  have a : Advanced s s' stop := by
    subst hs'
    exact ⟨rfl, rfl, rfl, hc ▸ hhi, h.retired_le _ hm⟩
  have hcov := covered_trimmed h hm (hc ▸ hlo) (hc ▸ hhi)
  rw [← hret] at hcov
  have hmemle : ∀ p ∈ s'.retired, p.2 ≤ u32Max := by
    intro p hp
    rcases mem_trimmed (hret ▸ hp) with hp | rfl
    · exact h.retired_le p hp
    · simp only
      omega
  have hw : s'.WellFormed := by
    refine a.wellFormed h ?_ hmemle ?_ ?_ ?_
    · rw [hret]
      exact canonical_trimmed h hm (hc ▸ hhi)
    · rw [hret]
      exact (size_trimmed_le hm).trans h.retired_size
    · intro x hx
      rw [hcov] at hx
      exact hx.2
    · rw [hs']
      exact h.reserved_le
  have hlt : s.cursor < s'.cursor := by rw [a.cursor_eq, hc]; omega
  refine ⟨⟨hw, a.start_eq, by rw [hs'], hlt.le, ?_, ?_, ?_⟩, hlt, ?_,
    Or.inr ⟨_, hm, hc ▸ hhi, by rw [a.cursor_eq]; exact Nat.lt_succ_self stop⟩⟩
  · intro x hx
    rw [hw.mem_blocked_iff, a.cursor_eq, a.start_eq, hcov]
    rw [h.mem_blocked_iff, hc] at hx
    simp only [Set.mem_ofPred_eq]
    rcases hx with hx | hx
    · exact Or.inl (by omega)
    · by_cases hin : s.automaticStart ≤ x ∧ x ≤ stop
      · exact Or.inl (by omega)
      · exact Or.inr ⟨hx, hin⟩
  · intro x hx
    rw [hcov] at hx
    exact hx.1
  · intro x hx hx'
    rw [a.cursor_eq] at hx'
    exact Or.inl (Or.inr ⟨_, hm, by simp only; omega, by simp only; omega⟩)
  · intro p hp hle
    rw [a.cursor_eq] at hle
    rcases mem_trimmed (hret ▸ hp) with hp | rfl
    · exact hp
    · simp only at hle
      omega

end SequenceState

end CmppProtocol
