import CmppProtocol.Sequence.Registry
import Mathlib.Data.Set.Insert

/-! # Invariant of the sequence registry

The automatic prefix is the interval from the automatic start to the cursor.
Used manual ids are a canonical interval table away from that prefix. Together
they are the blocked ids, and no registry operation unblocks one.
-/

namespace CmppProtocol

open IntervalTable

section Table

variable {retired : OrderedMap ℕ ℕ} {x : ℕ}

theorem retiredSequenceContains_iff (h : Canonical retired) :
    retiredSequenceContains retired x = true ↔ x ∈ covered retired := by
  rw [h.covered_iff_floor, retiredSequenceContains]
  split
  · next start stop hf => simp [hf]
  · next hf => simp [hf]

theorem floor_end_lt {p : ℕ × ℕ} (hx : x ∉ covered retired) (hf : retired.floor x = some p) :
    p ∈ retired ∧ p.1 ≤ x ∧ p.2 < x := by
  obtain ⟨hp, hle, _⟩ := OrderedMap.floor_some hf
  refine ⟨hp, hle, ?_⟩
  by_contra hlt
  exact hx ⟨p, hp, hle, not_lt.mp hlt⟩

theorem ceil_start_gt {p : ℕ × ℕ} (h : Canonical retired) (hx : x ∉ covered retired)
    (hf : retired.ceil x = some p) : p ∈ retired ∧ x < p.1 := by
  obtain ⟨hp, hle, _⟩ := OrderedMap.ceil_some hf
  refine ⟨hp, lt_of_le_of_ne hle ?_⟩
  rintro rfl
  exact hx ⟨p, hp, le_rfl, h.ordered p hp⟩

/-- An interval other than the predecessor lies above the point. -/
theorem floor_or_above {p : ℕ × ℕ} (h : Canonical retired) (hp : p ∈ retired) (hpx : p.1 ≤ x) :
    retired.floor x = some p ∨ p.2 + 1 < x := by
  cases hf : retired.floor x with
  | none => exact absurd (OrderedMap.floor_none hf p hp) (not_lt.mpr hpx)
  | some q =>
    obtain ⟨hq, hqx, hmax⟩ := OrderedMap.floor_some hf
    rcases lt_or_eq_of_le (hmax p hp hpx) with hlt | he
    · have := h.separated p hp q hq hlt
      exact Or.inr (by omega)
    · exact Or.inl (by rw [OrderedMap.key_injective hp hq he])

/-- An interval other than the successor lies further above. -/
theorem ceil_or_above {p : ℕ × ℕ} (h : Canonical retired) (hp : p ∈ retired) (hpx : x ≤ p.1) :
    retired.ceil x = some p ∨ x + 1 < p.1 := by
  cases hf : retired.ceil x with
  | none => exact absurd (OrderedMap.ceil_none hf p hp) (not_lt.mpr hpx)
  | some q =>
    obtain ⟨hq, hqx, hmin⟩ := OrderedMap.ceil_some hf
    rcases lt_or_eq_of_le (hmin p hp hpx) with hlt | he
    · have := h.separated q hq p hp hlt
      have := h.ordered q hq
      exact Or.inr (by omega)
    · exact Or.inl (by rw [OrderedMap.key_injective hp hq he.symm])

/-- What inserting an id that is not in the table does to it. -/
structure Inserted (retired retired' : OrderedMap ℕ ℕ) (x : ℕ) : Prop where
  canonical : Canonical retired'
  bounded : ∀ p ∈ retired', p.2 ≤ u32Max
  covered_eq : covered retired' = insert x (covered retired)
  size_le : retired'.size ≤ MAX_RETIRED_SEQUENCE_RANGES

variable (h : Canonical retired) (hb : ∀ p ∈ retired, p.2 ≤ u32Max)
  (hsize : retired.size ≤ MAX_RETIRED_SEQUENCE_RANGES) (hx : x ∉ covered retired)
  (hx32 : x ≤ u32Max)

include h hb hsize hx hx32

theorem inserted_both {p q : ℕ × ℕ} (hp : retired.floor x = some p) (hq : retired.ceil x = some q)
    (hpx : p.2 + 1 = x) (hqx : x + 1 = q.1) :
    Inserted retired ((retired.set p.1 q.2).erase q.1) x := by
  obtain ⟨hpm, hp1, hp2⟩ := floor_end_lt hx hp
  obtain ⟨hqm, hxq⟩ := ceil_start_gt h hx hq
  have hpo := h.ordered p hpm
  have hqo := h.ordered q hqm
  have hne : p.1 ≠ q.1 := by omega
  have hpe : p ∈ retired.erase q.1 := OrderedMap.mem_erase.mpr ⟨hpm, hne⟩
  rw [OrderedMap.erase_set hne]
  refine ⟨(h.erase q.1).set ⟨p.2, hpe⟩ (by omega) ?_, ?_, ?_, ?_⟩
  · intro r hr hrp
    obtain ⟨hrm, hrq⟩ := OrderedMap.mem_erase.mp hr
    rcases lt_or_gt_of_ne hrp with hlt | hgt
    · exact Or.inl (h.separated r hrm p hpm hlt)
    · have hpr := h.separated p hpm r hrm hgt
      rcases lt_or_gt_of_ne hrq with hlt | hgt
      · have := h.separated r hrm q hqm hlt
        have := h.ordered r hrm
        omega
      · exact Or.inr (h.separated q hqm r hrm hgt)
  · intro r hr
    rcases (OrderedMap.mem_set ⟨p.2, hpe⟩).mp hr with rfl | ⟨hr, _⟩
    · exact hb q hqm
    · exact hb r (OrderedMap.mem_erase.mp hr).1
  · rw [covered_set hpe (by omega), covered_erase h hqm]
    ext y
    simp only [Set.mem_union, Set.mem_sdiff, Set.mem_Icc, Set.mem_insert_iff]
    constructor
    · rintro (⟨hy, _⟩ | ⟨hy1, hy2⟩)
      · exact Or.inr hy
      · rcases lt_trichotomy y x with hlt | rfl | hgt
        · exact Or.inr ⟨p, hpm, hy1, by omega⟩
        · exact Or.inl rfl
        · exact Or.inr ⟨q, hqm, by omega, hy2⟩
    · rintro (rfl | hy)
      · exact Or.inr ⟨hp1, by omega⟩
      · by_cases hyq : q.1 ≤ y ∧ y ≤ q.2
        · exact Or.inr ⟨by omega, hyq.2⟩
        · exact Or.inl ⟨hy, hyq⟩
  · rw [OrderedMap.size_set]
    exact OrderedMap.size_erase_le.trans hsize

theorem inserted_previous {p : ℕ × ℕ} (hp : retired.floor x = some p) (hpx : p.2 + 1 = x)
    (hnext : ∀ q, retired.ceil x = some q → x + 1 ≠ q.1) :
    Inserted retired (retired.set p.1 x) x := by
  obtain ⟨hpm, hp1, hp2⟩ := floor_end_lt hx hp
  refine ⟨h.set ⟨p.2, hpm⟩ hp1 ?_, ?_, ?_, ?_⟩
  · intro r hr hrp
    rcases lt_or_gt_of_ne hrp with hlt | hgt
    · exact Or.inl (h.separated r hr p hpm hlt)
    · have := h.separated p hpm r hr hgt
      rcases ceil_or_above h hr (by omega : x ≤ r.1) with hc | hc
      · have := hnext r hc
        have := (ceil_start_gt h hx hc).2
        exact Or.inr (by omega)
      · exact Or.inr hc
  · intro r hr
    rcases (OrderedMap.mem_set ⟨p.2, hpm⟩).mp hr with rfl | ⟨hr, _⟩
    · exact hx32
    · exact hb r hr
  · rw [covered_set hpm hp2.le]
    ext y
    simp only [Set.mem_union, Set.mem_Icc, Set.mem_insert_iff]
    constructor
    · rintro (hy | ⟨hy1, hy2⟩)
      · exact Or.inr hy
      · rcases lt_or_eq_of_le hy2 with hlt | rfl
        · exact Or.inr ⟨p, hpm, hy1, by omega⟩
        · exact Or.inl rfl
    · rintro (rfl | hy)
      · exact Or.inr ⟨hp1, le_rfl⟩
      · exact Or.inl hy
  · rw [OrderedMap.size_set]
    exact hsize

theorem inserted_next {q : ℕ × ℕ} (hq : retired.ceil x = some q) (hqx : x + 1 = q.1)
    (hprev : ∀ p, retired.floor x = some p → p.2 + 1 ≠ x) :
    Inserted retired ((retired.erase q.1).insert x q.2) x := by
  obtain ⟨hqm, hxq⟩ := ceil_start_gt h hx hq
  have hqo := h.ordered q hqm
  have hfree : ∀ w, (x, w) ∉ retired.erase q.1 := fun w hw =>
    hx ⟨(x, w), (OrderedMap.mem_erase.mp hw).1, le_rfl, h.ordered _ (OrderedMap.mem_erase.mp hw).1⟩
  refine ⟨(h.erase q.1).insert (by omega) ?_, ?_, ?_, ?_⟩
  · intro r hr hrx
    obtain ⟨hrm, hrq⟩ := OrderedMap.mem_erase.mp hr
    rcases lt_or_gt_of_ne hrq with hlt | hgt
    · rcases floor_or_above h hrm (by omega : r.1 ≤ x) with hf | hf
      · have := hprev r hf
        have := (floor_end_lt hx hf).2.2
        exact Or.inl (by omega)
      · exact Or.inl hf
    · exact Or.inr (h.separated q hqm r hrm hgt)
  · intro r hr
    rcases OrderedMap.mem_insert.mp hr with rfl | ⟨hr, _⟩
    · exact hb q hqm
    · exact hb r (OrderedMap.mem_erase.mp hr).1
  · rw [covered_insert hfree, covered_erase h hqm]
    ext y
    simp only [Set.mem_union, Set.mem_sdiff, Set.mem_Icc, Set.mem_insert_iff]
    constructor
    · rintro (⟨hy, _⟩ | ⟨hy1, hy2⟩)
      · exact Or.inr hy
      · rcases lt_or_eq_of_le hy1 with hlt | rfl
        · exact Or.inr ⟨q, hqm, by omega, hy2⟩
        · exact Or.inl rfl
    · rintro (rfl | hy)
      · exact Or.inr ⟨le_rfl, by omega⟩
      · by_cases hyq : q.1 ≤ y ∧ y ≤ q.2
        · exact Or.inr ⟨by omega, hyq.2⟩
        · exact Or.inl ⟨hy, hyq⟩
  · have hlt := OrderedMap.size_erase_lt (m := retired) (k := q.1) (v := q.2) hqm
    have hle := OrderedMap.size_insert_le (m := retired.erase q.1) (k := x) (v := q.2)
    omega

omit hsize in
theorem inserted_alone (hprev : ∀ p, retired.floor x = some p → p.2 + 1 ≠ x)
    (hnext : ∀ q, retired.ceil x = some q → x + 1 ≠ q.1)
    (hroom : retired.size < MAX_RETIRED_SEQUENCE_RANGES) :
    Inserted retired (retired.insert x x) x := by
  have hfree : ∀ w, (x, w) ∉ retired := fun w hw => hx ⟨(x, w), hw, le_rfl, h.ordered _ hw⟩
  refine ⟨h.insert le_rfl ?_, ?_, ?_, ?_⟩
  · intro r hr hrx
    rcases lt_or_gt_of_ne hrx with hlt | hgt
    · rcases floor_or_above h hr hlt.le with hf | hf
      · have := hprev r hf
        have := (floor_end_lt hx hf).2.2
        exact Or.inl (by omega)
      · exact Or.inl hf
    · rcases ceil_or_above h hr hgt.le with hc | hc
      · have := hnext r hc
        exact Or.inr (by omega)
      · exact Or.inr hc
  · intro r hr
    rcases OrderedMap.mem_insert.mp hr with rfl | ⟨hr, _⟩
    · exact hx32
    · exact hb r hr
  · rw [covered_insert hfree, Set.Icc_self, Set.union_singleton]
  · have hle := OrderedMap.size_insert_le (m := retired) (k := x) (v := x)
    omega

theorem insertRetiredSequence_true {retired' : OrderedMap ℕ ℕ}
    (hi : insertRetiredSequence retired x = (true, retired')) : Inserted retired retired' x := by
  unfold insertRetiredSequence at hi
  have hsucc : ∀ q ∈ retired, x < q.1 → x < u32Max := fun q hq hlt =>
    lt_of_lt_of_le (lt_of_lt_of_le hlt (h.ordered q hq)) (hb q hq)
  have hprev : ∀ p, retired.floor x = some p →
      (checkedSucc p.2 = some x ↔ p.2 + 1 = x) := by
    intro p hp
    have := (floor_end_lt hx hp).2.2
    rw [checkedSucc_eq_some]
    omega
  have hnext : ∀ q, retired.ceil x = some q → (checkedSucc x = some q.1 ↔ x + 1 = q.1) := by
    intro q hq
    obtain ⟨hqm, hlt⟩ := ceil_start_gt h hx hq
    have := hsucc q hqm hlt
    rw [checkedSucc_eq_some]
    omega
  -- One case for each pair of neighbours that the id joins.
  cases hjp : (retired.floor x).filter fun r => checkedSucc r.2 = some x with
  | some p =>
    obtain ⟨hp, hpx⟩ := Option.filter_eq_some_iff.mp hjp
    rw [decide_eq_true_iff, hprev p hp] at hpx
    cases hjn : (retired.ceil x).filter fun r => checkedSucc x = some r.1 with
    | some q =>
      obtain ⟨hq, hqx⟩ := Option.filter_eq_some_iff.mp hjn
      rw [decide_eq_true_iff, hnext q hq] at hqx
      simp only [hjp, hjn, Prod.mk.injEq, true_and] at hi
      exact hi ▸ inserted_both h hb hsize hx hx32 hp hq hpx hqx
    | none =>
      simp only [hjp, hjn, Prod.mk.injEq, true_and] at hi
      refine hi ▸ inserted_previous h hb hsize hx hx32 hp hpx fun q hq hqx => ?_
      have hf := Option.filter_eq_none_iff.mp hjn q hq
      simp [hnext q hq, hqx] at hf
  | none =>
    have hnp : ∀ p, retired.floor x = some p → p.2 + 1 ≠ x := by
      intro p hp hpx
      have hf := Option.filter_eq_none_iff.mp hjp p hp
      simp [hprev p hp, hpx] at hf
    cases hjn : (retired.ceil x).filter fun r => checkedSucc x = some r.1 with
    | some q =>
      obtain ⟨hq, hqx⟩ := Option.filter_eq_some_iff.mp hjn
      rw [decide_eq_true_iff, hnext q hq] at hqx
      simp only [hjp, hjn, Prod.mk.injEq, true_and] at hi
      exact hi ▸ inserted_next h hb hsize hx hx32 hq hqx hnp
    | none =>
      simp only [hjp, hjn] at hi
      split_ifs at hi with hfull
      · simp at hi
      simp only [Prod.mk.injEq, true_and] at hi
      refine hi ▸ inserted_alone h hb hx hx32 hnp (fun q hq hqx => ?_) (not_le.mp hfull)
      have hf := Option.filter_eq_none_iff.mp hjn q hq
      simp [hnext q hq, hqx] at hf

omit hsize hx in
/-- Insertion fails only on a full table, for an id that touches no range. -/
theorem insertRetiredSequence_false {retired' : OrderedMap ℕ ℕ}
    (hi : insertRetiredSequence retired x = (false, retired')) :
    retired' = retired ∧ MAX_RETIRED_SEQUENCE_RANGES ≤ retired.size ∧
      ∀ p ∈ retired, p.2 + 1 ≠ x ∧ x + 1 ≠ p.1 := by
  unfold insertRetiredSequence at hi
  cases hjp : (retired.floor x).filter fun r => checkedSucc r.2 = some x with
  | some p =>
    cases hjn : (retired.ceil x).filter fun r => checkedSucc x = some r.1 <;> simp [hjp, hjn] at hi
  | none =>
    cases hjn : (retired.ceil x).filter fun r => checkedSucc x = some r.1 with
    | some q => simp [hjp, hjn] at hi
    | none =>
      simp only [hjp, hjn] at hi
      split_ifs at hi with hfull
      swap
      · simp at hi
      simp only [Prod.mk.injEq, true_and] at hi
      refine ⟨hi.symm, hfull, fun p hp => ⟨fun hpx => ?_, fun hpx => ?_⟩⟩
      · have hpo := h.ordered p hp
        rcases floor_or_above h hp (by omega : p.1 ≤ x) with hf | hf
        · have he := Option.filter_eq_none_iff.mp hjp p hf
          rw [decide_eq_true_iff, checkedSucc_eq_some] at he
          omega
        · omega
      · have hpo := h.ordered p hp
        have hpb := hb p hp
        rcases ceil_or_above h hp (by omega : x ≤ p.1) with hf | hf
        · have he := Option.filter_eq_none_iff.mp hjn p hf
          rw [decide_eq_true_iff, checkedSucc_eq_some] at he
          omega
        · omega

end Table

end CmppProtocol
