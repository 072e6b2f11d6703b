import CmppProtocol.Library.OrderedMap
import Mathlib.Order.Interval.Set.Basic

/-! # Tables of closed intervals

An ordered map from left to right ends stands for a set of natural numbers. A
table is canonical when its intervals are non-empty, disjoint and not adjacent;
then the predecessor of a point is the only interval that can contain it.
-/

namespace IntervalTable

variable {m : OrderedMap ℕ ℕ} {p q : ℕ × ℕ} {x a b : ℕ}

/-- The numbers that lie in some interval of the table. -/
def covered (m : OrderedMap ℕ ℕ) : Set ℕ := {x | ∃ p ∈ m, p.1 ≤ x ∧ x ≤ p.2}

theorem mem_covered : x ∈ covered m ↔ ∃ p ∈ m, p.1 ≤ x ∧ x ≤ p.2 := Iff.rfl

@[simp] theorem covered_empty : covered .empty = ∅ := by
  ext x; simp [mem_covered]

/-- Intervals are non-empty and two of them leave at least one number between them. -/
structure Canonical (m : OrderedMap ℕ ℕ) : Prop where
  ordered : ∀ p ∈ m, p.1 ≤ p.2
  separated : ∀ p ∈ m, ∀ q ∈ m, p.1 < q.1 → p.2 + 1 < q.1

theorem canonical_empty : Canonical .empty := ⟨by simp, by simp⟩

namespace Canonical

theorem interval_unique (h : Canonical m) (hp : p ∈ m) (hq : q ∈ m)
    (hpx : p.1 ≤ x ∧ x ≤ p.2) (hqx : q.1 ≤ x ∧ x ≤ q.2) : p = q := by
  rcases lt_trichotomy p.1 q.1 with hlt | heq | hlt
  · have := h.separated p hp q hq hlt; omega
  · exact OrderedMap.key_injective hp hq heq
  · have := h.separated q hq p hp hlt; omega

/-- The interval below a covered number is the one that covers it. -/
theorem floor_of_covered (h : Canonical m) (hp : p ∈ m) (hx : p.1 ≤ x ∧ x ≤ p.2) :
    m.floor x = some p := by
  refine OrderedMap.floor_eq_some_iff.mpr ⟨hp, hx.1, fun q hq hqx => ?_⟩
  by_contra hlt
  have hsep := h.separated p hp q hq (not_le.mp hlt)
  omega

theorem covered_iff_floor (h : Canonical m) :
    x ∈ covered m ↔ ∃ p, m.floor x = some p ∧ x ≤ p.2 := by
  constructor
  · rintro ⟨p, hp, hx⟩
    exact ⟨p, h.floor_of_covered hp hx, hx.2⟩
  · rintro ⟨p, hf, hx⟩
    obtain ⟨hp, hpx, _⟩ := OrderedMap.floor_some hf
    exact ⟨p, hp, hpx, hx⟩

theorem erase (h : Canonical m) (k : ℕ) : Canonical (m.erase k) where
  ordered p hp := h.ordered p (OrderedMap.mem_erase.mp hp).1
  separated p hp q hq :=
    h.separated p (OrderedMap.mem_erase.mp hp).1 q (OrderedMap.mem_erase.mp hq).1

/-- An interval that keeps its distance from all others can be added. -/
theorem insert (h : Canonical m) (hab : a ≤ b)
    (hsep : ∀ p ∈ m, p.1 ≠ a → p.2 + 1 < a ∨ b + 1 < p.1) : Canonical (m.insert a b) where
  ordered p hp := by
    rcases OrderedMap.mem_insert.mp hp with rfl | ⟨hp, _⟩
    · exact hab
    · exact h.ordered p hp
  separated p hp q hq hlt := by
    rcases OrderedMap.mem_insert.mp hp with rfl | ⟨hp, hpa⟩ <;>
      rcases OrderedMap.mem_insert.mp hq with rfl | ⟨hq, hqa⟩
    · exact absurd hlt (lt_irrefl _)
    · have := h.ordered q hq
      rcases hsep q hq hqa with hs | hs
      · simp only at hlt; omega
      · exact hs
    · have := h.ordered p hp
      rcases hsep p hp hpa with hs | hs
      · exact hs
      · simp only at hlt; omega
    · exact h.separated p hp q hq hlt

/-- Moving the right end of an interval keeps the table canonical if no other interval is met. -/
theorem set (h : Canonical m) (hm : ∃ w, (a, w) ∈ m) (hab : a ≤ b)
    (hsep : ∀ p ∈ m, p.1 ≠ a → p.2 + 1 < a ∨ b + 1 < p.1) : Canonical (m.set a b) where
  ordered p hp := by
    rcases (OrderedMap.mem_set hm).mp hp with rfl | ⟨hp, _⟩
    · exact hab
    · exact h.ordered p hp
  separated p hp q hq hlt := by
    rcases (OrderedMap.mem_set hm).mp hp with rfl | ⟨hp, hpa⟩ <;>
      rcases (OrderedMap.mem_set hm).mp hq with rfl | ⟨hq, hqa⟩
    · exact absurd hlt (lt_irrefl _)
    · have := h.ordered q hq
      rcases hsep q hq hqa with hs | hs
      · simp only at hlt; omega
      · exact hs
    · have := h.ordered p hp
      rcases hsep p hp hpa with hs | hs
      · exact hs
      · simp only at hlt; omega
    · exact h.separated p hp q hq hlt

end Canonical

theorem covered_erase (h : Canonical m) (hp : p ∈ m) :
    covered (m.erase p.1) = covered m \ Set.Icc p.1 p.2 := by
  ext x
  simp only [mem_covered, OrderedMap.mem_erase, Set.mem_sdiff, Set.mem_Icc]
  constructor
  · rintro ⟨q, ⟨hq, hne⟩, hx⟩
    refine ⟨⟨q, hq, hx⟩, fun hpx => hne ?_⟩
    rw [h.interval_unique hq hp hx hpx]
  · rintro ⟨⟨q, hq, hx⟩, hpx⟩
    refine ⟨q, ⟨hq, fun he => hpx ?_⟩, hx⟩
    rwa [← OrderedMap.key_injective hq hp he]

theorem covered_insert (h : ∀ w, (a, w) ∉ m) :
    covered (m.insert a b) = covered m ∪ Set.Icc a b := by
  ext x
  simp only [mem_covered, OrderedMap.mem_insert, Set.mem_union, Set.mem_Icc]
  constructor
  · rintro ⟨q, rfl | ⟨hq, _⟩, hx⟩
    · exact Or.inr hx
    · exact Or.inl ⟨q, hq, hx⟩
  · rintro (⟨q, hq, hx⟩ | hx)
    · exact ⟨q, Or.inr ⟨hq, fun he => h q.2 (he ▸ hq)⟩, hx⟩
    · exact ⟨(a, b), Or.inl rfl, hx⟩

/-- Extending an interval to the right adds the numbers between its two right ends. -/
theorem covered_set (hp : p ∈ m) (hpb : p.2 ≤ b) :
    covered (m.set p.1 b) = covered m ∪ Set.Icc p.1 b := by
  ext x
  simp only [mem_covered, OrderedMap.mem_set ⟨p.2, hp⟩, Set.mem_union, Set.mem_Icc]
  constructor
  · rintro ⟨q, rfl | ⟨hq, _⟩, hx⟩
    · exact Or.inr hx
    · exact Or.inl ⟨q, hq, hx⟩
  · rintro (⟨q, hq, hx⟩ | hx)
    · by_cases he : q.1 = p.1
      · have hqp := OrderedMap.key_injective hq hp he
        subst hqp
        exact ⟨(q.1, b), Or.inl rfl, hx.1, hx.2.trans hpb⟩
      · exact ⟨q, Or.inr ⟨hq, he⟩, hx⟩
    · exact ⟨(p.1, b), Or.inl rfl, hx⟩

end IntervalTable
