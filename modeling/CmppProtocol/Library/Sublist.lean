import Mathlib.Data.List.Forall2
import Mathlib.Data.List.Nodup

/-! # Parts of a list

A part of a list keeps its order. Of two parts of a list without duplicates the
smaller one is a part of the other, and what stands beside a part of a list is a
part of what stands beside the list.
-/

namespace List

variable {α β : Type*} {R : α → β → Prop} {l l₁ l₂ : List α} {m m' : List β} {a : α}

theorem Sublist.of_subset (hnodup : l.Nodup) (h₁ : l₁.Sublist l) (h₂ : l₂.Sublist l)
    (hsubset : l₁ ⊆ l₂) : l₁.Sublist l₂ := by
  induction h₂ generalizing l₁ with
  | slnil => exact h₁
  | @cons l₂ l a h₂ ih =>
    obtain ⟨hnot, hnodup⟩ := List.nodup_cons.mp hnodup
    cases h₁ with
    | cons _ h₁ => exact ih hnodup h₁ hsubset
    | cons_cons _ _ => exact absurd (h₂.subset (hsubset mem_cons_self)) hnot
  | @cons_cons l₂ l a h₂ ih =>
    obtain ⟨hnot, hnodup⟩ := List.nodup_cons.mp hnodup
    have hrest {l₃ : List α} (h₃ : l₃.Sublist l) (hsub : l₃ ⊆ a :: l₂) : l₃ ⊆ l₂ := by
      intro b hb
      rcases List.mem_cons.mp (hsub hb) with rfl | hmem
      · exact absurd (h₃.subset hb) hnot
      · exact hmem
    cases h₁ with
    | cons _ h₁ => exact (ih hnodup h₁ (hrest h₁ hsubset)).cons a
    | cons_cons _ h₁ =>
      exact (ih hnodup h₁ (hrest h₁ (cons_subset.mp hsubset).2)).cons_cons a

/-- A part of the right list corresponds to a part of the left one. -/
theorem Forall₂.exists_sublist (h : Forall₂ R l m) (hsub : m'.Sublist m) :
    ∃ l', l'.Sublist l ∧ Forall₂ R l' m' := by
  induction hsub generalizing l with
  | slnil =>
    cases h
    exact ⟨[], .slnil, .nil⟩
  | cons b _ ih =>
    cases h with
    | @cons a _ l _ _ h =>
      obtain ⟨l', hl', hrel⟩ := ih h
      exact ⟨l', hl'.cons a, hrel⟩
  | cons_cons b _ ih =>
    cases h with
    | @cons a _ l _ hab h =>
      obtain ⟨l', hl', hrel⟩ := ih h
      exact ⟨a :: l', hl'.cons_cons a, .cons hab hrel⟩

theorem Forall₂.exists_of_mem (h : Forall₂ R l m) (hmem : a ∈ l) : ∃ b, R a b := by
  induction h with
  | nil => cases hmem
  | cons hab _ ih =>
    rcases List.mem_cons.mp hmem with rfl | hmem
    · exact ⟨_, hab⟩
    · exact ih hmem

theorem Forall₂.exists_mem (h : Forall₂ R l m) (hmem : a ∈ l) : ∃ b ∈ m, R a b := by
  induction h with
  | nil => cases hmem
  | @cons _ b _ _ hab _ ih =>
    rcases List.mem_cons.mp hmem with rfl | hmem
    · exact ⟨b, List.mem_cons_self, hab⟩
    · obtain ⟨b, hb, hab⟩ := ih hmem
      exact ⟨b, List.mem_cons_of_mem _ hb, hab⟩

theorem Forall₂.and_right {p : β → Prop} (h : Forall₂ R l m) (hp : ∀ b ∈ m, p b) :
    Forall₂ (fun a b => R a b ∧ p b) l m := by
  induction h with
  | nil => exact .nil
  | cons hab _ ih =>
    obtain ⟨hb, hp⟩ := List.forall_mem_cons.mp hp
    exact .cons ⟨hab, hb⟩ (ih hp)

end List
