import Mathlib.Data.List.Basic

/-! # Lawful histories

A history is a list of notes, oldest first. It is lawful when every note is
allowed by the notes before it.
-/

namespace History

variable {α : Type*} {allowed : List α → α → Prop} {notes new : List α} {note : α}

def Lawful (allowed : List α → α → Prop) (notes : List α) : Prop :=
  ∀ before note after, notes = before ++ note :: after → allowed before note

theorem lawful_nil : Lawful allowed [] := by
  intro before note after h
  exact absurd h.symm (List.append_ne_nil_of_right_ne_nil _ (List.cons_ne_nil _ _))

theorem lawful_concat :
    Lawful allowed (notes ++ [note]) ↔ Lawful allowed notes ∧ allowed notes note := by
  constructor
  · intro h
    constructor
    · rintro before a after rfl
      exact h before a (after ++ [note]) (by simp)
    · exact h notes note [] rfl
  · rintro ⟨hnotes, hnote⟩ before a after h
    rcases List.eq_nil_or_concat after with rfl | ⟨front, last, rfl⟩
    · obtain ⟨rfl, hlast⟩ := List.append_inj' h rfl
      cases hlast
      exact hnote
    · rw [List.concat_eq_append, ← List.cons_append, ← List.append_assoc] at h
      exact hnotes before a front (List.append_inj' h rfl).1

/-- Notes that are allowed behind any others. -/
theorem Lawful.append (h : Lawful allowed notes) (hnew : ∀ a ∈ new, ∀ before, allowed before a) :
    Lawful allowed (notes ++ new) := by
  induction new generalizing notes with
  | nil => rwa [List.append_nil]
  | cons a new ih =>
    rw [List.append_cons]
    refine ih (lawful_concat.mpr ⟨h, hnew a List.mem_cons_self notes⟩) fun b hb => ?_
    exact hnew b (List.mem_cons_of_mem a hb)

end History
