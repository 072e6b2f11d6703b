import Mathlib.Algebra.GroupWithZero.Nat
import Mathlib.Data.List.Basic

/-! # One place of a list

An item found at an index splits the list around it. Replacing, removing and
changing the item there leaves both sides as they are.
-/

namespace List

variable {α β : Type*} {l : List α} {i : ℕ} {a : α}

/-- The list around the item at an index, and what an update of that item gives. -/
structure Focus (l : List α) (i : ℕ) (a : α) (pre post : List α) : Prop where
  split : l = pre ++ a :: post
  set : ∀ b, l.set i b = pre ++ b :: post
  erase : l.eraseIdx i = pre ++ post
  modify : ∀ f, l.modify i f = pre ++ f a :: post

theorem exists_focus (h : l[i]? = some a) : ∃ pre post, Focus l i a pre post := by
  induction l generalizing i with
  | nil => cases h
  | cons b l ih =>
    cases i with
    | zero =>
      cases h
      exact ⟨[], l, rfl, fun _ => rfl, rfl, fun _ => rfl⟩
    | succ i =>
      obtain ⟨pre, post, hf⟩ := ih h
      refine ⟨b :: pre, post, ?_, fun c => ?_, ?_, fun f => ?_⟩
      · rw [hf.split, cons_append]
      · rw [set_cons_succ, hf.set, cons_append]
      · rw [eraseIdx_cons_succ, hf.erase, cons_append]
      · rw [modify_succ_cons, hf.modify, cons_append]

theorem ite_toNat (b : Bool) : (if b then 1 else 0) = b.toNat := by
  cases b with
  | true => rfl
  | false => rfl

/-- What a count loses at the index and what it gains. -/
theorem countP_set_add (h : l[i]? = some a) (p : α → Bool) (b : α) :
    (l.set i b).countP p + (p a).toNat = l.countP p + (p b).toNat := by
  obtain ⟨pre, post, hf⟩ := exists_focus h
  rw [hf.set]
  conv_rhs => rw [hf.split]
  simp only [countP_append, countP_cons, ite_toNat]
  omega

/-- What a sum loses at the index and what it gains. -/
theorem sum_map_set_add (h : l[i]? = some a) (f : α → ℕ) (b : α) :
    ((l.set i b).map f).sum + f a = (l.map f).sum + f b := by
  obtain ⟨pre, post, hf⟩ := exists_focus h
  rw [hf.set]
  conv_rhs => rw [hf.split]
  simp only [map_append, map_cons, sum_append, sum_cons]
  omega

end List
