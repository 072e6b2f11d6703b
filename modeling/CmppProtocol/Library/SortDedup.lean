import Mathlib.Data.List.Sort
import Mathlib.Order.Lattice

/-! # Sorting and dropping repeats

A list of keys is turned into the increasing list of its members: sort it, then
drop every item that equals the one before it.
-/

variable {α : Type*} [LinearOrder α] {a b : α} {l : List α}

/-- Drop every item that equals the one before it. -/
def dropRepeats : List α → List α
  | [] => []
  | [a] => [a]
  | a :: b :: l => if a = b then dropRepeats (b :: l) else a :: dropRepeats (b :: l)

def sortDedup (l : List α) : List α := dropRepeats (l.insertionSort (· ≤ ·))

theorem mem_dropRepeats (l : List α) : a ∈ dropRepeats l ↔ a ∈ l := by
  induction l using dropRepeats.induct with
  | case1 => rfl
  | case2 b => rfl
  | case3 b l ih =>
    rw [dropRepeats, if_pos rfl, ih]
    constructor
    · exact List.mem_cons_of_mem b
    · intro h
      rcases List.mem_cons.mp h with rfl | h
      · exact List.mem_cons_self
      · exact h
  | case4 b c l hne ih => rw [dropRepeats, if_neg hne, List.mem_cons, ih, ← List.mem_cons]

theorem dropRepeats_lt (h : l.Pairwise (· ≤ ·)) : (dropRepeats l).Pairwise (· < ·) := by
  induction l using dropRepeats.induct with
  | case1 => exact .nil
  | case2 a => exact List.pairwise_singleton _ a
  | case3 a l ih =>
    rw [dropRepeats, if_pos rfl]
    exact ih (List.Pairwise.of_cons h)
  | case4 a b l hne ih =>
    rw [dropRepeats, if_neg hne]
    obtain ⟨hle, hrest⟩ := List.pairwise_cons.mp h
    apply List.pairwise_cons.mpr
    constructor
    · intro c hc
      have hab : a < b := lt_of_le_of_ne (hle b List.mem_cons_self) hne
      rcases List.mem_cons.mp ((mem_dropRepeats _).mp hc) with rfl | hc
      · exact hab
      · exact hab.trans_le ((List.pairwise_cons.mp hrest).1 c hc)
    · exact ih hrest

@[simp] theorem mem_sortDedup : a ∈ sortDedup l ↔ a ∈ l := by
  rw [sortDedup, mem_dropRepeats, List.mem_insertionSort]

theorem sortDedup_nodup (l : List α) : (sortDedup l).Nodup :=
  (dropRepeats_lt (List.pairwise_insertionSort _ l)).imp fun h => h.ne
