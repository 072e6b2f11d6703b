import Mathlib.Algebra.GroupWithZero.Nat
import Mathlib.Algebra.BigOperators.Group.List.Basic
import Mathlib.Tactic.SplitIfs

/-! # Greedy splitting

A list of weighted items is cut into consecutive pieces: a piece takes items as
long as they fit under the limit, and at least one.
-/

namespace Greedy

variable {α : Type*} {w : α → ℕ} {limit : ℕ} {cur xs : List α} {p : List α}

def weight (w : α → ℕ) (xs : List α) : ℕ := (xs.map w).sum

/-- Split with a piece already begun. -/
def piecesFrom (w : α → ℕ) (limit : ℕ) (cur : List α) : List α → List (List α)
  | [] => [cur]
  | x :: xs =>
    if weight w cur ≠ 0 ∧ limit < weight w cur + w x then
      cur :: piecesFrom w limit [x] xs
    else piecesFrom w limit (cur ++ [x]) xs

def pieces (w : α → ℕ) (limit : ℕ) (xs : List α) : List (List α) := piecesFrom w limit [] xs

@[simp] theorem weight_nil : weight w [] = 0 := rfl

theorem weight_append (xs ys : List α) : weight w (xs ++ ys) = weight w xs + weight w ys := by
  rw [weight, List.map_append, List.sum_append, weight, weight]

@[simp] theorem weight_singleton (x : α) : weight w [x] = w x := by simp [weight]

theorem weight_cons (x : α) (xs : List α) : weight w (x :: xs) = w x + weight w xs := by
  simp [weight]

theorem flatten_piecesFrom : (piecesFrom w limit cur xs).flatten = cur ++ xs := by
  induction xs generalizing cur with
  | nil => simp [piecesFrom]
  | cons x xs ih =>
    rw [piecesFrom]
    split_ifs
    · rw [List.flatten_cons, ih, List.singleton_append]
    · rw [ih, List.append_assoc, List.singleton_append]

theorem weight_le_of_mem_piecesFrom (hw : ∀ x, w x ≤ limit) (hcur : weight w cur ≤ limit)
    (hp : p ∈ piecesFrom w limit cur xs) : weight w p ≤ limit := by
  induction xs generalizing cur with
  | nil =>
    rw [piecesFrom, List.mem_singleton] at hp
    exact hp ▸ hcur
  | cons x xs ih =>
    rw [piecesFrom] at hp
    split_ifs at hp with h
    · rcases List.mem_cons.mp hp with rfl | hp
      · exact hcur
      · exact ih (by simpa using hw x) hp
    · refine ih ?_ hp
      have hx := hw x
      rw [weight_append, weight_singleton]
      omega

theorem ne_nil_of_mem_piecesFrom (hcur : cur ≠ [] ∨ xs ≠ []) (hp : p ∈ piecesFrom w limit cur xs) :
    p ≠ [] := by
  induction xs generalizing cur with
  | nil =>
    rw [piecesFrom, List.mem_singleton] at hp
    exact hp ▸ hcur.resolve_right (not_not.mpr rfl)
  | cons x xs ih =>
    rw [piecesFrom] at hp
    split_ifs at hp with h
    · rcases List.mem_cons.mp hp with rfl | hp
      · rintro rfl
        exact h.1 rfl
      · exact ih (Or.inl (List.cons_ne_nil x [])) hp
    · exact ih (Or.inl (List.append_ne_nil_of_right_ne_nil cur (List.cons_ne_nil x []))) hp

@[simp] theorem flatten_pieces (w : α → ℕ) (limit : ℕ) (xs : List α) :
    (pieces w limit xs).flatten = xs := flatten_piecesFrom

theorem weight_le_of_mem_pieces (hw : ∀ x, w x ≤ limit) (hp : p ∈ pieces w limit xs) :
    weight w p ≤ limit :=
  weight_le_of_mem_piecesFrom hw (show weight w [] ≤ limit from Nat.zero_le limit) hp

theorem ne_nil_of_mem_pieces (hxs : xs ≠ []) (hp : p ∈ pieces w limit xs) : p ≠ [] :=
  ne_nil_of_mem_piecesFrom (Or.inr hxs) hp

/-- More than one piece is needed when the whole does not fit. -/
theorem one_lt_length_pieces (hw : ∀ x, w x ≤ limit) (h : limit < weight w xs) :
    1 < (pieces w limit xs).length := by
  by_contra hle
  have hfl := flatten_pieces w limit xs
  match hp : pieces w limit xs with
  | [] =>
    rw [hp] at hfl
    rw [← hfl] at h
    exact absurd h (Nat.not_lt_zero limit)
  | [p] =>
    have hmem : p ∈ pieces w limit xs := hp ▸ List.mem_singleton_self p
    rw [hp, List.flatten_singleton] at hfl
    rw [← hfl] at h
    exact absurd (weight_le_of_mem_pieces hw hmem) (Nat.not_le.mpr h)
  | p :: q :: ps =>
    rw [hp] at hle
    simp at hle

/-! ## The greedy split is minimal -/

/-- A fuller piece begun needs at least as many pieces, and any other at most one less. -/
theorem length_piecesFrom_le (xs : List α) (cur cur' : List α) :
    (piecesFrom w limit cur xs).length ≤ (piecesFrom w limit cur' xs).length + 1 ∧
      (weight w cur ≤ weight w cur' →
        (piecesFrom w limit cur xs).length ≤ (piecesFrom w limit cur' xs).length) := by
  induction xs generalizing cur cur' with
  | nil => exact ⟨Nat.le_succ 1, fun _ => Nat.le_refl 1⟩
  | cons x xs ih =>
    have hone : weight w [x] ≤ weight w (cur' ++ [x]) := by
      rw [weight_append]
      exact Nat.le_add_left _ _
    have hbegun := (ih [x] (cur' ++ [x])).2 hone
    have hany := (ih (cur ++ [x]) [x]).1
    rw [piecesFrom, piecesFrom]
    constructor
    · split_ifs
      · exact Nat.le_succ _
      · rw [List.length_cons]
        exact Nat.succ_le_succ hbegun
      · rw [List.length_cons]
        exact Nat.le_trans hany (Nat.le_succ _)
      · exact (ih _ _).1
    · intro hle
      split_ifs with hcut hcut' hcut'
      · exact Nat.le_refl _
      · -- A piece that is full makes every fuller one full.
        exact absurd ⟨by omega, by omega⟩ hcut'
      · rw [List.length_cons]
        exact hany
      · apply (ih _ _).2
        rw [weight_append, weight_append]
        exact Nat.add_le_add_right hle _

/-- Items that fit go into the piece begun. -/
theorem piecesFrom_append (ys : List α) (h : weight w cur + weight w xs ≤ limit) :
    piecesFrom w limit cur (xs ++ ys) = piecesFrom w limit (cur ++ xs) ys := by
  induction xs generalizing cur with
  | nil => rw [List.nil_append, List.append_nil]
  | cons x xs ih =>
    rw [weight_cons] at h
    rw [List.cons_append, piecesFrom, if_neg (by omega), ih, List.append_assoc,
      List.singleton_append]
    rw [weight_append, weight_singleton]
    omega

/-- No other way to cut needs fewer pieces. -/
theorem length_pieces_le {qs : List (List α)} (hfit : ∀ q ∈ qs, weight w q ≤ limit)
    (hne : qs ≠ []) :
    (pieces w limit qs.flatten).length ≤ qs.length := by
  induction qs with
  | nil => exact absurd rfl hne
  | cons q qs ih =>
    have hq : weight w [] + weight w q ≤ limit := by
      rw [weight_nil, Nat.zero_add]
      exact hfit q List.mem_cons_self
    rw [pieces, List.flatten_cons, piecesFrom_append _ hq, List.nil_append]
    cases qs with
    | nil => exact Nat.le_refl 1
    | cons r qs =>
      have hrest := ih (fun p hp => hfit p (List.mem_cons_of_mem _ hp)) (List.cons_ne_nil r qs)
      have hfirst : (piecesFrom w limit q (r :: qs).flatten).length ≤
          (piecesFrom w limit [] (r :: qs).flatten).length + 1 :=
        (length_piecesFrom_le (r :: qs).flatten q []).1
      rw [List.length_cons]
      exact Nat.le_trans hfirst (Nat.succ_le_succ hrest)

/-! ## Chunks of equal size -/

/-- Cut into chunks of `n` items with a chunk already begun; the last one may be shorter. -/
def chunksFrom (n : ℕ) (cur : List α) : List α → List (List α)
  | [] => if cur = [] then [] else [cur]
  | x :: xs => if cur.length = n then cur :: chunksFrom n [x] xs else chunksFrom n (cur ++ [x]) xs

def chunks (n : ℕ) (xs : List α) : List (List α) := chunksFrom n [] xs

variable {n : ℕ}

theorem chunksFrom_map {β : Type*} (f : α → β) (cur xs : List α) :
    chunksFrom n (cur.map f) (xs.map f) = (chunksFrom n cur xs).map (List.map f) := by
  induction xs generalizing cur with
  | nil =>
    simp only [chunksFrom, List.map_nil, List.map_eq_nil_iff]
    split_ifs <;> rfl
  | cons x xs ih =>
    have h₁ := ih [x]
    have h₂ := ih (cur ++ [x])
    simp only [List.map_append, List.map_cons, List.map_nil] at h₁ h₂
    simp only [chunksFrom, List.map_cons, List.length_map, h₁, h₂]
    split_ifs <;> rfl

theorem flatten_chunksFrom : (chunksFrom n cur xs).flatten = cur ++ xs := by
  induction xs generalizing cur with
  | nil =>
    rw [chunksFrom]
    split_ifs with h
    · rw [h]
      rfl
    · rw [List.flatten_singleton, List.append_nil]
  | cons x xs ih =>
    rw [chunksFrom]
    split_ifs with h
    · rw [List.flatten_cons, ih, List.singleton_append]
    · rw [ih, List.append_assoc, List.singleton_append]

@[simp] theorem flatten_chunks (n : ℕ) (xs : List α) : (chunks n xs).flatten = xs :=
  flatten_chunksFrom

theorem chunksFrom_eq_piecesFrom (hn : 0 < n) (hcur : cur.length ≤ n) (hne : cur ≠ [] ∨ xs ≠ []) :
    chunksFrom n cur xs = piecesFrom (fun _ => 1) n cur xs := by
  induction xs generalizing cur with
  | nil => rw [chunksFrom, piecesFrom, if_neg (hne.resolve_right (not_not.mpr rfl))]
  | cons x xs ih =>
    have hw : weight (fun _ => 1) cur = cur.length := by simp [weight]
    rw [chunksFrom, piecesFrom, hw]
    by_cases hlen : cur.length = n
    · rw [if_pos hlen, if_pos (by omega),
        ih (show [x].length ≤ n from hn) (Or.inl (List.cons_ne_nil x []))]
    · rw [if_neg hlen, if_neg (by omega)]
      refine ih ?_ (Or.inl (List.append_ne_nil_of_right_ne_nil cur (List.cons_ne_nil x [])))
      rw [List.length_append, List.length_singleton]
      omega

theorem chunks_map {β : Type*} (f : α → β) (xs : List α) :
    chunks n (xs.map f) = (chunks n xs).map (List.map f) := chunksFrom_map f [] xs

theorem chunks_eq_pieces (hn : 0 < n) (hxs : xs ≠ []) : chunks n xs = pieces (fun _ => 1) n xs :=
  chunksFrom_eq_piecesFrom hn (Nat.zero_le n) (Or.inr hxs)

theorem length_chunksFrom (hn : 0 < n) (hcur : cur.length ≤ n) :
    (chunksFrom n cur xs).length = (cur.length + xs.length + (n - 1)) / n := by
  induction xs generalizing cur with
  | nil =>
    rw [chunksFrom]
    split_ifs with h
    · subst h
      exact (Nat.div_eq_of_lt (by simp; omega)).symm
    · have := List.length_pos_iff.mpr h
      have h₁ : cur.length + 0 + (n - 1) = cur.length - 1 + n := by omega
      rw [List.length_nil, h₁, Nat.add_div_right _ hn, Nat.div_eq_of_lt (by omega)]
      rfl
  | cons x xs ih =>
    rw [chunksFrom]
    split_ifs with h
    · have h₁ : cur.length + (xs.length + 1) + (n - 1) = 1 + xs.length + (n - 1) + n := by omega
      rw [List.length_cons, ih (show [x].length ≤ n from hn), List.length_singleton,
        List.length_cons, h₁, Nat.add_div_right _ hn]
    · rw [ih (by rw [List.length_append, List.length_singleton]; omega), List.length_append,
        List.length_singleton, List.length_cons]
      congr 1
      omega

theorem length_chunks (hn : 0 < n) (xs : List α) :
    (chunks n xs).length = (xs.length + (n - 1)) / n := by
  have h := @length_chunksFrom _ [] xs n hn (Nat.zero_le n)
  rwa [List.length_nil, Nat.zero_add] at h

end Greedy
