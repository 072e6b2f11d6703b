import Mathlib.Data.List.Basic

/-! # Compaction in place

A loop reads the cells of a list from left to right and decides for each item
whether it stays; items that stay move to the left end. The decision reads and
updates a state, so that earlier items influence later ones. What the loop
leaves is the same as a sweep over the items, one at a time.
-/

namespace Compaction

variable {σ α : Type*} {keep : σ → α → Bool × σ} {leave : α → α} {s : σ} {a : α} {xs : List α}

/-- The state, the cells and how many items stay so far. -/
abbrev Progress (σ α : Type*) := σ × List α × ℕ

/-- Read one cell: an item that stays is taken out of its cell and put behind the last one. -/
def round (keep : σ → α → Bool × σ) (leave : α → α) (p : Progress σ α) (read : ℕ) :
    Progress σ α :=
  let (s, cells, retained) := p
  match cells[read]? with
  | none => p
  | some a =>
    match keep s a with
    | (true, s) => (s, (cells.set read (leave a)).set retained a, retained + 1)
    | (false, s) => (s, cells, retained)

def run (keep : σ → α → Bool × σ) (leave : α → α) (s : σ) (xs : List α) : σ × List α :=
  let (s, cells, retained) := (List.range xs.length).foldl (round keep leave) (s, xs, 0)
  (s, cells.take retained)

/-- The items that stay when each one is decided in turn. -/
def sweep (keep : σ → α → Bool × σ) (s : σ) : List α → σ × List α
  | [] => (s, [])
  | a :: xs =>
    match keep s a with
    | (true, s) =>
      let (s, kept) := sweep keep s xs
      (s, a :: kept)
    | (false, s) => sweep keep s xs

theorem sweep_keep {s' : σ} (h : keep s a = (true, s')) :
    sweep keep s (a :: xs) = ((sweep keep s' xs).1, a :: (sweep keep s' xs).2) := by
  simp only [sweep, h]

theorem sweep_skip {s' : σ} (h : keep s a = (false, s')) :
    sweep keep s (a :: xs) = sweep keep s' xs := by
  simp only [sweep, h]

theorem sweep_sublist (s : σ) (xs : List α) : (sweep keep s xs).2.Sublist xs := by
  induction xs generalizing s with
  | nil => exact .slnil
  | cons a xs ih =>
    cases hk : keep s a with
    | mk stay s' =>
      cases stay with
      | true =>
        rw [sweep_keep hk]
        exact (ih s').cons_cons a
      | false =>
        rw [sweep_skip hk]
        exact (ih s').cons a

theorem sweep_append (s : σ) (xs ys : List α) :
    sweep keep s (xs ++ ys) = ((sweep keep (sweep keep s xs).1 ys).1,
      (sweep keep s xs).2 ++ (sweep keep (sweep keep s xs).1 ys).2) := by
  induction xs generalizing s with
  | nil => rfl
  | cons a xs ih =>
    cases hk : keep s a with
    | mk stay s' =>
      cases stay with
      | true => rw [List.cons_append, sweep_keep hk, sweep_keep hk, ih, List.cons_append]
      | false => rw [List.cons_append, sweep_skip hk, sweep_skip hk, ih]

/-- A sweep filters when no item has a say in the decision about a later one. -/
theorem sweep_filter {s : σ}
    (h : xs.Pairwise fun a b => ∀ s, (keep (keep s a).2 b).1 = (keep s b).1) :
    (sweep keep s xs).2 = xs.filter fun a => (keep s a).1 := by
  induction xs generalizing s with
  | nil => rfl
  | cons a xs ih =>
    obtain ⟨ha, hxs⟩ := List.pairwise_cons.mp h
    have hrest : (xs.filter fun b => (keep (keep s a).2 b).1) = xs.filter fun b => (keep s b).1 :=
      List.filter_congr fun b hb => ha b hb s
    cases hk : keep s a with
    | mk stay s' =>
      rw [hk] at hrest
      cases stay with
      | true =>
        rw [sweep_keep hk, ih hxs, hrest, List.filter_cons_of_pos (by rw [hk])]
      | false =>
        rw [sweep_skip hk, ih hxs, hrest, List.filter_cons_of_neg (by rw [hk]; exact nofun)]

/-- A sweep leaves the items alone that always stay. -/
theorem filter_sweep {p : α → Bool} (h : ∀ a, p a = true → ∀ s, (keep s a).1 = true) (s : σ)
    (xs : List α) : (sweep keep s xs).2.filter p = xs.filter p := by
  induction xs generalizing s with
  | nil => rfl
  | cons a xs ih =>
    cases hk : keep s a with
    | mk stay s' =>
      cases stay with
      | true => rw [sweep_keep hk, List.filter_cons, List.filter_cons, ih]
      | false =>
        have hp : p a = false := by
          by_contra hp
          have hstay := h a ((Bool.not_eq_false _).mp hp) s
          rw [hk] at hstay
          cases hstay
        rw [sweep_skip hk, ih, List.filter_cons_of_neg (by simp [hp])]

/-! ## The decisions of a sweep -/

/-- The state after the items so far. -/
def after (keep : σ → α → Bool × σ) (s : σ) (xs : List α) : σ :=
  xs.foldl (fun s a => (keep s a).2) s

/-- Which items stay. -/
def verdicts (keep : σ → α → Bool × σ) (s : σ) : List α → List Bool
  | [] => []
  | a :: xs => (keep s a).1 :: verdicts keep (keep s a).2 xs

/-- Each item is decided in the state that the items before it have left. -/
theorem verdicts_getElem? (s : σ) (xs : List α) (i : ℕ) :
    (verdicts keep s xs)[i]? = xs[i]?.map fun a => (keep (after keep s (xs.take i)) a).1 := by
  induction xs generalizing s i with
  | nil => rfl
  | cons a xs ih =>
    cases i with
    | zero => rfl
    | succ i => exact ih _ i

theorem sweep_verdicts (s : σ) (xs : List α) :
    sweep keep s xs =
      (after keep s xs, ((xs.zip (verdicts keep s xs)).filter Prod.snd).map Prod.fst) := by
  induction xs generalizing s with
  | nil => rfl
  | cons a xs ih =>
    cases hk : keep s a with
    | mk stay s' =>
      have hafter : after keep s (a :: xs) = after keep s' xs := by
        simp only [after, List.foldl_cons, hk]
      have hverdicts : verdicts keep s (a :: xs) = stay :: verdicts keep s' xs := by
        simp only [verdicts, hk]
      rw [hafter, hverdicts, List.zip_cons_cons]
      cases stay with
      | true => rw [sweep_keep hk, ih, List.filter_cons_of_pos rfl, List.map_cons]
      | false => rw [sweep_skip hk, ih, List.filter_cons_of_neg Bool.false_ne_true]

/-- A sweep ends in the state after all items and keeps those that stay, in their order. -/
theorem sweep_eq (s : σ) (xs : List α) :
    sweep keep s xs = (after keep s xs,
      (xs.zipIdx.filter fun p => (keep (after keep s (xs.take p.2)) p.1).1).map Prod.fst) := by
  have hverdicts : verdicts keep s xs =
      xs.zipIdx.map fun p => (keep (after keep s (xs.take p.2)) p.1).1 := by
    apply List.ext_getElem?
    intro i
    rw [verdicts_getElem?, List.getElem?_map, List.getElem?_zipIdx, Option.map_map, Nat.zero_add]
    rfl
  have hitems : xs = xs.zipIdx.map Prod.fst := by simp
  have hzip : xs.zip (verdicts keep s xs) =
      xs.zipIdx.map fun p => (p.1, (keep (after keep s (xs.take p.2)) p.1).1) := by
    rw [hverdicts]
    nth_rewrite 1 [hitems]
    exact List.zip_map'
  rw [sweep_verdicts, hzip, List.filter_map, List.map_map]
  rfl

/-- What every decision relates, a sweep relates. -/
theorem sweep_relates {R : σ → σ → Prop} (hrefl : ∀ s, R s s)
    (htrans : ∀ s t u, R s t → R t u → R s u) (hkeep : ∀ s a, R s (keep s a).2) (s : σ)
    (xs : List α) : R s (sweep keep s xs).1 := by
  induction xs generalizing s with
  | nil => exact hrefl s
  | cons a xs ih =>
    cases hk : keep s a with
    | mk stay s' =>
      have hs : R s s' := by simpa only [hk] using hkeep s a
      cases stay with
      | true =>
        rw [sweep_keep hk]
        exact htrans _ _ _ hs (ih s')
      | false =>
        rw [sweep_skip hk]
        exact htrans _ _ _ hs (ih s')

/-- One component of the state, which only some of the items read and change. -/
theorem sweep_project {τ : Type*} {part : σ → τ} {mine : α → Bool} {own : τ → α → Bool × τ}
    (hmine : ∀ s a, mine a = true → own (part s) a = ((keep s a).1, part (keep s a).2))
    (hother : ∀ s a, mine a = false → part (keep s a).2 = part s) (s : σ) (xs : List α) :
    sweep own (part s) (xs.filter mine) =
      (part (sweep keep s xs).1, (sweep keep s xs).2.filter mine) := by
  induction xs generalizing s with
  | nil => rfl
  | cons a xs ih =>
    cases hk : keep s a with
    | mk stay s' =>
      cases hm : mine a with
      | true =>
        have hown : own (part s) a = (stay, part s') := by rw [hmine s a hm, hk]
        rw [List.filter_cons_of_pos hm]
        cases stay with
        | true =>
          rw [sweep_keep hk, sweep_keep hown, ih s', List.filter_cons_of_pos hm]
        | false => rw [sweep_skip hk, sweep_skip hown, ih s']
      | false =>
        have hpart : part s = part s' := by rw [← hother s a hm, hk]
        rw [List.filter_cons_of_neg (by simp [hm]), hpart]
        cases stay with
        | true =>
          rw [sweep_keep hk, ih s', List.filter_cons_of_neg (by simp [hm])]
        | false => rw [sweep_skip hk, ih s']

variable (leave) in
theorem round_keep (kept junk xs : List α) {s' : σ} (h : keep s a = (true, s')) :
    ∃ junk', junk'.length = junk.length ∧
      round keep leave (s, kept ++ junk ++ a :: xs, kept.length) (kept ++ junk).length =
        (s', (kept ++ [a]) ++ junk' ++ xs, (kept ++ [a]).length) := by
  have hget : (kept ++ junk ++ a :: xs)[(kept ++ junk).length]? = some a := by
    rw [List.getElem?_append_right (Nat.le_refl _), Nat.sub_self]
    rfl
  have hset : (kept ++ junk ++ a :: xs).set (kept ++ junk).length (leave a) =
      kept ++ (junk ++ leave a :: xs) := by
    rw [List.set_append_right _ _ (Nat.le_refl _), Nat.sub_self, List.set_cons_zero,
      List.append_assoc]
  have hmove : (kept ++ (junk ++ leave a :: xs)).set kept.length a =
      kept ++ (junk ++ leave a :: xs).set 0 a := by
    rw [List.set_append_right _ _ (Nat.le_refl _), Nat.sub_self]
  simp only [round, hget, h]
  rw [hset, hmove]
  cases junk with
  | nil => exact ⟨[], rfl, by simp⟩
  | cons b junk => exact ⟨junk ++ [leave a], by simp, by simp⟩

theorem round_skip {kept junk : List α} {s' : σ} (h : keep s a = (false, s')) :
    round keep leave (s, kept ++ junk ++ a :: xs, kept.length) (kept ++ junk).length =
      (s', kept ++ (junk ++ [a]) ++ xs, kept.length) := by
  have hget : (kept ++ junk ++ a :: xs)[(kept ++ junk).length]? = some a := by
    rw [List.getElem?_append_right (Nat.le_refl _), Nat.sub_self]
    rfl
  simp only [round, hget, h]
  simp

/-- From the middle of the loop on: items that stay, cells given up, items still to read. -/
theorem foldl_round (kept junk : List α) : ∃ junk',
    (List.range' (kept ++ junk).length xs.length).foldl (round keep leave)
      (s, kept ++ junk ++ xs, kept.length) =
    ((sweep keep s xs).1, kept ++ (sweep keep s xs).2 ++ junk',
      (kept ++ (sweep keep s xs).2).length) := by
  induction xs generalizing s kept junk with
  | nil => exact ⟨junk, by simp [sweep]⟩
  | cons a xs ih =>
    rw [List.length_cons, List.range'_succ, List.foldl_cons]
    cases hk : keep s a with
    | mk stay s' =>
      cases stay with
      | true =>
        obtain ⟨junk', hlen, hround⟩ := round_keep leave kept junk xs hk
        obtain ⟨rest, hrest⟩ := ih (s := s') (kept ++ [a]) junk'
        have hstart : (kept ++ junk).length + 1 = ((kept ++ [a]) ++ junk').length := by
          simp only [List.length_append, hlen, List.length_cons, List.length_nil]
          omega
        refine ⟨rest, ?_⟩
        rw [hround, hstart, hrest, sweep_keep hk, List.append_assoc kept [a], List.singleton_append]
      | false =>
        obtain ⟨rest, hrest⟩ := ih (s := s') kept (junk ++ [a])
        have hstart : (kept ++ junk).length + 1 = (kept ++ (junk ++ [a])).length := by
          simp only [List.length_append, List.length_cons, List.length_nil]
          omega
        refine ⟨rest, ?_⟩
        rw [round_skip hk, hstart, hrest, sweep_skip hk]

/-- The loop keeps what the sweep keeps, in the same order. -/
theorem run_eq_sweep : run keep leave s xs = sweep keep s xs := by
  obtain ⟨junk, h⟩ : ∃ junk, (List.range' 0 xs.length).foldl (round keep leave) (s, xs, 0) =
      ((sweep keep s xs).1, (sweep keep s xs).2 ++ junk, (sweep keep s xs).2.length) :=
    foldl_round [] []
  have hfold : (List.range xs.length).foldl (round keep leave) (s, xs, 0) =
      ((sweep keep s xs).1, (sweep keep s xs).2 ++ junk, (sweep keep s xs).2.length) := by
    rw [List.range_eq_range']
    exact h
  simp only [run, hfold, List.take_left']

end Compaction
