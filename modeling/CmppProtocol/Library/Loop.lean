import Mathlib.Order.Basic

/-! # Loops with an explicit exit

The body of a loop either goes round again with a new state or leaves with a
result. `run` allows a bounded number of rounds, `Returns` any finite number.
-/

namespace Loop

variable {σ ρ : Type*} {body : σ → σ ⊕ ρ} {s s' : σ} {r r' : ρ}

/-- Execute at most the given number of rounds. -/
def run (body : σ → σ ⊕ ρ) : ℕ → σ → Option ρ
  | 0, _ => none
  | n + 1, s =>
    match body s with
    | .inl s' => run body n s'
    | .inr r => some r

/-- The loop started in `s` leaves with `r` after finitely many rounds. -/
def Returns (body : σ → σ ⊕ ρ) (s : σ) (r : ρ) : Prop := ∃ n, run body n s = some r

theorem run_succ_of_run {n : ℕ} (h : run body n s = some r) : run body (n + 1) s = some r := by
  induction n generalizing s with
  | zero => cases h
  | succ n ih =>
    rw [run] at h ⊢
    cases hb : body s with
    | inl s' => simp only [hb] at h ⊢; exact ih h
    | inr r' => simpa only [hb] using h

theorem run_mono {n k : ℕ} (hnk : n ≤ k) (h : run body n s = some r) : run body k s = some r := by
  induction hnk with
  | refl => exact h
  | step _ ih => exact run_succ_of_run ih

theorem Returns.unique (h : Returns body s r) (h' : Returns body s r') : r = r' := by
  obtain ⟨n, hn⟩ := h
  obtain ⟨k, hk⟩ := h'
  have hn' := run_mono (Nat.le_max_left n k) hn
  rw [run_mono (Nat.le_max_right n k) hk] at hn'
  exact (Option.some.inj hn').symm

theorem Returns.exit (h : body s = .inr r) : Returns body s r := ⟨1, by simp only [run, h]⟩

theorem Returns.again (h : body s = .inl s') (hr : Returns body s' r) : Returns body s r := by
  obtain ⟨n, hn⟩ := hr
  exact ⟨n + 1, by simpa only [run, h] using hn⟩

/-- Induction over the rounds of a loop that leaves. -/
theorem Returns.induct {P : σ → Prop} (h : Returns body s r) (hexit : ∀ s, body s = .inr r → P s)
    (hround : ∀ s s', body s = .inl s' → Returns body s' r → P s' → P s) : P s := by
  obtain ⟨n, hn⟩ := h
  induction n generalizing s with
  | zero => cases hn
  | succ n ih =>
    rw [run] at hn
    cases hb : body s with
    | inl s' =>
      simp only [hb] at hn
      exact hround s s' hb ⟨n, hn⟩ (ih hn)
    | inr r' =>
      simp only [hb, Option.some.injEq] at hn
      exact hexit s (hn ▸ hb)

/-- The invariant rule: a property kept by every round holds where the loop leaves. -/
theorem Returns.invariant {I : σ → Prop} {Q : ρ → Prop} (h : Returns body s r) (hI : I s)
    (hround : ∀ s s', I s → body s = .inl s' → I s')
    (hexit : ∀ s r, I s → body s = .inr r → Q r) : Q r := by
  obtain ⟨n, hn⟩ := h
  induction n generalizing s with
  | zero => cases hn
  | succ n ih =>
    rw [run] at hn
    cases hb : body s with
    | inl s' =>
      simp only [hb] at hn
      exact ih (hround s s' hI hb) hn
    | inr r' =>
      simp only [hb, Option.some.injEq] at hn
      exact hn ▸ hexit s r' hI hb

/-- The termination rule: a measure that every round lowers bounds the number of rounds. -/
theorem run_of_measure {I : σ → Prop} (μ : σ → ℕ) (hI : I s)
    (hround : ∀ s s', I s → body s = .inl s' → I s' ∧ μ s' < μ s) :
    ∃ r, run body (μ s + 1) s = some r := by
  generalize hn : μ s = n
  induction n using Nat.strongRecOn generalizing s with
  | _ n ih =>
    cases hb : body s with
    | inr r => exact ⟨r, by simp only [run, hb]⟩
    | inl s' =>
      obtain ⟨hI', hlt⟩ := hround s s' hI hb
      obtain ⟨r, hr⟩ := ih (μ s') (hn ▸ hlt) hI' rfl
      refine ⟨r, ?_⟩
      simp only [run, hb]
      exact run_mono (by omega) hr

end Loop
