import Mathlib.Data.List.Basic

/-! # Computations that can fail or abort

A computation runs on a state and returns a value or an error together with the
state it leaves, or aborts: an index out of range or a failed unwrap. `Returns`
says what one run gives, `Sound` that no run aborts, with an invariant of the
state and a property of the returned value.
-/

def Fallible (ε σ α : Type) : Type := σ → Option (Except ε α × σ)

namespace Fallible

variable {ε σ α β : Type} {m : Fallible ε σ α} {f : α → Fallible ε σ β} {s s' s'' : σ} {a : α}
  {b : β} {I : σ → Prop} {P : α → Prop} {Q : β → Prop}

instance : Monad (Fallible ε σ) where
  pure a s := some (.ok a, s)
  bind m f s :=
    match m s with
    | some (.ok a, s') => f a s'
    | some (.error e, s') => some (.error e, s')
    | none => none

def fail (e : ε) : Fallible ε σ α := fun s => some (.error e, s)

def abort : Fallible ε σ α := fun _ => none

def state : Fallible ε σ σ := fun s => some (.ok s, s)

def put (s : σ) : Fallible ε σ Unit := fun _ => some (.ok (), s)

/-- Run the same computation a number of times and collect the results. -/
def collect (m : Fallible ε σ α) : ℕ → Fallible ε σ (List α)
  | 0 => pure []
  | n + 1 => do
    let a ← m
    let as ← collect m n
    pure (a :: as)

/-- Run a computation for every item, in order. -/
def forEach (f : β → Fallible ε σ α) : List β → Fallible ε σ (List α)
  | [] => pure []
  | b :: bs => do
    let a ← f b
    let as ← forEach f bs
    pure (a :: as)

@[simp] theorem pure_apply (a : α) (s : σ) : (pure a : Fallible ε σ α) s = some (.ok a, s) := (rfl)

@[simp] theorem fail_apply (e : ε) (s : σ) :
    (fail e : Fallible ε σ α) s = some (.error e, s) := (rfl)

@[simp] theorem pure_bind' (a : α) (f : α → Fallible ε σ β) : (pure a >>= f) = f a := (rfl)

@[simp] theorem fail_bind (e : ε) (f : α → Fallible ε σ β) : (fail e >>= f) = fail e := (rfl)

@[simp] theorem state_bind (f : σ → Fallible ε σ β) (s : σ) : (state >>= f) s = f s s := (rfl)

@[simp] theorem put_bind (s s' : σ) (f : Unit → Fallible ε σ β) :
    (put s' >>= f) s = f () s' := (rfl)

/-- The items from one position up to another, which must lie in the list. -/
def slice (xs : List β) (start stop : ℕ) : Fallible ε σ (List β) :=
  if start ≤ stop ∧ stop ≤ xs.length then pure ((xs.take stop).drop start) else abort

def index (xs : List β) (i : ℕ) : Fallible ε σ β :=
  if h : i < xs.length then pure xs[i] else abort

/-- A list of known length as an array. -/
def array (n : ℕ) (xs : List β) : Fallible ε σ (Vector β n) :=
  if h : xs.length = n then pure ⟨xs.toArray, h⟩ else abort

theorem slice_eq {xs : List β} {start stop : ℕ} (h : start ≤ stop) (h' : stop ≤ xs.length) :
    slice (ε := ε) (σ := σ) xs start stop = pure ((xs.take stop).drop start) := if_pos ⟨h, h'⟩

theorem index_eq {xs : List β} {i : ℕ} (h : i < xs.length) :
    index (ε := ε) (σ := σ) xs i = pure xs[i] := dif_pos h

@[simp] theorem array_toList {n : ℕ} (v : Vector β n) :
    array (ε := ε) (σ := σ) n v.toList = pure v := by
  have h : v.toList.length = n := by simp
  rw [array, dif_pos h]
  rfl

/-! ## One run -/

def Returns (m : Fallible ε σ α) (s : σ) (a : α) (s' : σ) : Prop := m s = some (.ok a, s')

theorem Returns.pure (a : α) (s : σ) : Returns (ε := ε) (Pure.pure a) s a s := rfl

theorem Returns.bind (hm : Returns m s a s') (hf : Returns (f a) s' b s'') :
    Returns (m >>= f) s b s'' := by
  unfold Returns at *
  simp only [Bind.bind, hm, hf]

theorem Returns.of_bind (h : Returns (m >>= f) s b s'') :
    ∃ a s', Returns m s a s' ∧ Returns (f a) s' b s'' := by
  unfold Returns at *
  simp only [Bind.bind] at h
  split at h
  · next a s' hm => exact ⟨a, s', hm, h⟩
  · cases h
  · cases h

theorem Returns.map (hm : Returns m s a s') (f : α → β) : Returns (f <$> m) s (f a) s' :=
  hm.bind (Returns.pure (f a) s')

theorem bind_error {e : ε} (hm : m s = some (.error e, s')) :
    (m >>= f) s = some (.error e, s') := by
  simp only [Bind.bind, hm]

theorem Returns.forEach {f : β → Fallible ε σ α} {g : β → α} {bs : List β}
    (hf : ∀ b ∈ bs, Returns (f b) s (g b) s) : Returns (forEach f bs) s (bs.map g) s := by
  induction bs with
  | nil => exact .pure [] s
  | cons b bs ih =>
    have hrest := ih fun b hb => hf b (List.mem_cons_of_mem _ hb)
    exact (hf b List.mem_cons_self).bind (hrest.bind (.pure _ s))

/-- The same result in every state, which is left as it is. -/
def Uniform (m : Fallible ε σ α) : Prop := ∃ r, ∀ s, m s = some (r, s)

theorem Uniform.pure (a : α) : Uniform (Pure.pure a : Fallible ε σ α) := ⟨.ok a, fun _ => rfl⟩

theorem Uniform.fail (e : ε) : Uniform (fail e : Fallible ε σ α) := ⟨.error e, fun _ => rfl⟩

theorem Uniform.bind (hm : Uniform m) (hf : ∀ a, Uniform (f a)) : Uniform (m >>= f) := by
  obtain ⟨r, hr⟩ := hm
  cases r with
  | ok a =>
    obtain ⟨r', hr'⟩ := hf a
    refine ⟨r', fun s => ?_⟩
    simp only [Bind.bind, hr, hr']
  | error e => exact ⟨.error e, fun s => bind_error (hr s)⟩

/-! ## All runs -/

/-- No run from a state with the invariant aborts. -/
def Sound (I : σ → Prop) (m : Fallible ε σ α) (P : α → Prop) : Prop :=
  ∀ s, I s → ∃ r s', m s = some (r, s') ∧ I s' ∧ ∀ a, r = .ok a → P a

theorem Sound.pure (ha : P a) : Sound (ε := ε) I (Pure.pure a) P := by
  intro s hs
  refine ⟨.ok a, s, rfl, hs, ?_⟩
  rintro _ ⟨⟩
  exact ha

theorem Sound.fail (e : ε) : Sound I (fail e) P := by
  intro s hs
  refine ⟨.error e, s, rfl, hs, ?_⟩
  rintro _ ⟨⟩

theorem Sound.bind (hm : Sound I m P) (hf : ∀ a, P a → Sound I (f a) Q) : Sound I (m >>= f) Q := by
  intro s hs
  obtain ⟨r, s', hr, hs', hP⟩ := hm s hs
  cases r with
  | error e =>
    refine ⟨.error e, s', bind_error hr, hs', ?_⟩
    rintro _ ⟨⟩
  | ok a =>
    obtain ⟨r', s'', hr', hs'', hQ⟩ := hf a (hP a rfl) s' hs'
    refine ⟨r', s'', ?_, hs'', hQ⟩
    simp only [Bind.bind, hr, hr']

theorem Sound.collect (hm : Sound I m P) (n : ℕ) :
    Sound I (collect m n) fun as => as.length = n ∧ ∀ a ∈ as, P a := by
  induction n with
  | zero => exact .pure ⟨rfl, by simp⟩
  | succ n ih =>
    refine hm.bind fun a ha => ih.bind fun as has => .pure ⟨congrArg Nat.succ has.1, ?_⟩
    intro x hx
    rcases List.mem_cons.mp hx with rfl | hx
    · exact ha
    · exact has.2 x hx

end Fallible
