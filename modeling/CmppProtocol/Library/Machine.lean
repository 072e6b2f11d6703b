import Mathlib.Data.List.Basic

/-! # Labelled transition systems

A machine has initial states and steps that carry a label. The history of a run
is the list of its labels, oldest first. Invariants speak about the history and
the state together, so that they can relate what has happened to what holds now.
-/

structure Machine (σ ε : Type*) where
  init : σ → Prop
  step : σ → ε → σ → Prop

namespace Machine

variable {σ ε : Type*} {m : Machine σ ε} {s s' s'' : σ} {h h' : List ε} {e : ε}

/-- A sequence of steps from one state to another. -/
inductive Path (m : Machine σ ε) (s : σ) : List ε → σ → Prop
  | nil : Path m s [] s
  | snoc {h : List ε} {e : ε} {s' s'' : σ} :
    Path m s h s' → m.step s' e s'' → Path m s (h ++ [e]) s''

/-- The state is reached from an initial one with the given history. -/
def Run (m : Machine σ ε) (h : List ε) (s : σ) : Prop := ∃ s₀, m.init s₀ ∧ m.Path s₀ h s

theorem Run.start (hs : m.init s) : m.Run [] s := ⟨s, hs, .nil⟩

theorem Run.snoc (hr : m.Run h s) (hs : m.step s e s') : m.Run (h ++ [e]) s' := by
  obtain ⟨s₀, hinit, hp⟩ := hr
  exact ⟨s₀, hinit, hp.snoc hs⟩

theorem Path.append (hp : m.Path s h s') (hq : m.Path s' h' s'') : m.Path s (h ++ h') s'' := by
  induction hq with
  | nil => rwa [List.append_nil]
  | snoc _ hs ih =>
    rw [← List.append_assoc]
    exact ih.snoc hs

theorem Run.append (hr : m.Run h s) (hp : m.Path s h' s') : m.Run (h ++ h') s' := by
  obtain ⟨s₀, hinit, hq⟩ := hr
  exact ⟨s₀, hinit, hq.append hp⟩

/-- The invariant rule. -/
theorem Run.invariant {I : List ε → σ → Prop} (hr : m.Run h s)
    (hinit : ∀ s, m.init s → I [] s)
    (hstep : ∀ h s e s', I h s → m.step s e s' → I (h ++ [e]) s') : I h s := by
  obtain ⟨s₀, hs₀, hp⟩ := hr
  induction hp with
  | nil => exact hinit s₀ hs₀
  | snoc _ hs ih => exact hstep _ _ _ _ ih hs

/-- What every step from a state with the invariant relates, a path relates. -/
theorem Path.relates {I : List ε → σ → Prop} {R : σ → σ → Prop} (hp : m.Path s h' s')
    (hI : I h s) (hstep : ∀ h s e s', I h s → m.step s e s' → I (h ++ [e]) s')
    (hrefl : ∀ s, R s s) (htrans : ∀ s t u, R s t → R t u → R s u)
    (hR : ∀ h s e s', I h s → m.step s e s' → R s s') : I (h ++ h') s' ∧ R s s' := by
  induction hp with
  | nil => exact ⟨by rwa [List.append_nil], hrefl _⟩
  | snoc _ hs ih =>
    obtain ⟨hI', hrel⟩ := ih
    refine ⟨?_, htrans _ _ _ hrel (hR _ _ _ _ hI' hs)⟩
    rw [← List.append_assoc]
    exact hstep _ _ _ _ hI' hs

/-- The steps of the machine that meet a condition. -/
def restrict (m : Machine σ ε) (P : σ → ε → Prop) : Machine σ ε where
  init := m.init
  step s e s' := m.step s e s' ∧ P s e

/-- The machine with a record of its steps, which no step depends on. -/
def recorded {ρ : Type*} (m : Machine σ ε) (start : ρ) (note : ρ → σ → ε → σ → ρ) :
    Machine (σ × ρ) ε where
  init s := m.init s.1 ∧ s.2 = start
  step s e s' := m.step s.1 e s'.1 ∧ s'.2 = note s.2 s.1 e s'.1

/-- Every run has a record. -/
theorem Run.record {ρ : Type*} (start : ρ) (note : ρ → σ → ε → σ → ρ) (hr : m.Run h s) :
    ∃ r, (m.recorded start note).Run h (s, r) := by
  obtain ⟨s₀, hinit, hp⟩ := hr
  suffices ∃ r, (m.recorded start note).Path (s₀, start) h (s, r) by
    obtain ⟨r, hr⟩ := this
    exact ⟨r, (s₀, start), ⟨hinit, rfl⟩, hr⟩
  induction hp with
  | nil => exact ⟨start, .nil⟩
  | @snoc h e t t' _ hs ih =>
    obtain ⟨r, hr⟩ := ih
    exact ⟨note r t e t', hr.snoc ⟨hs, rfl⟩⟩

/-! ## What a machine can reach -/

def Reaches (m : Machine σ ε) (s s' : σ) : Prop := ∃ h, m.Path s h s'

theorem Reaches.refl (s : σ) : m.Reaches s s := ⟨[], .nil⟩

theorem Reaches.step (hs : m.step s e s') : m.Reaches s s' := ⟨[e], Path.nil.snoc hs⟩

theorem Reaches.trans (hp : m.Reaches s s') (hq : m.Reaches s' s'') : m.Reaches s s'' := by
  obtain ⟨h, hp⟩ := hp
  obtain ⟨h', hq⟩ := hq
  exact ⟨h ++ h', hp.append hq⟩

/-- A goal is reached when every round comes to it or makes the measure smaller. -/
theorem reaches_of_descent {I G : σ → Prop} (μ : σ → ℕ)
    (hround : ∀ s, I s → ∃ s', m.Reaches s s' ∧ (G s' ∨ I s' ∧ μ s' < μ s)) (hs : I s) :
    ∃ s', m.Reaches s s' ∧ G s' := by
  induction hn : μ s using Nat.strongRecOn generalizing s with
  | _ n ih =>
    subst hn
    obtain ⟨t, ht, hgoal | ⟨hI, hlt⟩⟩ := hround s hs
    · exact ⟨t, ht, hgoal⟩
    · obtain ⟨s', hs', hgoal⟩ := ih (μ t) hlt hI rfl
      exact ⟨s', ht.trans hs', hgoal⟩

/-! ## Machines that compute their steps -/

/-- The machine that starts in one state and computes what an event does, if it can happen. -/
def ofNext (initial : σ) (next : σ → ε → Option σ) : Machine σ ε where
  init s := s = initial
  step s e s' := next s e = some s'

/-- Execute the events in order. -/
def exec (next : σ → ε → Option σ) (s : σ) : List ε → Option σ
  | [] => some s
  | e :: es =>
    match next s e with
    | some s' => exec next s' es
    | none => none

theorem Path.cons {t : σ} (hs : m.step s e s') (hp : m.Path s' h t) : m.Path s (e :: h) t :=
  (Path.nil.snoc hs).append hp

theorem exec_append (next : σ → ε → Option σ) (s : σ) (events events' : List ε) :
    exec next s (events ++ events') = (exec next s events).bind fun s' => exec next s' events' := by
  induction events generalizing s with
  | nil => rfl
  | cons e events ih =>
    rw [List.cons_append, exec, exec]
    cases next s e with
    | none => rfl
    | some s' => exact ih s'

theorem path_of_exec {initial : σ} {next : σ → ε → Option σ} (h' : exec next s h = some s') :
    (ofNext initial next).Path s h s' := by
  induction h generalizing s with
  | nil =>
    cases h'
    exact .nil
  | cons e es ih =>
    rw [exec] at h'
    cases hn : next s e with
    | none => simp only [hn, reduceCtorEq] at h'
    | some t =>
      simp only [hn] at h'
      exact (ih h').cons hn

theorem run_of_exec {initial : σ} {next : σ → ε → Option σ} (h' : exec next initial h = some s) :
    (ofNext initial next).Run h s := ⟨initial, rfl, path_of_exec h'⟩

/-- The final state of an execution, seen through a view. -/
theorem exists_run_of_exec {β : Type*} {initial : σ} {next : σ → ε → Option σ}
    (view : σ → β) {b : β}
    (h' : (exec next initial h).map view = some b) :
    ∃ s, (ofNext initial next).Run h s ∧ view s = b := by
  obtain ⟨s, hs, hview⟩ := Option.map_eq_some_iff.mp h'
  exact ⟨s, run_of_exec hs, hview⟩

/-- An execution that checks a condition before every step. -/
theorem path_restrict_of_exec {initial : σ} {next : σ → ε → Option σ} {check : σ → ε → Bool}
    (h' : exec (fun s e => if check s e then next s e else none) s h = some s') :
    ((ofNext initial next).restrict fun s e => check s e = true).Path s h s' := by
  induction h generalizing s with
  | nil =>
    cases h'
    exact .nil
  | cons e es ih =>
    rw [exec] at h'
    cases hc : check s e with
    | false => simp only [hc, Bool.false_eq_true, if_false, reduceCtorEq] at h'
    | true =>
      simp only [hc, if_true] at h'
      cases hn : next s e with
      | none => simp only [hn, reduceCtorEq] at h'
      | some t =>
        simp only [hn] at h'
        exact (ih h').cons ⟨hn, hc⟩

theorem exists_run_restrict_of_exec {β : Type*} {initial : σ} {next : σ → ε → Option σ}
    {check : σ → ε → Bool} (view : σ → β) {b : β}
    (h' : (exec (fun s e => if check s e then next s e else none) initial h).map view = some b) :
    ∃ s, ((ofNext initial next).restrict fun s e => check s e = true).Run h s ∧ view s = b := by
  obtain ⟨s, hs, hview⟩ := Option.map_eq_some_iff.mp h'
  exact ⟨s, ⟨initial, rfl, path_restrict_of_exec hs⟩, hview⟩

/-- A restricted run is a run. -/
theorem Run.of_restrict {P : σ → ε → Prop} (hr : (m.restrict P).Run h s) : m.Run h s := by
  obtain ⟨s₀, hinit, hp⟩ := hr
  refine ⟨s₀, hinit, ?_⟩
  induction hp with
  | nil => exact .nil
  | snoc _ hs ih => exact ih.snoc hs.1

/-- The events executed in order, with the record. -/
def execRecorded {ρ : Type*} (next : σ → ε → Option σ) (note : ρ → σ → ε → σ → ρ) (s : σ) (r : ρ)
    (events : List ε) : Option (σ × ρ) :=
  exec (fun p e => (next p.1 e).map fun s' => (s', note p.2 p.1 e s')) (s, r) events

theorem exists_run_recorded_of_exec {ρ β : Type*} {initial : σ} {next : σ → ε → Option σ}
    {start : ρ} {note : ρ → σ → ε → σ → ρ} (view : σ × ρ → β) {b : β}
    (h' : (execRecorded next note initial start h).map view = some b) :
    ∃ p, ((ofNext initial next).recorded start note).Run h p ∧ view p = b := by
  obtain ⟨p, hp, hview⟩ := Option.map_eq_some_iff.mp h'
  refine ⟨p, ⟨(initial, start), ⟨rfl, rfl⟩, ?_⟩, hview⟩
  rw [execRecorded] at hp
  clear hview h'
  generalize (initial, start) = q at hp
  induction h generalizing q with
  | nil =>
    cases hp
    exact .nil
  | cons e es ih =>
    rw [exec] at hp
    cases hn : next q.1 e with
    | none => simp only [hn, Option.map_none, reduceCtorEq] at hp
    | some t =>
      simp only [hn, Option.map_some] at hp
      have hstep : ((ofNext initial next).recorded start note).step q e (t, note q.2 q.1 e t) :=
        ⟨hn, rfl⟩
      exact (ih _ hp).cons hstep

end Machine
