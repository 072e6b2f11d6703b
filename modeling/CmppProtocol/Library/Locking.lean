import CmppProtocol.Library.Focus
import CmppProtocol.Library.Loop
import CmppProtocol.Library.Machine
import Mathlib.Algebra.GroupWithZero.Nat
import Mathlib.Data.Finset.Max
import Mathlib.Data.List.Sort

/-! # Ordered locking

Threads work on shared cells. Each one locks the cells it needs one at a time in
increasing order, then does its work in small steps, then unlocks them one at a
time. What the threads leave is what they leave one after the other, in the order
in which they got their last lock, and they never wait for each other forever.
-/

namespace Locking

variable {ι α τ ρ : Type*} [LinearOrder ι]

/-- The work of a thread: small steps that touch no cell but its own, and come to an end. -/
structure Body (ι α τ ρ : Type*) [LinearOrder ι] where
  cells : τ → List ι
  step : τ → (ι → α) → (τ ⊕ ρ) × (ι → α)
  work : τ → ℕ
  sorted : ∀ t, (cells t).Pairwise (· < ·)
  keeps : ∀ {t t' s}, (step t s).1 = .inl t' → cells t' = cells t
  descends : ∀ {t t' s}, (step t s).1 = .inl t' → work t' < work t
  frame : ∀ t s, ∀ i ∉ cells t, (step t s).2 i = s i
  reads : ∀ t s s', (∀ i ∈ cells t, s i = s' i) →
    (step t s).1 = (step t s').1 ∧ ∀ i ∈ cells t, (step t s).2 i = (step t s').2 i

namespace Body

variable (b : Body ι α τ ρ)

def round (x : τ × (ι → α)) : (τ × (ι → α)) ⊕ (ρ × (ι → α)) :=
  match b.step x.1 x.2 with
  | (.inl t, s) => .inl (t, s)
  | (.inr r, s) => .inr (r, s)

/-- The whole work at once. -/
def Runs (t : τ) (s : ι → α) (r : ρ) (s' : ι → α) : Prop := Loop.Returns b.round (t, s) (r, s')

variable {b} {t t' : τ} {s s' s₁ : ι → α} {r r' : ρ}

theorem round_inl (h : b.round (t, s) = .inl (t', s')) : b.step t s = (.inl t', s') := by
  unfold round at h
  split at h
  · next hstep =>
    cases h
    exact hstep
  · cases h

theorem round_inr (h : b.round (t, s) = .inr (r, s')) : b.step t s = (.inr r, s') := by
  unfold round at h
  split at h
  · cases h
  · next hstep =>
    cases h
    exact hstep

theorem exists_runs (b : Body ι α τ ρ) (t : τ) (s : ι → α) : ∃ r s', b.Runs t s r s' := by
  obtain ⟨⟨r, s'⟩, hr⟩ := Loop.run_of_measure (I := fun _ => True)
    (fun x : τ × (ι → α) => b.work x.1) (s := (t, s)) trivial (by
      rintro ⟨t, s⟩ ⟨t', s'⟩ - h
      exact ⟨trivial, b.descends (congrArg Prod.fst (round_inl h))⟩)
  exact ⟨r, s', _, hr⟩

/-- A step is the first one of the whole work. -/
theorem Runs.of_step (h : b.Runs t s r s') (hstep : b.step t s = (.inl t', s₁)) :
    b.Runs t' s₁ r s' := by
  obtain ⟨r', s₁', hruns⟩ := exists_runs b t' s₁
  have hround : b.round (t, s) = .inl (t', s₁) := by
    unfold round
    rw [hstep]
  have hwhole : b.Runs t s r' s₁' := Loop.Returns.again hround hruns
  obtain ⟨rfl, rfl⟩ := Prod.mk.inj (Loop.Returns.unique h hwhole)
  exact hruns

theorem Runs.of_last (h : b.Runs t s r s') (hstep : b.step t s = (.inr r', s₁)) :
    r = r' ∧ s' = s₁ := by
  have hround : b.round (t, s) = .inr (r', s₁) := by
    unfold round
    rw [hstep]
  exact Prod.mk.inj (Loop.Returns.unique h (Loop.Returns.exit hround))

theorem Runs.frame (h : b.Runs t s r s') : ∀ i ∉ b.cells t, s' i = s i := by
  refine Loop.Returns.induct (P := fun x => ∀ i ∉ b.cells x.1, s' i = x.2 i) h ?_ ?_
  · rintro ⟨t, s⟩ hround i hi
    have := b.frame t s i hi
    rwa [round_inr hround] at this
  · rintro ⟨t, s⟩ ⟨t', s₁⟩ hround _ ih i hi
    have hstep := round_inl hround
    have hkeeps : b.cells t' = b.cells t := b.keeps (congrArg Prod.fst hstep)
    have hframe := b.frame t s i hi
    rw [hstep] at hframe
    exact (ih i (hkeeps ▸ hi)).trans hframe

/-- Other cells do not matter. -/
theorem Runs.reads (h : b.Runs t s r s') (hsame : ∀ i ∈ b.cells t, s i = s₁ i) :
    ∃ s₁', b.Runs t s₁ r s₁' ∧ ∀ i ∈ b.cells t, s' i = s₁' i := by
  refine Loop.Returns.induct (P := fun x => ∀ s₁, (∀ i ∈ b.cells x.1, x.2 i = s₁ i) →
    ∃ s₁', b.Runs x.1 s₁ r s₁' ∧ ∀ i ∈ b.cells x.1, s' i = s₁' i) h ?_ ?_ s₁ hsame
  · rintro ⟨t, s⟩ hround s₁ hsame
    obtain ⟨hresult, hcells⟩ := b.reads t s s₁ hsame
    rw [round_inr hround] at hresult hcells
    refine ⟨(b.step t s₁).2, Loop.Returns.exit ?_, hcells⟩
    have hstep : b.step t s₁ = (.inr r, (b.step t s₁).2) := Prod.ext hresult.symm rfl
    unfold round
    rw [hstep]
  · rintro ⟨t, s⟩ ⟨t', s₂⟩ hround _ ih s₁ hsame
    obtain ⟨hresult, hcells⟩ := b.reads t s s₁ hsame
    have hkeeps : b.cells t' = b.cells t := b.keeps (congrArg Prod.fst (round_inl hround))
    rw [round_inl hround] at hresult hcells
    obtain ⟨s₁', hruns, hsame'⟩ := ih (b.step t s₁).2 (fun i hi => hcells i (hkeeps ▸ hi))
    refine ⟨s₁', Loop.Returns.again ?_ hruns, fun i hi => hsame' i (hkeeps ▸ hi)⟩
    have hstep : b.step t s₁ = (.inl t', (b.step t s₁).2) := Prod.ext hresult.symm rfl
    unfold round
    rw [hstep]

end Body

/-! ## Threads -/

inductive Thread (ι τ ρ : Type*)
  | locking (t : τ) (held wanted : List ι)
  | working (t : τ)
  | unlocking (r : ρ) (held : List ι)

/-- The threads that have all their locks are on record, in the order in which they got them. -/
structure State (ι α τ ρ : Type*) where
  cells : ι → α
  threads : List (Thread ι τ ρ)
  entered : List (ℕ × τ)

inductive Event (τ : Type*)
  | spawn (t : τ)
  | lock (k : ℕ)
  | enter (k : ℕ)
  | work (k : ℕ)
  | unlock (k : ℕ)

variable (b : Body ι α τ ρ)

def Thread.holds : Thread ι τ ρ → List ι
  | .locking _ held _ => held
  | .working t => b.cells t
  | .unlocking _ held => held

def Thread.ended : Thread ι τ ρ → Bool
  | .unlocking _ [] => true
  | _ => false

namespace State

def initial (cells : ι → α) : State ι α τ ρ := ⟨cells, [], []⟩

def free (s : State ι α τ ρ) (i : ι) : Bool := s.threads.all fun x => decide (i ∉ x.holds b)

def next (s : State ι α τ ρ) : Event τ → Option (State ι α τ ρ)
  | .spawn t => some { s with threads := s.threads ++ [.locking t [] (b.cells t)] }
  | .lock k =>
    match s.threads[k]? with
    | some (.locking t held (i :: wanted)) =>
      if s.free b i then
        some { s with threads := s.threads.set k (.locking t (held ++ [i]) wanted) }
      else none
    | _ => none
  | .enter k =>
    match s.threads[k]? with
    | some (.locking t _ []) =>
      some { s with threads := s.threads.set k (.working t), entered := s.entered ++ [(k, t)] }
    | _ => none
  | .work k =>
    match s.threads[k]? with
    | some (.working t) =>
      match b.step t s.cells with
      | (.inl t', cells) => some { s with cells, threads := s.threads.set k (.working t') }
      | (.inr r, cells) =>
        some { s with cells, threads := s.threads.set k (.unlocking r (b.cells t)) }
    | _ => none
  | .unlock k =>
    match s.threads[k]? with
    | some (.unlocking r (_ :: held)) =>
      some { s with threads := s.threads.set k (.unlocking r held) }
    | _ => none

end State

def machine (cells : ι → α) : Machine (State ι α τ ρ) (Event τ) :=
  .ofNext (.initial cells) (State.next b)

/-- The threads one after the other, each with its whole work. -/
inductive Serial (cells : ι → α) : List (ℕ × τ) → (ι → α) → List (ℕ × ρ) → Prop
  | nil : Serial cells [] cells []
  | snoc {entered : List (ℕ × τ)} {s s' : ι → α} {results : List (ℕ × ρ)} {k : ℕ} {t : τ} {r : ρ} :
    Serial cells entered s results → b.Runs t s r s' →
      Serial cells (entered ++ [(k, t)]) s' (results ++ [(k, r)])

variable {b} {s s' : State ι α τ ρ} {e : Event τ} {cells₀ cells : ι → α} {results : List (ℕ × ρ)}
  {k j : ℕ} {x y : Thread ι τ ρ} {t : τ} {held wanted : List ι} {r : ρ} {i : ι}

theorem getElem?_set_cases {β : Type*} {l : List β} {x y : β} (h : (l.set k x)[j]? = some y) :
    j = k ∧ y = x ∨ j ≠ k ∧ l[j]? = some y := by
  by_cases hjk : j = k
  · subst hjk
    have hlt : j < l.length := by
      by_contra hge
      rw [List.getElem?_eq_none (by rw [List.length_set]; exact not_lt.mp hge)] at h
      cases h
    rw [List.getElem?_set_self hlt] at h
    exact Or.inl ⟨rfl, (Option.some.inj h).symm⟩
  · rw [List.getElem?_set_ne (Ne.symm hjk)] at h
    exact Or.inr ⟨hjk, h⟩

theorem getElem?_append_cases {β : Type*} {l : List β} {x y : β} (h : (l ++ [x])[j]? = some y) :
    y = x ∨ l[j]? = some y := by
  rcases Nat.lt_or_ge j l.length with hlt | hge
  · rw [List.getElem?_append_left hlt] at h
    exact Or.inr h
  · rw [List.getElem?_append_right hge] at h
    exact Or.inl (List.mem_singleton.mp (List.mem_of_getElem? h))

/-- Where the threads stand: what a thread holds and wants are its cells, and no two threads hold
the same cell. -/
structure Locked (b : Body ι α τ ρ) (threads : List (Thread ι τ ρ)) : Prop where
  split : ∀ {k : ℕ} {t : τ} {held wanted : List ι}, threads[k]? = some (.locking t held wanted) →
    held ++ wanted = b.cells t
  disjoint : ∀ {j k : ℕ} {x y : Thread ι τ ρ}, j ≠ k → threads[j]? = some x → threads[k]? = some y →
    ∀ i ∈ x.holds b, i ∉ y.holds b

/-- The cells after the threads that have got all their locks, one after the other. A thread at work
will leave its cells so, and the cells of no such thread are so. -/
structure Follows (b : Body ι α τ ρ) (s : State ι α τ ρ) (cells : ι → α)
    (results : List (ℕ × ρ)) : Prop where
  working : ∀ {k : ℕ} {t : τ}, s.threads[k]? = some (.working t) →
    ∃ r cells', b.Runs t s.cells r cells' ∧ (k, r) ∈ results ∧ ∀ i ∈ b.cells t, cells' i = cells i
  ended : ∀ {k : ℕ} {r : ρ} {held : List ι}, s.threads[k]? = some (.unlocking r held) →
    (k, r) ∈ results
  free : ∀ i, (∀ (k : ℕ) (t : τ), s.threads[k]? = some (.working t) → i ∉ b.cells t) →
    s.cells i = cells i

theorem Locked.replace (h : Locked b s.threads) (hx : s.threads[k]? = some x)
    (hsplit : ∀ {t held wanted}, y = .locking t held wanted → held ++ wanted = b.cells t)
    (hholds : ∀ i ∈ y.holds b, i ∈ x.holds b ∨ s.free b i = true) :
    Locked b (s.threads.set k y) := by
  have hnew {j : ℕ} {z : Thread ι τ ρ} (hjk : j ≠ k) (hz : s.threads[j]? = some z) :
      ∀ i ∈ y.holds b, i ∉ z.holds b := by
    intro i hi hmem
    rcases hholds i hi with hold | hfree
    · exact h.disjoint hjk hz hx i hmem hold
    · have := List.all_eq_true.mp hfree z (List.mem_of_getElem? hz)
      exact of_decide_eq_true this hmem
  constructor
  · intro j t held wanted hj
    rcases getElem?_set_cases hj with ⟨_, heq⟩ | ⟨_, hold⟩
    · exact hsplit heq.symm
    · exact h.split hold
  · intro j j' u v hne hj hj' i hi hmem
    rcases getElem?_set_cases hj with ⟨hjk, hu⟩ | ⟨hjk, hu⟩
    · rcases getElem?_set_cases hj' with ⟨hjk', _⟩ | ⟨hjk', hv⟩
      · exact hne (hjk.trans hjk'.symm)
      · exact hnew hjk' hv i (hu ▸ hi) hmem
    · rcases getElem?_set_cases hj' with ⟨_, hv⟩ | ⟨_, hv⟩
      · exact hnew hjk hu i (hv ▸ hmem) hi
      · exact h.disjoint hne hu hv i hi hmem

/-- What a step does. -/
inductive Moves (b : Body ι α τ ρ) (s : State ι α τ ρ) : Event τ → State ι α τ ρ → Prop
  | spawn (t : τ) :
    Moves b s (.spawn t) { s with threads := s.threads ++ [.locking t [] (b.cells t)] }
  | lock {k : ℕ} {t : τ} {held wanted : List ι} {i : ι} :
    s.threads[k]? = some (.locking t held (i :: wanted)) → s.free b i = true →
    Moves b s (.lock k) { s with threads := s.threads.set k (.locking t (held ++ [i]) wanted) }
  | enter {k : ℕ} {t : τ} {held : List ι} : s.threads[k]? = some (.locking t held []) →
    Moves b s (.enter k)
      { s with threads := s.threads.set k (.working t), entered := s.entered ++ [(k, t)] }
  | work {k : ℕ} {t t' : τ} {cells : ι → α} : s.threads[k]? = some (.working t) →
    b.step t s.cells = (.inl t', cells) →
    Moves b s (.work k) { s with cells, threads := s.threads.set k (.working t') }
  | leave {k : ℕ} {t : τ} {r : ρ} {cells : ι → α} : s.threads[k]? = some (.working t) →
    b.step t s.cells = (.inr r, cells) →
    Moves b s (.work k) { s with cells, threads := s.threads.set k (.unlocking r (b.cells t)) }
  | unlock {k : ℕ} {r : ρ} {i : ι} {held : List ι} :
    s.threads[k]? = some (.unlocking r (i :: held)) →
    Moves b s (.unlock k) { s with threads := s.threads.set k (.unlocking r held) }

theorem Locked.next (h : Locked b s.threads) (hmoves : Moves b s e s') : Locked b s'.threads := by
  cases hmoves with
  | spawn t =>
    constructor
    · intro k t' held wanted hk
      rcases getElem?_append_cases hk with heq | hold
      · cases heq
        rfl
      · exact h.split hold
    · intro j k x y hne hj hk i hi hmem
      rcases getElem?_append_cases hj with rfl | hj
      · exact absurd hi List.not_mem_nil
      · rcases getElem?_append_cases hk with rfl | hk
        · exact absurd hmem List.not_mem_nil
        · exact h.disjoint hne hj hk i hi hmem
  | @lock k t held wanted i hk hfree =>
    refine h.replace hk ?_ ?_
    · rintro t' held' wanted' ⟨⟩
      rw [List.append_assoc]
      exact h.split hk
    · intro i' hi'
      rcases List.mem_append.mp hi' with hi' | hi'
      · exact Or.inl hi'
      · exact Or.inr (List.mem_singleton.mp hi' ▸ hfree)
  | enter hk =>
    refine h.replace hk (fun heq => by cases heq) fun i hi => Or.inl ?_
    have hsplit := h.split hk
    rw [List.append_nil] at hsplit
    exact hsplit ▸ hi
  | @work k t t' cells hk hstep =>
    refine h.replace hk (fun heq => by cases heq) fun i hi => Or.inl ?_
    have hi : i ∈ b.cells t' := hi
    rwa [b.keeps (congrArg Prod.fst hstep)] at hi
  | leave hk hstep => exact h.replace hk (fun heq => by cases heq) fun i hi => Or.inl hi
  | unlock hk =>
    exact h.replace hk (fun heq => by cases heq) fun i hi => Or.inl (List.mem_cons_of_mem _ hi)

/-- A thread that is not at work changes, and does not begin to work. -/
theorem Follows.replace (h : Follows b s cells results) (hx : s.threads[k]? = some x)
    (hidle : ∀ t, x ≠ .working t) (hidle' : ∀ t, y ≠ .working t)
    (hended : ∀ r held, y = .unlocking r held → (k, r) ∈ results) :
    Follows b { s with threads := s.threads.set k y } cells results := by
  constructor
  · intro j t hj
    rcases getElem?_set_cases hj with ⟨_, heq⟩ | ⟨_, hold⟩
    · exact absurd heq.symm (hidle' t)
    · exact h.working hold
  · intro j r held hj
    rcases getElem?_set_cases hj with ⟨rfl, heq⟩ | ⟨_, hold⟩
    · exact hended r held heq.symm
    · exact h.ended hold
  · intro i hi
    refine h.free i fun j t hj => hi j t ?_
    have hjk : j ≠ k := by
      rintro rfl
      exact hidle t (Option.some.inj (hx.symm.trans hj))
    exact (List.getElem?_set_ne (Ne.symm hjk)).trans hj

/-- The cells of a thread that holds them all are those after the others. -/
theorem Follows.owned (h : Follows b s cells results) (hlocked : Locked b s.threads)
    (hk : s.threads[k]? = some (.locking t held [])) : ∀ i ∈ b.cells t, s.cells i = cells i := by
  intro i hi
  apply h.free
  intro j t' hj hmem
  have hsplit := hlocked.split hk
  rw [List.append_nil] at hsplit
  have hne : k ≠ j := by
    rintro rfl
    cases hk.symm.trans hj
  exact hlocked.disjoint hne hk hj i (hsplit ▸ hi) hmem

theorem Follows.enter (h : Follows b s cells results) (hlocked : Locked b s.threads)
    (hk : s.threads[k]? = some (.locking t held [])) {r : ρ} {cells' : ι → α}
    (hruns : b.Runs t cells r cells') :
    Follows b { s with threads := s.threads.set k (.working t), entered := s.entered ++ [(k, t)] }
      cells' (results ++ [(k, r)]) := by
  have hsplit := hlocked.split hk
  rw [List.append_nil] at hsplit
  have hheld := h.owned hlocked hk
  constructor
  · intro j t' hj
    rcases getElem?_set_cases hj with ⟨rfl, heq⟩ | ⟨hjk, hold⟩
    · cases heq
      obtain ⟨mine, hmine, hsame⟩ := hruns.reads fun i hi => (hheld i hi).symm
      refine ⟨r, mine, hmine, List.mem_append_right _ List.mem_cons_self, ?_⟩
      exact fun i hi => (hsame i hi).symm
    · obtain ⟨r', mine, hmine, hmem, hsame⟩ := h.working hold
      refine ⟨r', mine, hmine, List.mem_append_left _ hmem, fun i hi => ?_⟩
      have hother : i ∉ b.cells t := by
        rw [← hsplit]
        exact hlocked.disjoint hjk hold hk i hi
      exact (hsame i hi).trans (hruns.frame i hother).symm
  · intro j r' held' hj
    rcases getElem?_set_cases hj with ⟨_, heq⟩ | ⟨_, hold⟩
    · cases heq
    · exact List.mem_append_left _ (h.ended hold)
  · intro i hi
    have hlt : k < s.threads.length := (List.getElem?_eq_some_iff.mp hk).1
    have hother : i ∉ b.cells t := hi k t (List.getElem?_set_self hlt)
    rw [hruns.frame i hother]
    refine h.free i fun j t' hj => hi j t' ?_
    have hjk : j ≠ k := by
      rintro rfl
      cases hk.symm.trans hj
    exact (List.getElem?_set_ne (Ne.symm hjk)).trans hj

/-- The other threads at work do not see a step of this one. -/
theorem Follows.others (h : Follows b s cells results) (hlocked : Locked b s.threads)
    (hk : s.threads[k]? = some (.working t)) {cells' : ι → α}
    (hframe : ∀ i ∉ b.cells t, cells' i = s.cells i) (hjk : j ≠ k) {t' : τ}
    (hj : s.threads[j]? = some (.working t')) :
    ∃ r mine, b.Runs t' cells' r mine ∧ (j, r) ∈ results ∧ ∀ i ∈ b.cells t', mine i = cells i := by
  obtain ⟨r, mine, hmine, hmem, hsame⟩ := h.working hj
  have hunchanged : ∀ i ∈ b.cells t', s.cells i = cells' i := fun i hi =>
    (hframe i (hlocked.disjoint hjk hj hk i hi)).symm
  obtain ⟨mine', hmine', hsame'⟩ := hmine.reads hunchanged
  exact ⟨r, mine', hmine', hmem, fun i hi => (hsame' i hi).symm.trans (hsame i hi)⟩

theorem Follows.work (h : Follows b s cells results) (hlocked : Locked b s.threads)
    (hk : s.threads[k]? = some (.working t)) {t' : τ} {cells' : ι → α}
    (hstep : b.step t s.cells = (.inl t', cells')) :
    Follows b { s with cells := cells', threads := s.threads.set k (.working t') } cells
      results := by
  have hkeeps : b.cells t' = b.cells t := b.keeps (congrArg Prod.fst hstep)
  have hframe : ∀ i ∉ b.cells t, cells' i = s.cells i := by
    have := b.frame t s.cells
    rwa [hstep] at this
  have hlt : k < s.threads.length := (List.getElem?_eq_some_iff.mp hk).1
  constructor
  · intro j u hj
    rcases getElem?_set_cases hj with ⟨rfl, heq⟩ | ⟨hjk, hold⟩
    · cases heq
      obtain ⟨r, mine, hmine, hmem, hsame⟩ := h.working hk
      exact ⟨r, mine, hmine.of_step hstep, hmem, fun i hi => hsame i (hkeeps ▸ hi)⟩
    · exact h.others hlocked hk hframe hjk hold
  · intro j r held hj
    rcases getElem?_set_cases hj with ⟨_, heq⟩ | ⟨_, hold⟩
    · cases heq
    · exact h.ended hold
  · intro i hi
    have hmine : i ∉ b.cells t := hkeeps ▸ hi k t' (List.getElem?_set_self hlt)
    refine (hframe i hmine).trans (h.free i fun j u hj => ?_)
    by_cases hjk : j = k
    · subst hjk
      cases hk.symm.trans hj
      exact hmine
    · exact hi j u ((List.getElem?_set_ne (Ne.symm hjk)).trans hj)

theorem Follows.leave (h : Follows b s cells results) (hlocked : Locked b s.threads)
    (hk : s.threads[k]? = some (.working t)) {cells' : ι → α}
    (hstep : b.step t s.cells = (.inr r, cells')) :
    Follows b { s with cells := cells', threads := s.threads.set k (.unlocking r (b.cells t)) }
      cells results := by
  have hframe : ∀ i ∉ b.cells t, cells' i = s.cells i := by
    have := b.frame t s.cells
    rwa [hstep] at this
  obtain ⟨r', mine, hmine, hmem, hsame⟩ := h.working hk
  obtain ⟨rfl, rfl⟩ := hmine.of_last hstep
  constructor
  · intro j u hj
    rcases getElem?_set_cases hj with ⟨_, heq⟩ | ⟨hjk, hold⟩
    · cases heq
    · exact h.others hlocked hk hframe hjk hold
  · intro j r held hj
    rcases getElem?_set_cases hj with ⟨rfl, heq⟩ | ⟨_, hold⟩
    · cases heq
      exact hmem
    · exact h.ended hold
  · intro i hi
    by_cases hin : i ∈ b.cells t
    · exact hsame i hin
    · refine (hframe i hin).trans (h.free i fun j u hj => ?_)
      by_cases hjk : j = k
      · subst hjk
        cases hk.symm.trans hj
        exact hin
      · exact hi j u ((List.getElem?_set_ne (Ne.symm hjk)).trans hj)

/-- One step: a thread that enters is the next one in the order, and no other step adds to it. -/
theorem Follows.next (h : Follows b s cells results) (hlocked : Locked b s.threads)
    (hmoves : Moves b s e s') (hserial : Serial b cells₀ s.entered cells results) :
    ∃ cells' results',
      Follows b s' cells' results' ∧ Serial b cells₀ s'.entered cells' results' := by
  cases hmoves with
  | spawn t =>
    refine ⟨cells, results, ⟨?_, ?_, ?_⟩, hserial⟩
    · intro k u hk
      rcases getElem?_append_cases hk with heq | hold
      · cases heq
      · exact h.working hold
    · intro k r held hk
      rcases getElem?_append_cases hk with heq | hold
      · cases heq
      · exact h.ended hold
    · intro i hi
      refine h.free i fun k u hk => hi k u ?_
      have hlt : k < s.threads.length := (List.getElem?_eq_some_iff.mp hk).1
      exact (List.getElem?_append_left hlt).trans hk
  | lock hk hfree =>
    refine ⟨cells, results, h.replace hk ?_ ?_ ?_, hserial⟩
    · rintro t ⟨⟩
    · rintro t ⟨⟩
    · rintro r held ⟨⟩
  | @enter k t held hk =>
    obtain ⟨r, cells', hruns⟩ := Body.exists_runs b t cells
    exact ⟨cells', _, h.enter hlocked hk hruns, hserial.snoc hruns⟩
  | work hk hstep => exact ⟨cells, results, h.work hlocked hk hstep, hserial⟩
  | leave hk hstep => exact ⟨cells, results, h.leave hlocked hk hstep, hserial⟩
  | unlock hk =>
    refine ⟨cells, results, h.replace hk ?_ ?_ ?_, hserial⟩
    · rintro t ⟨⟩
    · rintro t ⟨⟩
    · rintro r held ⟨⟩
      exact h.ended hk

theorem Serial.keys {entered : List (ℕ × τ)} (h : Serial b cells₀ entered cells results) :
    results.map Prod.fst = entered.map Prod.fst := by
  induction h with
  | nil => rfl
  | snoc _ _ ih => rw [List.map_append, List.map_append, ih]; rfl

omit [LinearOrder ι] in
theorem Entered.replace {entered : List (ℕ × τ)}
    (h : ∀ p ∈ entered, ∃ x, s.threads[p.1]? = some x ∧ ∀ t held wanted, x ≠ .locking t held wanted)
    (hy : ∀ t held wanted, y ≠ .locking t held wanted) :
    ∀ p ∈ entered, ∃ x, (s.threads.set k y)[p.1]? = some x ∧
      ∀ t held wanted, x ≠ .locking t held wanted := by
  intro p hp
  obtain ⟨x, hx, hpast⟩ := h p hp
  by_cases hk : p.1 = k
  · have hlt : p.1 < s.threads.length := (List.getElem?_eq_some_iff.mp hx).1
    subst hk
    exact ⟨y, List.getElem?_set_self hlt, hy⟩
  · exact ⟨x, (List.getElem?_set_ne (Ne.symm hk)).trans hx, hpast⟩

/-- What is left to do. -/
def Thread.left (b : Body ι α τ ρ) : Thread ι τ ρ → ℕ
  | .locking t _ wanted => wanted.length + (b.work t + (b.cells t).length + 2)
  | .working t => b.work t + (b.cells t).length + 1
  | .unlocking _ held => held.length

def State.left (b : Body ι α τ ρ) (s : State ι α τ ρ) : ℕ := (s.threads.map (Thread.left b)).sum

end Locking
