import CmppProtocol.Connection.Reached

/-! # Attempts that are taken before another one

A scan takes the overdue attempts oldest first, and not more of them than the
batch size. Before an attempt of a given time come only those that were written
by then; a write that was completed on the socket but not yet in the map is one
of them. With time they become fewer.
-/

namespace CmppProtocol

/-! ## Oldest first -/

/-- What is not among the first ones of the sorted list comes behind all of them. -/
theorem take_mergeSort {α : Type*} {f : α → ℕ} {xs : List α} {n : ℕ} {a : α} (ha : a ∈ xs)
    (hnot : a ∉ (xs.mergeSort fun x y => decide (f x ≤ f y)).take n) :
    ((xs.mergeSort fun x y => decide (f x ≤ f y)).take n).length = n ∧
      ∀ b ∈ (xs.mergeSort fun x y => decide (f x ≤ f y)).take n, f b ≤ f a := by
  have hsorted : (xs.mergeSort fun x y => decide (f x ≤ f y)).Pairwise fun x y =>
      decide (f x ≤ f y) = true := by
    apply List.pairwise_mergeSort
    · intro x y z hxy hyz
      exact decide_eq_true ((of_decide_eq_true hxy).trans (of_decide_eq_true hyz))
    · intro x y
      simp only [Bool.or_eq_true, decide_eq_true_eq]
      exact Nat.le_total _ _
  have hmem : a ∈ (xs.mergeSort fun x y => decide (f x ≤ f y)).drop n := by
    have hin := (List.mergeSort_perm xs fun x y => decide (f x ≤ f y)).mem_iff.mpr ha
    rw [← List.take_append_drop n (xs.mergeSort _), List.mem_append] at hin
    exact hin.resolve_left hnot
  constructor
  · have hpos := List.length_pos_of_mem hmem
    rw [List.length_drop] at hpos
    rw [List.length_take]
    omega
  · intro b hb
    rw [← List.take_append_drop n (xs.mergeSort _), List.pairwise_append] at hsorted
    exact of_decide_eq_true (hsorted.2.2 b hb a hmem)

section Expired

variable {pending : PendingSubmits} {now timeout limit : ℕ}

theorem expiredSubmits_nodup (pending : PendingSubmits) (now timeout limit : ℕ) :
    ((expiredSubmits pending now timeout limit).map SubmitAttemptKey.sequenceId).Nodup := by
  unfold expiredSubmits
  dsimp only
  rw [List.map_map]
  apply ((List.take_sublist _ _).map _).nodup
  apply ((List.mergeSort_perm _ _).map _).nodup_iff.mpr
  rw [List.map_filterMap]
  apply OrderedMap.filterMap_keys_nodup
  rintro ⟨x, entry⟩ k hk
  obtain ⟨⟨t, key⟩, hdue, rfl⟩ := Option.map_eq_some_iff.mp hk
  dsimp only at hdue
  split at hdue
  · split_ifs at hdue
    cases hdue
    rfl
  · cases hdue

/-- An overdue attempt that a scan does not take stands behind as many as the scan takes. -/
theorem expiredSubmits_full {x attempt writtenAt : ℕ} {entry : PendingSubmit}
    (hfind : pending.find x = some entry)
    (hstate : entry.state = .awaitingResponse attempt writtenAt) (hdue : timeout ≤ now - writtenAt)
    (hnot : x ∉ (expiredSubmits pending now timeout limit).map SubmitAttemptKey.sequenceId) :
    (expiredSubmits pending now timeout limit).length = limit ∧
      ∀ key ∈ expiredSubmits pending now timeout limit, ∃ e t,
        pending.find key.sequenceId = some e ∧
          e.state = .awaitingResponse key.attempt t ∧ t ≤ writtenAt := by
  unfold expiredSubmits at hnot ⊢
  dsimp only at hnot ⊢
  rw [List.map_map] at hnot
  rw [List.length_map]
  obtain ⟨hlength, holder⟩ := take_mergeSort (f := Prod.fst)
    (a := (writtenAt, (⟨x, entry.submissionId, attempt⟩ : SubmitAttemptKey)))
    (List.mem_filterMap.mpr ⟨(x, entry), OrderedMap.find_eq_some_iff.mp hfind, by
      simp only [hstate, if_pos hdue]⟩) fun hmem => hnot (List.mem_map_of_mem hmem)
  refine ⟨hlength, fun key hkey => ?_⟩
  obtain ⟨⟨t, key'⟩, hmem, rfl⟩ := List.mem_map.mp hkey
  have hmem' := (List.mergeSort_perm _ _).mem_iff.mp (List.mem_of_mem_take hmem)
  obtain ⟨⟨y, e⟩, he, hdue'⟩ := List.mem_filterMap.mp hmem'
  dsimp only at hdue'
  split at hdue'
  · next attempt' t' hstate' =>
    split_ifs at hdue'
    cases hdue'
    exact ⟨e, t, OrderedMap.find_eq_some_iff.mpr he, hstate', holder _ hmem⟩
  · cases hdue'

end Expired

/-! ## Entries that may come before -/

/-- The attempt was written by the time, or it will be found so. -/
def SubmitAttemptState.overtakes (status : BatchStatus) (time : ℕ) : SubmitAttemptState → Bool
  | .awaitingResponse _ writtenAt => writtenAt ≤ time
  | .writing _ =>
    match status with
    | .written writtenAt => writtenAt ≤ time
    | _ => false
  | _ => false

/-- The ids whose attempts may come before one of this time and are not taken yet. -/
def overtakers (status : BatchStatus) (pending : PendingSubmits) (time : ℕ)
    (taken : List SubmitAttemptKey) : List ℕ :=
  pending.entries.filterMap fun p =>
    if p.2.state.overtakes status time ∧ p.1 ∉ taken.map SubmitAttemptKey.sequenceId then some p.1
    else none

section Overtakers

variable {status status' : BatchStatus} {pending pending' : PendingSubmits} {time x : ℕ}
  {taken taken' : List SubmitAttemptKey}

theorem mem_overtakers : x ∈ overtakers status pending time taken ↔
    (∃ entry, pending.find x = some entry ∧ entry.state.overtakes status time = true) ∧
      x ∉ taken.map SubmitAttemptKey.sequenceId := by
  rw [overtakers, List.mem_filterMap]
  constructor
  · rintro ⟨⟨y, entry⟩, hmem, hx⟩
    split_ifs at hx with h
    cases hx
    exact ⟨⟨entry, OrderedMap.find_eq_some_iff.mpr hmem, h.1⟩, h.2⟩
  · rintro ⟨⟨entry, hfind, hovertakes⟩, hnot⟩
    exact ⟨(x, entry), OrderedMap.find_eq_some_iff.mp hfind, if_pos ⟨hovertakes, hnot⟩⟩

theorem overtakers_nodup (status : BatchStatus) (pending : PendingSubmits) (time : ℕ)
    (taken : List SubmitAttemptKey) : (overtakers status pending time taken).Nodup := by
  apply OrderedMap.filterMap_keys_nodup
  rintro ⟨y, entry⟩ k hk
  split_ifs at hk
  exact (Option.some.inj hk).symm

theorem overtakers_length_le (hsub : ∀ y ∈ overtakers status' pending' time taken',
    y ∈ overtakers status pending time taken) :
    (overtakers status' pending' time taken').length ≤
      (overtakers status pending time taken).length :=
  ((overtakers_nodup _ _ _ _).subperm hsub).length_le

theorem overtakers_length_le_size (status : BatchStatus) (pending : PendingSubmits) (time : ℕ)
    (taken : List SubmitAttemptKey) :
    (overtakers status pending time taken).length ≤ pending.size :=
  List.length_filterMap_le _ _

/-- What is taken comes off. -/
theorem overtakers_taken (status : BatchStatus) (time : ℕ)
    (hnodup : (taken.map SubmitAttemptKey.sequenceId).Nodup)
    (hsub : ∀ key ∈ taken, key.sequenceId ∈ overtakers status pending time []) :
    (overtakers status pending time taken).length + taken.length =
      (overtakers status pending time []).length := by
  have hdisjoint : ∀ y ∈ overtakers status pending time taken,
      y ∉ taken.map SubmitAttemptKey.sequenceId := fun y hy => (mem_overtakers.mp hy).2
  have hperm : (overtakers status pending time taken ++
      taken.map SubmitAttemptKey.sequenceId).Perm (overtakers status pending time []) := by
    apply (List.perm_ext_iff_of_nodup ?_ (overtakers_nodup _ _ _ _)).mpr
    · intro y
      rw [List.mem_append, mem_overtakers, mem_overtakers]
      constructor
      · rintro (⟨hentry, _⟩ | htaken)
        · exact ⟨hentry, List.not_mem_nil⟩
        · obtain ⟨key, hkey, rfl⟩ := List.mem_map.mp htaken
          exact mem_overtakers.mp (hsub key hkey)
      · rintro ⟨hentry, _⟩
        by_cases htaken : y ∈ taken.map SubmitAttemptKey.sequenceId
        · exact Or.inr htaken
        · exact Or.inl ⟨hentry, htaken⟩
    · exact (overtakers_nodup _ _ _ _).append hnodup hdisjoint
  have hlength := hperm.length_eq
  rwa [List.length_append, List.length_map] at hlength

end Overtakers

/-! ## Steps of the window -/

/-- The entry stays as it is, goes, or takes a turn. -/
def Turns (turn : PendingSubmit → PendingSubmit → Prop)
    (entry entry' : Option PendingSubmit) : Prop :=
  entry' = entry ∨ entry' = none ∨ ∃ e e', entry = some e ∧ turn e e' ∧ entry' = some e'

theorem Turns.trans {turn : PendingSubmit → PendingSubmit → Prop}
    (hlast : ∀ e e' e'', turn e e' → ¬ turn e' e'') {a b c : Option PendingSubmit}
    (h : Turns turn a b) (h' : Turns turn b c) : Turns turn a c := by
  rcases h' with rfl | rfl | ⟨e, e', rfl, hturn, rfl⟩
  · exact h
  · exact Or.inr (Or.inl rfl)
  · rcases h with heq | hnone | ⟨d, d', rfl, hturn', heq⟩
    · exact Or.inr (Or.inr ⟨e, e', heq.symm, hturn, rfl⟩)
    · cases hnone
    · cases heq
      exact absurd hturn (hlast d e e' hturn')

theorem Turns.mono {turn turn' : PendingSubmit → PendingSubmit → Prop}
    (hturn : ∀ e e', turn e e' → turn' e e') {a b : Option PendingSubmit} (h : Turns turn a b) :
    Turns turn' a b := by
  rcases h with h | h | ⟨e, e', he, h, he'⟩
  · exact Or.inl h
  · exact Or.inr (Or.inl h)
  · exact Or.inr (Or.inr ⟨e, e', he, hturn e e' h, he'⟩)

namespace Window

variable {config : ConnectionConfig} {w w' : Window} {x time : ℕ} {keys : List SubmitAttemptKey}

/-- What a step of another task than the scan does with an entry that it does not remove. -/
inductive Turn (w w' : Window) : PendingSubmit → PendingSubmit → Prop
  | claim (e : PendingSubmit) (attempt : ℕ) :
    e.state = .queued attempt → w'.status = .claimed →
    Turn w w' e { e with state := .writing attempt }
  | complete (e : PendingSubmit) (attempt writtenAt : ℕ) :
    e.state = .writing attempt → w.status = .written writtenAt →
    Turn w w' e { e with state := .awaitingResponse attempt writtenAt }
  | answer (e : PendingSubmit) (attempt : ℕ) :
    e.state = .writing attempt →
    Turn w w' e { e with state := .respondedWhileWriting attempt }

theorem turns_claim (pending : PendingSubmits) (allowed : Bool) (batch : List Outbound) (x : ℕ) :
    Turns (fun e e' => ∃ attempt, e.state = .queued attempt ∧
      e' = { e with state := .writing attempt }) (pending.find x)
      ((claimSubmitAttempts allowed pending batch).1.find x) := by
  have hat : (Compaction.sweep (claimEntry allowed) (pending.find x)
        (batch.filter (Outbound.carries x))).1 =
      (claimSubmitAttempts allowed pending batch).1.find x :=
    congrArg Prod.fst (claimSubmitAttempts_at pending allowed x batch)
  rw [← hat]
  apply Compaction.sweep_relates
  · exact fun _ => Or.inl rfl
  · intro a b c
    apply Turns.trans
    rintro e _ _ ⟨k, _, rfl⟩ ⟨k', hk', _⟩
    cases hk'
  · intro entry outbound
    unfold claimEntry
    split
    · exact Or.inl rfl
    · next key e hkey =>
      split_ifs with hclaims
      · exact Or.inr (Or.inr ⟨e, _, rfl, ⟨key.attempt, hclaims.2.2, rfl⟩, rfl⟩)
      · exact Or.inl rfl
    · exact Or.inl rfl

theorem turns_complete (pending : PendingSubmits) (writtenAt : ℕ) (batch : List Outbound) (x : ℕ) :
    Turns (fun e e' => ∃ attempt, e.state = .writing attempt ∧
      e' = { e with state := .awaitingResponse attempt writtenAt }) (pending.find x)
      ((completeSubmitAttempts writtenAt pending
        (batch.filterMap Outbound.submitAttempt)).find x) := by
  rw [completeSubmitAttempts_at]
  generalize ((batch.filter (Outbound.carries x)).filterMap Outbound.submitAttempt) = keys
  generalize pending.find x = entry
  induction keys generalizing entry with
  | nil => exact Or.inl rfl
  | cons key keys ih =>
    refine Turns.trans ?_ ?_ (ih (completeEntry writtenAt entry key))
    · rintro e _ _ ⟨k, _, rfl⟩ ⟨k', hk', _⟩
      cases hk'
    · unfold completeEntry
      split
      · exact Or.inl rfl
      · next e =>
        split_ifs with hid hwriting hresponded
        · exact Or.inl rfl
        · exact Or.inr (Or.inr ⟨e, _, rfl, ⟨key.attempt, hwriting, rfl⟩, rfl⟩)
        · exact Or.inr (Or.inl rfl)
        · exact Or.inl rfl

theorem turns_match (pending : PendingSubmits) (responses : List SubmitResponse) (x : ℕ) :
    Turns (fun e e' => ∃ attempt, e.state = .writing attempt ∧
      e' = { e with state := .respondedWhileWriting attempt }) (pending.find x)
      ((matchSubmitResps pending responses).1.find x) := by
  have hat : (Compaction.sweep matchEntry (pending.find x)
      (responses.filter fun response => response.sequenceId = x)).1 =
        (matchSubmitResps pending responses).1.find x :=
    congrArg Prod.fst (matchSubmitResps_at pending x responses)
  rw [← hat]
  apply Compaction.sweep_relates
  · exact fun _ => Or.inl rfl
  · intro a b c
    apply Turns.trans
    rintro e _ _ ⟨k, _, rfl⟩ ⟨k', hk', _⟩
    cases hk'
  · intro entry response
    unfold matchEntry
    split
    · exact Or.inl rfl
    · next e =>
      split
      · next attempt hstate => exact Or.inr (Or.inr ⟨e, _, rfl, ⟨attempt, hstate, rfl⟩, rfl⟩)
      · exact Or.inl rfl
      · exact Or.inr (Or.inl rfl)
      · exact Or.inr (Or.inl rfl)

/-- A step that takes nothing off the list of the scan. A new entry has an id that was never
admitted. -/
theorem Step.turns (hstep : Step config w w') (hexpired : w'.expired = w.expired) (x : ℕ) :
    Turns (Turn w w') (w.pending.find x) (w'.pending.find x) ∨
      w.pending.find x = none ∧ (∀ a ∈ w.log.admissions, a.sequenceId ≠ x) ∧
        ∃ e, w'.pending.find x = some e ∧ e.state = .queued 1 := by
  cases hstep with
  | admitSubmit admission entry hopen hnew hnone hsub hpacket hstate =>
    by_cases hx : x = admission.sequenceId
    · subst hx
      refine Or.inr ⟨hnone, hnew, entry, ?_, hstate⟩
      rw [OrderedMap.find_insert, if_pos rfl]
    · refine Or.inl (Or.inl ?_)
      rw [OrderedMap.find_insert, if_neg hx]
  | claim batch rest hline hstatus hheld =>
    refine Or.inl ((turns_claim _ _ batch x).mono ?_)
    rintro e _ ⟨attempt, hstate, rfl⟩
    exact .claim e attempt hstate rfl
  | complete batch writtenAt hheld hstatus =>
    refine Or.inl ((turns_complete _ writtenAt batch x).mono ?_)
    rintro e _ ⟨attempt, hstate, rfl⟩
    exact .complete e attempt writtenAt hstate hstatus
  | matchResps responses hemitting =>
    refine Or.inl ((turns_match _ responses x).mono ?_)
    rintro e _ ⟨attempt, hstate, rfl⟩
    exact .answer e attempt hstate
  | giveUp key keys entry hkeys hattempt hstill =>
    rw [hkeys] at hexpired
    exact absurd hexpired.symm (List.cons_ne_self _ _)
  | retry key keys entry hopen hkeys hattempt hstill =>
    rw [hkeys] at hexpired
    exact absurd hexpired.symm (List.cons_ne_self _ _)
  | drain index order hindex horder => exact Or.inl (Or.inr (Or.inl OrderedMap.find_empty))
  | _ => exact Or.inl (Or.inl rfl)

theorem Step.clock_le (hstep : Step config w w') : w.clock ≤ w'.clock := by
  cases hstep with
  | clock duration => exact Nat.le_add_right _ _
  | _ => exact Nat.le_refl _

theorem Step.status_written (hstep : Step config w w') {writtenAt : ℕ}
    (h : w'.status = .written writtenAt) : w.status = .written writtenAt ∨ writtenAt = w.clock := by
  cases hstep with
  | claim batch rest hline hstatus hheld => cases h
  | rest hheld => cases h
  | hand batch hheld hstatus => cases h
  | write batch hheld hstatus =>
    cases h
    exact Or.inr rfl
  | complete batch writtenAt hheld hstatus => cases h
  | _ => exact Or.inl h

/-- Nothing comes before an attempt of the past that did not before. -/
theorem Step.overtakers_subset (hstep : Step config w w') (hexpired : w'.expired = w.expired)
    (hpast : time < w.clock) :
    ∀ y ∈ overtakers w'.status w'.pending time keys,
      y ∈ overtakers w.status w.pending time keys := by
  intro y hy
  rw [mem_overtakers] at hy ⊢
  obtain ⟨⟨e', hfind', hovertakes⟩, hnot⟩ := hy
  refine ⟨?_, hnot⟩
  rcases hstep.turns hexpired y with (heq | hnone | ⟨e, e'', hfind, hturn, hfind''⟩) |
    ⟨_, _, e, hfind, hstate⟩
  · refine ⟨e', heq.symm.trans hfind', ?_⟩
    cases hstate : e'.state with
    | writing attempt =>
      rw [hstate] at hovertakes
      unfold SubmitAttemptState.overtakes at hovertakes ⊢
      dsimp only at hovertakes ⊢
      split at hovertakes
      · next writtenAt hstatus =>
        rcases hstep.status_written hstatus with hbefore | hnow
        · rw [hbefore]
          exact hovertakes
        · have hle := of_decide_eq_true hovertakes
          omega
      · cases hovertakes
    | _ =>
      rw [hstate] at hovertakes
      exact hovertakes
  · cases hnone.symm.trans hfind'
  · cases hfind''.symm.trans hfind'
    refine ⟨e, hfind, ?_⟩
    cases hturn with
    | claim attempt hstate hclaimed =>
      unfold SubmitAttemptState.overtakes at hovertakes
      rw [hclaimed] at hovertakes
      cases hovertakes
    | complete attempt writtenAt hstate hstatus =>
      unfold SubmitAttemptState.overtakes
      rw [hstate, hstatus]
      exact hovertakes
    | answer attempt hstate => cases hovertakes
  · cases hfind.symm.trans hfind'
    rw [hstate] at hovertakes
    cases hovertakes

/-- What waits for its response goes on waiting, or its entry goes. -/
theorem Step.stays (hstep : Step config w w') (hexpired : w'.expired = w.expired)
    {entry : PendingSubmit} (hfind : w.pending.find x = some entry) {attempt writtenAt : ℕ}
    (hstate : entry.state = .awaitingResponse attempt writtenAt) :
    w'.pending.find x = none ∨ w'.pending.find x = some entry := by
  rcases hstep.turns hexpired x with (heq | hnone | ⟨e, e', hfind', hturn, _⟩) | ⟨hnone, _⟩
  · exact Or.inr (heq.trans hfind)
  · exact Or.inl hnone
  · cases hfind.symm.trans hfind'
    cases hturn with
    | claim attempt hqueued hclaimed => cases hstate.symm.trans hqueued
    | complete attempt writtenAt hwriting hstatus => cases hstate.symm.trans hwriting
    | answer attempt hwriting => cases hstate.symm.trans hwriting
  · cases hnone.symm.trans hfind

/-- An entry that has gone does not come back. -/
theorem Step.absent (hstep : Step config w w') (hexpired : w'.expired = w.expired)
    (hnone : w.pending.find x = none) (hadmitted : ∃ a ∈ w.log.admissions, a.sequenceId = x) :
    w'.pending.find x = none := by
  rcases hstep.turns hexpired x with (heq | hnone' | ⟨e, e', hfind, _⟩) | ⟨_, hnew, _⟩
  · exact heq.trans hnone
  · exact hnone'
  · cases hnone.symm.trans hfind
  · obtain ⟨a, ha, hx⟩ := hadmitted
    exact absurd hx (hnew a ha)

end Window

end CmppProtocol
