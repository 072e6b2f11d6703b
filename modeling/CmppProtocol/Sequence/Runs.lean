import CmppProtocol.Library.Machine
import CmppProtocol.Sequence.Operations

/-! # Runs of the registry

Callers hold leases and, in any order, reserve the next id, reserve batches,
retire leases and drop them. A lease stays live until it is dropped, also after
it was retired.
-/

namespace CmppProtocol

open IntervalTable SequenceState

structure SequenceRegistry where
  state : SequenceState
  live : List SequenceLease

inductive RegistryEvent
  | reserveNext (id : Option ℕ)
  | reserveBatch (base : UInt32) (count : ℕ) (leases : Option (List SequenceLease))
  | retire (id : ℕ) (ok : Bool)
  | drop (id : ℕ)

namespace SequenceRegistry

inductive Step : SequenceRegistry → RegistryEvent → SequenceRegistry → Prop
  | issued {state st : SequenceState} {live : List SequenceLease} {id : ℕ} :
    state.ReserveNext (some id) st →
    Step ⟨state, live⟩ (.reserveNext (some id)) ⟨st, ⟨id, false, true⟩ :: live⟩
  | exhausted {state st : SequenceState} {live : List SequenceLease} :
    state.ReserveNext none st → Step ⟨state, live⟩ (.reserveNext none) ⟨st, live⟩
  | granted {state st : SequenceState} {live leases : List SequenceLease} {base : UInt32}
      {count : ℕ} :
    state.reserveBatch base count = (some leases, st) →
    Step ⟨state, live⟩ (.reserveBatch base count (some leases)) ⟨st, leases ++ live⟩
  | refused {state st : SequenceState} {live : List SequenceLease} {base : UInt32} {count : ℕ} :
    state.reserveBatch base count = (none, st) →
    Step ⟨state, live⟩ (.reserveBatch base count none) ⟨st, live⟩
  | retire {state st : SequenceState} {pre post : List SequenceLease} {l l' : SequenceLease}
      {ok : Bool} :
    l.retire state = (ok, l', st) →
    Step ⟨state, pre ++ l :: post⟩ (.retire l.sequenceId ok) ⟨st, pre ++ l' :: post⟩
  | drop {state : SequenceState} {pre post : List SequenceLease} {l : SequenceLease} :
    Step ⟨state, pre ++ l :: post⟩ (.drop l.sequenceId) ⟨l.drop state, pre ++ post⟩

def machine (next : UInt32) : Machine SequenceRegistry RegistryEvent where
  init s := s = ⟨.new next, []⟩
  step := Step

def liveIds (s : SequenceRegistry) : List ℕ := s.live.map SequenceLease.sequenceId

end SequenceRegistry

/-- The ids returned by `reserve_next`, in order. -/
def issuedIds (h : List RegistryEvent) : List ℕ :=
  h.filterMap fun e =>
    match e with
    | .reserveNext id => id
    | _ => none

@[simp] theorem issuedIds_snoc (h : List RegistryEvent) (id : ℕ) :
    issuedIds (h ++ [.reserveNext (some id)]) = issuedIds h ++ [id] := by
  simp [issuedIds]

theorem issuedIds_snoc_of_ne {h : List RegistryEvent} {e : RegistryEvent}
    (he : ∀ id, e ≠ .reserveNext (some id)) : issuedIds (h ++ [e]) = issuedIds h := by
  unfold issuedIds
  rw [List.filterMap_append]
  cases e with
  | reserveNext id =>
    cases id with
    | none => simp
    | some id => exact absurd rfl (he id)
  | _ => simp

namespace SequenceRegistry

variable {next : UInt32} {h : List RegistryEvent} {s s' : SequenceRegistry} {e : RegistryEvent}
  {x : ℕ}

/-- The id is held by a live lease or kept after a failed retirement, and was
never retired successfully. -/
def Held (h : List RegistryEvent) (live : List SequenceLease) (x : ℕ) : Prop :=
  (x ∈ live.map SequenceLease.sequenceId ∨ .retire x false ∈ h) ∧ .retire x true ∉ h

/-- What the history says about the registry and the live leases. -/
structure Recorded (h : List RegistryEvent) (s : SequenceRegistry) : Prop where
  wellFormed : s.state.WellFormed
  live_nodup : s.liveIds.Nodup
  live_le : ∀ x ∈ s.liveIds, x ≤ u32Max
  reserved_iff : ∀ x, x ∈ s.state.reserved ↔ Held h s.live x
  releasable : ∀ l ∈ s.live, l.releaseOnDrop = true ↔ ∀ ok, .retire l.sequenceId ok ∉ h
  retired_blocked : ∀ x, .retire x true ∈ h → x ∈ s.state.blocked
  issued_prefix : ∀ x ∈ issuedIds h, s.state.automaticStart ≤ x ∧ x < s.state.cursor
  issued_increasing : (issuedIds h).Pairwise (· < ·)

theorem recorded_init : Recorded [] ⟨.new next, []⟩ := by
  refine ⟨new_wellFormed next, List.nodup_nil, by simp [liveIds], ?_, by simp, by simp,
    by simp [issuedIds], List.Pairwise.nil⟩
  simp [Held, new]

/-- An id that is neither reserved nor blocked has not been leased before, unless
the lease was dropped unused. -/
theorem Recorded.fresh (hr : Recorded h s) (hres : x ∉ s.state.reserved)
    (hb : x ∉ s.state.blocked) :
    x ∉ s.liveIds ∧ (∀ ok, .retire x ok ∉ h) ∧ x ∉ issuedIds h := by
  have htrue : .retire x true ∉ h := fun hm => hb (hr.retired_blocked x hm)
  refine ⟨fun hl => ?_, fun ok hm => ?_, fun hi => ?_⟩
  · exact hres ((hr.reserved_iff x).mpr ⟨Or.inl hl, htrue⟩)
  · cases ok with
    | true => exact htrue hm
    | false => exact hres ((hr.reserved_iff x).mpr ⟨Or.inr hm, htrue⟩)
  · exact hb (Or.inl ((hr.wellFormed.prefix_iff x).mpr (hr.issued_prefix x hi)))

/-- New leases on fresh ids are recorded. -/
theorem Recorded.acquire (hr : Recorded h s) (leases : List SequenceLease)
    (he : ∀ x ok, e ≠ .retire x ok) {st : SequenceState} (hw : st.WellFormed)
    (hnodup : (leases.map SequenceLease.sequenceId).Nodup)
    (hle : ∀ x ∈ leases.map SequenceLease.sequenceId, x ≤ u32Max)
    (hfree : ∀ x ∈ leases.map SequenceLease.sequenceId,
      x ∉ s.state.reserved ∧ x ∉ s.state.blocked)
    (hrelease : ∀ l ∈ leases, l.releaseOnDrop = true)
    (hreserved : ∀ x, x ∈ st.reserved ↔
      x ∈ leases.map SequenceLease.sequenceId ∨ x ∈ s.state.reserved)
    (hblocked : s.state.blocked ⊆ st.blocked)
    (hissued : ∀ x ∈ issuedIds (h ++ [e]), st.automaticStart ≤ x ∧ x < st.cursor)
    (hincr : (issuedIds (h ++ [e])).Pairwise (· < ·)) :
    Recorded (h ++ [e]) ⟨st, leases ++ s.live⟩ := by
  have hretire : ∀ x ok, .retire x ok ∈ h ++ [e] ↔ .retire x ok ∈ h := by
    intro x ok
    simp [(he x ok).symm]
  refine ⟨hw, ?_, ?_, ?_, ?_, ?_, hissued, hincr⟩
  · simp only [liveIds, List.map_append]
    refine hnodup.append hr.live_nodup fun x hx hx' => ?_
    obtain ⟨hres, hb⟩ := hfree x hx
    exact (hr.fresh hres hb).1 hx'
  · intro x hx
    simp only [liveIds, List.map_append, List.mem_append] at hx
    exact hx.elim (hle x) (hr.live_le x)
  · intro x
    rw [hreserved, hr.reserved_iff]
    simp only [Held, hretire, List.map_append, List.mem_append]
    constructor
    · rintro (hx | ⟨hx, hn⟩)
      · obtain ⟨hres, hb⟩ := hfree x hx
        exact ⟨Or.inl (Or.inl hx), (hr.fresh hres hb).2.1 true⟩
      · exact ⟨hx.imp_left Or.inr, hn⟩
    · rintro ⟨(hx | hx) | hx, hn⟩
      · exact Or.inl hx
      · exact Or.inr ⟨Or.inl hx, hn⟩
      · exact Or.inr ⟨Or.inr hx, hn⟩
  · intro l hl
    simp only [hretire]
    rcases List.mem_append.mp hl with hl | hl
    · obtain ⟨hres, hb⟩ := hfree _ (List.mem_map_of_mem hl)
      simp only [hrelease l hl, true_iff]
      exact (hr.fresh hres hb).2.1
    · exact hr.releasable l hl
  · intro x hx
    exact hblocked (hr.retired_blocked x ((hretire x true).mp hx))

theorem Recorded.issued {state st : SequenceState} {live : List SequenceLease} {id : ℕ}
    (hr : Recorded h ⟨state, live⟩) (hn : state.ReserveNext (some id) st) :
    Recorded (h ++ [.reserveNext (some id)]) ⟨st, ⟨id, false, true⟩ :: live⟩ := by
  have hw : state.WellFormed := hr.wellFormed
  have hi := reserveNext_some hw hn
  have hstart := hw.start_le
  have hlo := hi.cursor_le
  have hold : ∀ x ∈ issuedIds h, state.automaticStart ≤ x ∧ x < state.cursor := hr.issued_prefix
  apply hr.acquire [⟨id, false, true⟩] (by simp) hi.wellFormed
  · exact List.nodup_singleton id
  · simpa using hi.id_le
  · simpa using ⟨hi.not_reserved, hi.not_blocked⟩
  · simp
  · intro x
    simp [hi.reserved_eq]
  · exact hi.blocked_subset
  · intro x hx
    rw [issuedIds_snoc, List.mem_append, List.mem_singleton] at hx
    rw [hi.start_eq, hi.cursor_eq]
    rcases hx with hx | rfl
    · have := hold x hx
      omega
    · omega
  · rw [issuedIds_snoc]
    refine List.pairwise_append.mpr ⟨hr.issued_increasing, List.pairwise_singleton _ _, ?_⟩
    intro x hx y hy
    have := hold x hx
    rw [List.mem_singleton.mp hy]
    omega

theorem Recorded.exhausted {state st : SequenceState} {live : List SequenceLease}
    (hr : Recorded h ⟨state, live⟩) (hn : state.ReserveNext none st) :
    Recorded (h ++ [.reserveNext none]) ⟨st, live⟩ := by
  have hw : state.WellFormed := hr.wellFormed
  have hx := reserveNext_none hw hn
  have hid := issuedIds_snoc_of_ne (h := h) (e := .reserveNext none) (by simp)
  apply hr.acquire [] (by simp) hx.wellFormed
  all_goals try simp
  · simp [hx.reserved_eq]
  · exact hx.blocked_subset
  · intro x hm
    rw [hid] at hm
    have hp := hr.issued_prefix x hm
    rw [hx.start_eq]
    exact ⟨hp.1, hp.2.trans_le hx.cursor_le⟩
  · rw [hid]
    exact hr.issued_increasing

theorem Recorded.granted {state st : SequenceState} {live leases : List SequenceLease}
    {base : UInt32} {count : ℕ} (hr : Recorded h ⟨state, live⟩)
    (hb : state.reserveBatch base count = (some leases, st)) :
    Recorded (h ++ [.reserveBatch base count (some leases)]) ⟨st, leases ++ live⟩ := by
  have hw : state.WellFormed := hr.wellFormed
  have hg := reserveBatch_some hw hb
  have hids : leases.map SequenceLease.sequenceId = batchIds base count := by
    simp [hg.leases_eq, Function.comp_def]
  have hid := issuedIds_snoc_of_ne (h := h) (e := .reserveBatch base count (some leases)) (by simp)
  apply hr.acquire leases (by simp) hg.wellFormed <;> try rw [hids]
  · exact batchIds_nodup hg.count_le
  · exact fun x hx => batchIds_le hx
  · exact fun x hx => ⟨(hg.free x hx).2, (hg.free x hx).1⟩
  · simp [hg.leases_eq]
  · intro x
    simp [hg.state_eq, or_comm]
  · exact hg.blocked_eq.symm.subset
  · rw [hid, hg.state_eq]
    exact hr.issued_prefix
  · rw [hid]
    exact hr.issued_increasing

theorem Recorded.refused {base : UInt32} {count : ℕ} (hr : Recorded h s) :
    Recorded (h ++ [.reserveBatch base count none]) s := by
  have hid := issuedIds_snoc_of_ne (h := h) (e := .reserveBatch base count none) (by simp)
  apply hr.acquire [] (by simp) hr.wellFormed
  all_goals try simp
  · rw [hid]
    exact hr.issued_prefix
  · rw [hid]
    exact hr.issued_increasing

theorem retire_blocked_subset {state st : SequenceState} {l l' : SequenceLease} {ok : Bool}
    (hw : state.WellFormed) (hle : l.sequenceId ≤ u32Max)
    (hl : l.retire state = (ok, l', st)) : state.blocked ⊆ st.blocked := by
  have hst : state.retire l.sequenceId = (ok, st) := by
    simp only [SequenceLease.retire, Prod.mk.injEq] at hl
    exact Prod.ext hl.1 hl.2.2
  cases ok with
  | true =>
    rw [(retire_true hw hle hst).2.1]
    exact Set.subset_insert _ _
  | false => rw [(retire_false hw hle hst).1]

theorem blocked_drop (l : SequenceLease) (state : SequenceState) :
    (l.drop state).blocked = state.blocked := by
  unfold SequenceLease.drop
  split_ifs <;> rfl

theorem Recorded.retire {state st : SequenceState} {pre post : List SequenceLease}
    {l l' : SequenceLease} {ok : Bool} (hr : Recorded h ⟨state, pre ++ l :: post⟩)
    (hl : l.retire state = (ok, l', st)) :
    Recorded (h ++ [.retire l.sequenceId ok]) ⟨st, pre ++ l' :: post⟩ := by
  have hw : state.WellFormed := hr.wellFormed
  obtain ⟨hst, hl'⟩ : state.retire l.sequenceId = (ok, st) ∧
      l' = { l with releaseOnDrop := false } := by
    simp only [SequenceLease.retire, Prod.mk.injEq] at hl
    exact ⟨Prod.ext hl.1 hl.2.2, hl.2.1.symm⟩
  have hids : (pre ++ l' :: post).map SequenceLease.sequenceId =
      (pre ++ l :: post).map SequenceLease.sequenceId := by simp [hl']
  have hmem : l.sequenceId ∈ (pre ++ l :: post).map SequenceLease.sequenceId := by simp
  have hnodup : ((pre ++ l :: post).map SequenceLease.sequenceId).Nodup := hr.live_nodup
  have hle := hr.live_le l.sequenceId hmem
  have hid := issuedIds_snoc_of_ne (h := h) (e := .retire l.sequenceId ok) (by simp)
  have hother : ∀ k ∈ pre ++ l' :: post, k = l' ∨
      k ∈ pre ++ l :: post ∧ k.sequenceId ≠ l.sequenceId := by
    intro k hk
    simp only [List.map_append, List.map_cons] at hnodup
    rcases List.mem_append.mp hk with hk | hk
    · refine Or.inr ⟨by simp [hk], fun he => ?_⟩
      exact (List.nodup_append.mp hnodup).2.2 _ (List.mem_map_of_mem hk) _ List.mem_cons_self he
    · rcases List.mem_cons.mp hk with hk | hk
      · exact Or.inl hk
      · refine Or.inr ⟨by simp [hk], fun he => ?_⟩
        have := (List.nodup_cons.mp (List.nodup_append.mp hnodup).2.1).1
        exact this (he ▸ List.mem_map_of_mem hk)
  have hreleasable : ∀ k ∈ pre ++ l' :: post, k.releaseOnDrop = true ↔
      ∀ ok', .retire k.sequenceId ok' ∉ h ++ [.retire l.sequenceId ok] := by
    intro k hk
    rcases hother k hk with rfl | ⟨hk, hne⟩
    · simp only [hl', Bool.false_eq_true, false_iff, not_forall, not_not]
      exact ⟨ok, by simp⟩
    · simpa [hne] using hr.releasable k hk
  cases ok with
  | true =>
    obtain ⟨hw', hblocked, hres, hstart, hcursor⟩ := retire_true hw hle hst
    refine ⟨hw', by rw [liveIds, hids]; exact hr.live_nodup,
      by rw [liveIds, hids]; exact hr.live_le, ?_, hreleasable,
      ?_, ?_, hid ▸ hr.issued_increasing⟩
    · intro x
      have := hr.reserved_iff x
      simp only [Held, hids, List.mem_append, List.mem_singleton,
        RegistryEvent.retire.injEq] at this ⊢
      rw [hres, Finset.mem_erase, this]
      tauto
    · intro x hx
      rw [hblocked]
      rcases List.mem_append.mp hx with hx | hx
      · exact Set.mem_insert_of_mem _ (hr.retired_blocked x hx)
      · simp_all
    · intro x hx
      rw [hid] at hx
      rw [hstart, hcursor]
      exact hr.issued_prefix x hx
  | false =>
    obtain ⟨rfl, hnb, _⟩ := retire_false hw hle hst
    refine ⟨hw, by rw [liveIds, hids]; exact hr.live_nodup,
      by rw [liveIds, hids]; exact hr.live_le, ?_, hreleasable,
      ?_, ?_, hid ▸ hr.issued_increasing⟩
    · intro x
      have := hr.reserved_iff x
      have htrue : RegistryEvent.retire l.sequenceId true ∉ h :=
        fun hm => hnb (hr.retired_blocked _ hm)
      simp only [Held, hids, List.mem_append, List.mem_singleton,
        RegistryEvent.retire.injEq] at this ⊢
      rw [this]
      constructor
      · rintro ⟨hx, hn⟩
        exact ⟨hx.imp_right Or.inl, by simpa using hn⟩
      · rintro ⟨hx | hx | ⟨rfl, _⟩, hn⟩
        · exact ⟨Or.inl hx, by simpa using hn⟩
        · exact ⟨Or.inr hx, by simpa using hn⟩
        · exact ⟨Or.inl hmem, htrue⟩
    · intro x hx
      refine hr.retired_blocked x ?_
      simpa using hx
    · rw [hid]
      exact hr.issued_prefix

theorem Recorded.drop {state : SequenceState} {pre post : List SequenceLease}
    {l : SequenceLease} (hr : Recorded h ⟨state, pre ++ l :: post⟩) :
    Recorded (h ++ [.drop l.sequenceId]) ⟨l.drop state, pre ++ post⟩ := by
  have hw : state.WellFormed := hr.wellFormed
  have hnodup : ((pre ++ l :: post).map SequenceLease.sequenceId).Nodup := hr.live_nodup
  have hle : ∀ x ∈ (pre ++ l :: post).map SequenceLease.sequenceId, x ≤ u32Max := hr.live_le
  have hid := issuedIds_snoc_of_ne (h := h) (e := .drop l.sequenceId) (by simp)
  have hdrop : ∀ x ok, .retire x ok ∈ h ++ [.drop l.sequenceId] ↔ .retire x ok ∈ h := by simp
  have hsub : (pre ++ post).Sublist (pre ++ l :: post) :=
    (List.Sublist.refl pre).append (List.sublist_cons_self l post)
  have hgone : l.sequenceId ∉ (pre ++ post).map SequenceLease.sequenceId := by
    rw [List.map_append, List.map_cons, List.nodup_middle, ← List.map_append] at hnodup
    exact (List.nodup_cons.mp hnodup).1
  obtain ⟨hw', hblocked, hstart, hcursor, hres⟩ : (l.drop state).WellFormed ∧
      (l.drop state).blocked = state.blocked ∧
      (l.drop state).automaticStart = state.automaticStart ∧
      (l.drop state).cursor = state.cursor ∧
      ∀ x, x ∈ (l.drop state).reserved ↔
        x ∈ state.reserved ∧ (x = l.sequenceId → l.releaseOnDrop = false) := by
    unfold SequenceLease.drop
    split_ifs with hl
    · refine ⟨hw.release _, rfl, rfl, rfl, fun x => ?_⟩
      simp [release, hl, and_comm]
    · simp [hw, hl]
  refine ⟨hw', hnodup.sublist (hsub.map _), fun x hx => hle x ((hsub.map _).subset hx), ?_, ?_,
    ?_, ?_, hid ▸ hr.issued_increasing⟩
  · intro x
    have hx := hr.reserved_iff x
    have hrel := hr.releasable l (by simp)
    simp only [Held, hdrop, List.map_append, List.map_cons, List.mem_append,
      List.mem_cons] at hx hgone ⊢
    rw [hres, hx]
    by_cases hxl : x = l.sequenceId
    · -- The dropped lease kept its id exactly when a retirement was tried.
      subst hxl
      rw [← Bool.not_eq_true, hrel, Bool.forall_bool]
      tauto
    · simp only [hxl, false_or, false_implies, and_true]
  · intro k hk
    simp only [hdrop]
    exact hr.releasable k (hsub.subset hk)
  · intro x hx
    rw [hblocked]
    exact hr.retired_blocked x ((hdrop x true).mp hx)
  · rw [hid, hstart, hcursor]
    exact hr.issued_prefix

theorem Recorded.step (hr : Recorded h s) (hs : Step s e s') : Recorded (h ++ [e]) s' := by
  cases hs with
  | issued hn => exact hr.issued hn
  | exhausted hn => exact hr.exhausted hn
  | granted hb => exact hr.granted hb
  | refused hb =>
    obtain rfl := reserveBatch_none hb
    exact hr.refused
  | retire hl => exact hr.retire hl
  | drop => exact hr.drop

theorem run_recorded (hr : (machine next).Run h s) : Recorded h s :=
  hr.invariant (fun _ hs => hs ▸ recorded_init) fun _ _ _ _ hI hs => hI.step hs

theorem Recorded.blocked_subset (hr : Recorded h s) (hs : Step s e s') :
    s.state.blocked ⊆ s'.state.blocked := by
  have hw := hr.wellFormed
  cases hs with
  | issued hn => exact (reserveNext_some hw hn).blocked_subset
  | exhausted hn => exact (reserveNext_none hw hn).blocked_subset
  | granted hb => exact (reserveBatch_some hw hb).blocked_eq.symm.subset
  | refused hb => rw [reserveBatch_none hb]
  | retire hl => exact retire_blocked_subset hw (hr.live_le _ (by simp [liveIds])) hl
  | drop => rw [blocked_drop]

/-- Sequence ids are never reused. In every run no blocked id is freed, live leases
have different ids and account for the reservations, the automatic ids increase and are
fresh, a batch is granted on fresh ids or changes nothing, and the cursor's loop ends. -/
theorem ids_never_reused (hr : (machine next).Run h s) :
    (∀ h' s', (machine next).Path s h' s' → s.state.blocked ⊆ s'.state.blocked) ∧
    s.liveIds.Nodup ∧ (∀ x, x ∈ s.state.reserved ↔ Held h s.live x) ∧
    (issuedIds h).Pairwise (· < ·) ∧
    (∀ id s', Step s (.reserveNext (some id)) s' →
      id ≠ 0 ∧ id ∉ s.liveIds ∧ (∀ ok, .retire id ok ∉ h) ∧ s'.liveIds = id :: s.liveIds) ∧
    (∀ base count s', Step s (.reserveBatch base count none) s' → s' = s) ∧
    (∀ base count leases s', Step s (.reserveBatch base count (some leases)) s' →
      leases.map SequenceLease.sequenceId =
        (List.range count).map (fun index => (base.toNat + index) % 4294967296) ∧
      s'.live = leases ++ s.live ∧
      ∀ x ∈ leases.map SequenceLease.sequenceId,
        x ∉ issuedIds h ∧ x ∉ s.state.reserved ∧ ∀ ok, .retire x ok ∉ h) ∧
    ∃ r, Loop.run reserveNextRound (s.state.reserved.card + s.state.retired.size + 1) s.state =
      some r := by
  have hrec := run_recorded hr
  have hw := hrec.wellFormed
  refine ⟨?_, hrec.live_nodup, hrec.reserved_iff, hrec.issued_increasing, ?_, ?_, ?_,
    reserveNext_terminates hw⟩
  · intro h' s' hp
    exact (hp.relates (R := fun s s' => s.state.blocked ⊆ s'.state.blocked) hrec
      (fun _ _ _ _ hI hs => hI.step hs) (fun _ => subset_rfl) (fun _ _ _ => Set.Subset.trans)
      fun _ _ _ _ hI hs => hI.blocked_subset hs).2
  · intro id s' hs
    cases hs with
    | issued hn =>
      have hi := reserveNext_some hw hn
      obtain ⟨hlive, hret, _⟩ := hrec.fresh hi.not_reserved hi.not_blocked
      have hpos := hw.start_pos
      have hstart := hw.start_le
      have hlo := hi.cursor_le
      exact ⟨by omega, hlive, hret, rfl⟩
  · intro base count s' hs
    cases hs with
    | refused hb => rw [reserveBatch_none hb]
  · intro base count leases s' hs
    cases hs with
    | granted hb =>
      have hg := reserveBatch_some hw hb
      have hids : leases.map SequenceLease.sequenceId = batchIds base count := by
        simp [hg.leases_eq, Function.comp_def]
      refine ⟨hids, rfl, fun x hx => ?_⟩
      obtain ⟨hb, hres⟩ := hg.free x (hids ▸ hx)
      obtain ⟨_, hret, hiss⟩ := hrec.fresh hres hb
      exact ⟨hiss, hres, hret⟩

/-- A wrapped batch below the automatic start, then the first automatic id. -/
theorem ids_never_reused_wrapped : ∃ s,
    (machine 2).Run [.reserveBatch 4294967295 3
        (some [⟨4294967295, true, true⟩, ⟨0, true, true⟩, ⟨1, true, true⟩]),
      .reserveNext (some 2)] s ∧
    s.liveIds = [2, 4294967295, 0, 1] ∧ s.liveIds.Nodup := by
  let batch : List SequenceLease := [⟨4294967295, true, true⟩, ⟨0, true, true⟩, ⟨1, true, true⟩]
  obtain ⟨s, hs⟩ : ∃ s, (SequenceState.new 2).reserveBatch 4294967295 3 = (some batch, s) :=
    ⟨_, rfl⟩
  have hn : s.ReserveNext (some 2) _ := ⟨1, by cases hs; rfl⟩
  have hr : (machine 2).Run _ _ :=
    ((Machine.Run.start (m := machine 2) rfl).snoc (.granted hs)).snoc (.issued hn)
  exact ⟨_, hr, rfl, (ids_never_reused hr).2.1⟩

end SequenceRegistry

end CmppProtocol
