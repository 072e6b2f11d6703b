import CmppProtocol.Sequence.Operations
import Mathlib.Algebra.Order.Group.Multiset

/-! # Leases that hold the reservations

The reservations are the ids of a multiset of leases, each once. Every operation
of the registry moves that multiset in the obvious way, and a lease that was
retired holds nothing.
-/

namespace CmppProtocol

namespace SequenceLease

variable {leases leases' : List SequenceLease} {l : SequenceLease}

/-- The reservations that dropping the leases gives up. -/
def held (leases : List SequenceLease) : Multiset ℕ :=
  ((leases.filter releaseOnDrop).map sequenceId : List ℕ)

@[simp] theorem held_nil : held [] = 0 := rfl

@[simp] theorem held_append : held (leases ++ leases') = held leases + held leases' := by
  simp only [held, List.filter_append, List.map_append, Multiset.coe_add]

theorem held_cons : held (l :: leases) = held [l] + held leases := by
  rw [← held_append, List.singleton_append]

theorem held_perm (h : leases.Perm leases') : held leases = held leases' :=
  Multiset.coe_eq_coe.mpr ((h.filter _).map _)

theorem held_releasable (h : l.releaseOnDrop = true) : held [l] = {l.sequenceId} := by
  rw [held, List.filter_cons_of_pos h]
  rfl

theorem held_retired (h : l.releaseOnDrop = false) : held [l] = 0 := by
  rw [held, List.filter_cons_of_neg (by simp [h])]
  rfl

theorem mem_held {x : ℕ} :
    x ∈ held leases ↔ ∃ l ∈ leases, l.releaseOnDrop = true ∧ l.sequenceId = x := by
  simp [held, and_assoc]

end SequenceLease

open SequenceLease

namespace SequenceState

variable {s s' s'' : SequenceState} {id x : ℕ} {ids : Multiset ℕ} {lease : SequenceLease}

/-- The reservations are exactly these ids, each held once. -/
structure Holds (s : SequenceState) (ids : Multiset ℕ) : Prop where
  wellFormed : s.WellFormed
  reserved_eq : s.reserved.val = ids

/-- Blocked ids stay blocked and are never reserved again. -/
structure Keeps (s s' : SequenceState) : Prop where
  blocked : s.blocked ⊆ s'.blocked
  unreserved : ∀ x ∈ s.blocked, x ∉ s.reserved → x ∉ s'.reserved

theorem Keeps.refl (s : SequenceState) : Keeps s s := ⟨subset_rfl, fun _ _ h => h⟩

theorem Keeps.trans (h : Keeps s s') (h' : Keeps s' s'') : Keeps s s'' :=
  ⟨h.blocked.trans h'.blocked, fun x hx hr =>
    h'.unreserved x (h.blocked hx) (h.unreserved x hx hr)⟩

theorem keeps_release (s : SequenceState) (id : ℕ) : Keeps s (s.release id) :=
  ⟨subset_rfl, fun _ _ hr hm => hr (Finset.mem_of_mem_erase hm)⟩

theorem keeps_drop (s : SequenceState) (lease : SequenceLease) : Keeps s (lease.drop s) := by
  rw [SequenceLease.drop]
  split_ifs
  · exact keeps_release s _
  · exact .refl s

/-- The cursor only goes on, and no id is used up but by the cursor. -/
structure Advances (s s' : SequenceState) : Prop where
  passed : s.automaticPrefix ⊆ s'.automaticPrefix
  blocked : s'.blocked ⊆ s.blocked ∪ s'.automaticPrefix

theorem Advances.refl (s : SequenceState) : Advances s s := ⟨subset_rfl, Set.subset_union_left⟩

theorem Advances.trans (h : Advances s s') (h' : Advances s' s'') : Advances s s'' := by
  refine ⟨h.passed.trans h'.passed, fun x hx => ?_⟩
  rcases h'.blocked hx with hx | hx
  · exact (h.blocked hx).imp_right fun hp => h'.passed hp
  · exact Or.inr hx

theorem advances_release (s : SequenceState) (id : ℕ) : Advances s (s.release id) :=
  ⟨subset_rfl, Set.subset_union_left⟩

theorem advances_drop (s : SequenceState) (lease : SequenceLease) : Advances s (lease.drop s) := by
  rw [SequenceLease.drop]
  split_ifs
  · exact advances_release s _
  · exact .refl s

/-- The cursor moves up and the table shrinks. -/
theorem advances_of_cursor (h : s.WellFormed) (h' : s'.WellFormed)
    (hstart : s'.automaticStart = s.automaticStart) (hcursor : s.cursor ≤ s'.cursor)
    (hcovered : IntervalTable.covered s'.retired ⊆ IntervalTable.covered s.retired) :
    Advances s s' := by
  constructor
  · intro x hx
    obtain ⟨hle, hlt⟩ := (h.prefix_iff x).mp hx
    exact (h'.prefix_iff x).mpr ⟨hstart ▸ hle, hlt.trans_le hcursor⟩
  · rintro x (hx | hx)
    · exact Or.inr hx
    · exact Or.inl (Or.inr (hcovered hx))

namespace Holds

theorem nodup (h : s.Holds ids) : ids.Nodup := h.reserved_eq ▸ s.reserved.nodup

theorem mem_iff (h : s.Holds ids) : x ∈ s.reserved ↔ x ∈ ids := by
  rw [← Finset.mem_val, h.reserved_eq]

theorem le_u32Max (h : s.Holds ids) (hx : x ∈ ids) : x ≤ u32Max :=
  h.wellFormed.reserved_le x (h.mem_iff.mpr hx)

theorem issue (h : s.Holds ids) (hs : s.reserveNext = (some id, s')) :
    s'.Holds (id ::ₘ ids) ∧ Keeps s s' ∧ id ∉ s.blocked ∧ id ∈ s'.blocked := by
  have hnext := reserveNext_returns h.wellFormed
  rw [hs] at hnext
  have hissued := reserveNext_some h.wellFormed hnext
  refine ⟨⟨hissued.wellFormed, ?_⟩, ⟨hissued.blocked_subset, ?_⟩, hissued.not_blocked, ?_⟩
  · rw [hissued.reserved_eq, Finset.insert_val_of_notMem hissued.not_reserved, h.reserved_eq]
  · intro x hx hr hm
    rw [hissued.reserved_eq] at hm
    rcases Finset.mem_insert.mp hm with rfl | hm
    · exact hissued.not_blocked hx
    · exact hr hm
  · apply hissued.wellFormed.mem_blocked_iff.mpr
    rw [hissued.start_eq, hissued.cursor_eq]
    exact Or.inl ⟨h.wellFormed.start_le.trans hissued.cursor_le, Nat.lt_succ_self id⟩

/-- The cursor passes the id that it hands out. -/
theorem issue_passed (h : s.Holds ids) (hs : s.reserveNext = (some id, s')) :
    id ∈ s'.automaticPrefix := by
  have hnext := reserveNext_returns h.wellFormed
  rw [hs] at hnext
  have hissued := reserveNext_some h.wellFormed hnext
  apply (hissued.wellFormed.prefix_iff id).mpr
  rw [hissued.start_eq, hissued.cursor_eq]
  exact ⟨h.wellFormed.start_le.trans hissued.cursor_le, Nat.lt_succ_self id⟩

theorem exhaust (h : s.Holds ids) (hs : s.reserveNext = (none, s')) :
    s'.Holds ids ∧ Keeps s s' := by
  have hnext := reserveNext_returns h.wellFormed
  rw [hs] at hnext
  have hpassed := (reserveNext_none h.wellFormed hnext).toPassed
  refine ⟨⟨hpassed.wellFormed, by rw [hpassed.reserved_eq, h.reserved_eq]⟩,
    hpassed.blocked_subset, fun x _ hr => ?_⟩
  rwa [hpassed.reserved_eq]

theorem advances_next {next : Option ℕ} (h : s.Holds ids) (hs : s.reserveNext = (next, s')) :
    Advances s s' := by
  have hnext := reserveNext_returns h.wellFormed
  rw [hs] at hnext
  cases next with
  | none =>
    have hpassed := (reserveNext_none h.wellFormed hnext).toPassed
    exact advances_of_cursor h.wellFormed hpassed.wellFormed hpassed.start_eq hpassed.cursor_le
      hpassed.covered_subset
  | some id =>
    have hissued := reserveNext_some h.wellFormed hnext
    refine advances_of_cursor h.wellFormed hissued.wellFormed hissued.start_eq ?_
      hissued.covered_subset
    exact hissued.cursor_le.trans (hissued.cursor_eq.symm ▸ Nat.le_succ id)

theorem advances_grant {base : UInt32} {count : ℕ} {leases : List SequenceLease} (h : s.Holds ids)
    (hs : s.reserveBatch base count = (some leases, s')) : Advances s s' := by
  have hstate := (reserveBatch_some h.wellFormed hs).state_eq
  rw [hstate]
  exact ⟨subset_rfl, Set.subset_union_left⟩

theorem grant {base : UInt32} {count : ℕ} {leases : List SequenceLease} (h : s.Holds ids)
    (hs : s.reserveBatch base count = (some leases, s')) :
    s'.Holds (held leases + ids) ∧ Keeps s s' ∧
      leases = (batchIds base count).map (fun id => ⟨id, true, true⟩) ∧
      ∀ l ∈ leases, l.sequenceId ∉ s.blocked := by
  have hgrant := reserveBatch_some h.wellFormed hs
  have hids : held leases = (batchIds base count : Multiset ℕ) := by
    rw [hgrant.leases_eq, held, List.filter_map, List.map_map]
    simp [Function.comp_def]
  refine ⟨⟨hgrant.wellFormed, ?_⟩, ⟨hgrant.blocked_eq.symm.subset, ?_⟩, hgrant.leases_eq, ?_⟩
  · have hdisjoint : Disjoint (batchIds base count : Multiset ℕ) ids := by
      rw [Multiset.disjoint_left]
      intro x hx hx'
      exact (hgrant.free x hx).2 (h.mem_iff.mpr hx')
    have hnodup : (batchIds base count).Nodup := batchIds_nodup hgrant.count_le
    rw [hgrant.state_eq, hids, Multiset.add_eq_union_iff_disjoint.mpr hdisjoint,
      Multiset.union_comm, ← h.reserved_eq]
    simp only [Finset.union_val, List.toFinset_val, hnodup.dedup]
  · intro x hx hr hm
    rw [hgrant.state_eq] at hm
    rcases Finset.mem_union.mp hm with hm | hm
    · exact hr hm
    · exact (hgrant.free x (List.mem_toFinset.mp hm)).1 hx
  · intro l hl
    rw [hgrant.leases_eq] at hl
    obtain ⟨x, hx, rfl⟩ := List.mem_map.mp hl
    exact (hgrant.free x hx).1

theorem release (h : s.Holds (id ::ₘ ids)) : (s.release id).Holds ids := by
  refine ⟨h.wellFormed.release id, ?_⟩
  rw [SequenceState.release, Finset.erase_val, h.reserved_eq, Multiset.erase_cons_head]

theorem drop (h : s.Holds (held [lease] + ids)) : (lease.drop s).Holds ids := by
  rw [SequenceLease.drop]
  split_ifs with hr
  · rw [held_releasable hr] at h
    exact h.release
  · rw [held_retired (Bool.eq_false_iff.mpr hr), zero_add] at h
    exact h

theorem retire_true (h : s.Holds (held [lease] + ids)) (hr : lease.releaseOnDrop = true)
    (hs : s.retire lease.sequenceId = (true, s')) :
    s'.Holds ids ∧ Keeps s s' ∧ lease.sequenceId ∈ s'.blocked := by
  rw [held_releasable hr] at h
  have hle := h.le_u32Max (Multiset.mem_add.mpr (Or.inl (Multiset.mem_singleton_self _)))
  obtain ⟨hwf, hblocked, hres, _⟩ := SequenceState.retire_true h.wellFormed hle hs
  refine ⟨⟨hwf, ?_⟩, ⟨?_, ?_⟩, ?_⟩
  · rw [hres, Finset.erase_val, h.reserved_eq, Multiset.singleton_add, Multiset.erase_cons_head]
  · rw [hblocked]
    exact Set.subset_insert _ _
  · intro x _ hr hm
    rw [hres] at hm
    exact hr (Finset.mem_of_mem_erase hm)
  · rw [hblocked]
    exact Set.mem_insert _ _

/-- A blocked id is retired by giving up its reservation. -/
theorem retire_blocked (h : s.Holds ids) (hb : id ∈ s.blocked) :
    s.retire id = (true, s.release id) := by
  rw [SequenceState.retire]
  rcases mem_blocked.mp hb with hp | hc
  · rw [if_pos hp]
  · rw [if_pos ((retiredSequenceContains_iff h.wellFormed.canonical).mpr hc), ite_self]

end Holds

end SequenceState

end CmppProtocol
