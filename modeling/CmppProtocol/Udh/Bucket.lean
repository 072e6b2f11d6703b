import CmppProtocol.Udh.Pool
import Mathlib.Data.List.Nodup

/-! # One bucket of UDH references

In a consistent bucket no reference is both lent out and cooling, and the heap
has at most one cooldown for a reference, which then is cooling. Each operation
is described by the sets of references it leaves.
-/

namespace CmppProtocol

namespace UdhReferenceBucket

variable {bucket bucket' : UdhReferenceBucket} {r reference : UInt8} {now deadline : ℕ}
  {c : UdhCooldown}

theorem word_lt (r : UInt8) : r.toNat / 64 < 4 := Nat.div_lt_of_lt_mul r.toNat_lt

def Active (bucket : UdhReferenceBucket) (r : UInt8) : Prop :=
  Bitmap.Mem bucket.active r.toNat (word_lt r)

def Cooling (bucket : UdhReferenceBucket) (r : UInt8) : Prop :=
  Bitmap.Mem bucket.cooling r.toNat (word_lt r)

theorem mem_setUdhReference {bitmap : Vector UInt64 4} :
    Bitmap.Mem (setUdhReference bitmap reference) r.toNat (word_lt r) ↔
      Bitmap.Mem bitmap r.toNat (word_lt r) ∨ r = reference := by
  rw [setUdhReference, udhReferencePosition, Bitmap.mem_set, UInt8.toNat_inj]

theorem mem_clearUdhReference {bitmap : Vector UInt64 4} :
    Bitmap.Mem (clearUdhReference bitmap reference) r.toNat (word_lt r) ↔
      Bitmap.Mem bitmap r.toNat (word_lt r) ∧ r ≠ reference := by
  rw [clearUdhReference, udhReferencePosition, Bitmap.mem_clear, Ne, Ne, UInt8.toNat_inj]

theorem isSet_iff : udhReferenceIsSet bucket r = true ↔ bucket.Active r ∨ bucket.Cooling r := by
  rw [udhReferenceIsSet, bne_iff_ne]
  exact Bitmap.test_or _

structure Consistent (bucket : UdhReferenceBucket) : Prop where
  exclusive : ∀ r, bucket.Active r → ¬ bucket.Cooling r
  cooling : ∀ c ∈ bucket.cooldowns, bucket.Cooling c.reference
  unique : (bucket.cooldowns.items.map UdhCooldown.reference).Nodup

theorem not_active_default : ¬ default.Active r := Bitmap.not_mem_zero _

theorem not_cooling_default : ¬ default.Cooling r := Bitmap.not_mem_zero _

theorem Consistent.default : default.Consistent where
  exclusive _ h := absurd h not_active_default
  cooling _ hc := absurd hc MinHeap.not_mem_empty
  unique := .nil

/-! ## The purge -/

/-- What a purge leaves of a bucket: the cooldowns that are not over. -/
structure Purged (now : ℕ) (bucket bucket' : UdhReferenceBucket) : Prop where
  active : bucket'.active = bucket.active
  cooldowns : ∀ c, c ∈ bucket'.cooldowns ↔ c ∈ bucket.cooldowns ∧ now < c.deadline
  cooling : ∀ r, bucket'.Cooling r ↔
    bucket.Cooling r ∧ ∀ c ∈ bucket.cooldowns, c.reference = r → now < c.deadline
  consistent : bucket'.Consistent

theorem deadline_le_of_le {a b : UdhCooldown} (h : a ≤ b) : a.deadline ≤ b.deadline := by
  rcases Prod.Lex.toLex_le_toLex.mp (show a.key ≤ b.key from h) with h | h
  · exact h.le
  · exact h.1.le

theorem Purged.of_running (h : bucket.Consistent)
    (hrun : ∀ c ∈ bucket.cooldowns, now < c.deadline) :
    Purged now bucket bucket where
  active := rfl
  cooldowns c := ⟨fun hc => ⟨hc, hrun c hc⟩, And.left⟩
  cooling _ := ⟨fun hr => ⟨hr, fun c hc _ => hrun c hc⟩, And.left⟩
  consistent := h

theorem mem_pop (h : bucket.Consistent)
    (hpeek : bucket.cooldowns.peek = some ⟨deadline, reference⟩) :
    c ∈ bucket.cooldowns.pop ↔ c ∈ bucket.cooldowns ∧ c.reference ≠ reference := by
  have hitems := MinHeap.items_of_peek hpeek
  have hnodup := h.unique
  rw [hitems, List.map_cons, List.nodup_cons] at hnodup
  rw [MinHeap.mem_def, MinHeap.mem_def, hitems, List.mem_cons]
  constructor
  · intro hc
    refine ⟨Or.inr hc, fun hr => hnodup.1 ?_⟩
    exact List.mem_map.mpr ⟨c, hc, hr⟩
  · rintro ⟨rfl | hc, hne⟩
    · exact absurd rfl hne
    · exact hc

theorem purgeRound_next (h : bucket.Consistent) (hround : purgeRound now bucket = .inl bucket') :
    bucket'.Consistent ∧ bucket'.cooldowns.size < bucket.cooldowns.size ∧
      bucket'.active = bucket.active ∧ ∃ deadline reference,
        bucket.cooldowns.peek = some ⟨deadline, reference⟩ ∧ deadline ≤ now ∧
        (∀ c, c ∈ bucket'.cooldowns ↔ c ∈ bucket.cooldowns ∧ c.reference ≠ reference) ∧
        ∀ r, bucket'.Cooling r ↔ bucket.Cooling r ∧ r ≠ reference := by
  rw [purgeRound] at hround
  split at hround
  · rename_i deadline reference hpeek
    split_ifs at hround with hlt
    cases hround
    have hmem : ∀ c, c ∈ bucket.cooldowns.pop ↔ c ∈ bucket.cooldowns ∧ c.reference ≠ reference :=
      fun c => mem_pop h hpeek
    have hcooling : ∀ r, Cooling ⟨bucket.active, clearUdhReference bucket.cooling reference,
        bucket.cooldowns.pop⟩ r ↔ bucket.Cooling r ∧ r ≠ reference :=
      fun r => mem_clearUdhReference
    refine ⟨⟨?_, ?_, ?_⟩, MinHeap.size_pop hpeek, rfl, deadline, reference, hpeek,
      Nat.not_lt.mp hlt, hmem, hcooling⟩
    · intro r ha hc
      exact h.exclusive r ha ((hcooling r).mp hc).1
    · intro c hc
      obtain ⟨hc, hne⟩ := (hmem c).mp hc
      exact (hcooling _).mpr ⟨h.cooling c hc, hne⟩
    · have hnodup := h.unique
      rw [MinHeap.items_of_peek hpeek, List.map_cons] at hnodup
      exact hnodup.of_cons
  · cases hround

theorem purgeRound_exit (h : bucket.Consistent) (hround : purgeRound now bucket = .inr bucket') :
    Purged now bucket bucket' := by
  rw [purgeRound] at hround
  split at hround
  · rename_i deadline reference hpeek
    split_ifs at hround with hlt
    cases hround
    apply Purged.of_running h
    intro c hc
    exact Nat.lt_of_lt_of_le hlt (deadline_le_of_le (MinHeap.peek_le hpeek hc))
  · rename_i hpeek
    cases hround
    apply Purged.of_running h
    intro c hc
    exact absurd hc (MinHeap.peek_eq_none hpeek)

theorem purgeUdhCooldowns_returns (h : bucket.Consistent) (now : ℕ) :
    Loop.Returns (purgeRound now) bucket (purgeUdhCooldowns bucket now) := by
  obtain ⟨b, hb⟩ : ∃ b, Loop.run (purgeRound now) (bucket.cooldowns.size + 1) bucket = some b :=
    Loop.run_of_measure (I := Consistent) (fun b => b.cooldowns.size) h fun s s' hs hround =>
      ⟨(purgeRound_next hs hround).1, (purgeRound_next hs hround).2.1⟩
  refine ⟨_, hb.trans ?_⟩
  rw [purgeUdhCooldowns, hb]
  rfl

theorem purged_of_returns (hreturns : Loop.Returns (purgeRound now) bucket bucket')
    (h : bucket.Consistent) : Purged now bucket bucket' := by
  revert h
  refine hreturns.induct (P := fun b => b.Consistent → Purged now b bucket') ?_ ?_
  · intro b hround h
    exact purgeRound_exit h hround
  · intro b b' hround _ ih h
    obtain ⟨h', -, hactive, deadline, reference, hpeek, hover, hmem, hcooling⟩ :=
      purgeRound_next h hround
    have htop := MinHeap.mem_of_peek hpeek
    obtain ⟨ha, hcd, hco, hfinal⟩ := ih h'
    refine ⟨ha.trans hactive, ?_, ?_, hfinal⟩
    · intro c
      rw [hcd, hmem]
      constructor
      · rintro ⟨⟨hc, -⟩, hlt⟩
        exact ⟨hc, hlt⟩
      · rintro ⟨hc, hlt⟩
        refine ⟨⟨hc, ?_⟩, hlt⟩
        rintro rfl
        have heq := List.inj_on_of_nodup_map h.unique hc htop rfl
        rw [heq] at hlt
        exact absurd hover (Nat.not_le.mpr hlt)
    · intro r
      rw [hco, hcooling]
      constructor
      · rintro ⟨⟨hr, hne⟩, hall⟩
        refine ⟨hr, fun c hc hcr => hall c ((hmem c).mpr ⟨hc, ?_⟩) hcr⟩
        rw [hcr]
        exact hne
      · rintro ⟨hr, hall⟩
        refine ⟨⟨hr, ?_⟩, fun c hc => hall c ((hmem c).mp hc).1⟩
        rintro rfl
        exact absurd hover (Nat.not_le.mpr (hall _ htop rfl))

theorem purged_purgeUdhCooldowns (h : bucket.Consistent) (now : ℕ) :
    Purged now bucket (purgeUdhCooldowns bucket now) :=
  purged_of_returns (purgeUdhCooldowns_returns h now) h

/-! ## Lending and returning -/

def lend (bucket : UdhReferenceBucket) (reference : UInt8) : UdhReferenceBucket :=
  { bucket with active := setUdhReference bucket.active reference }

theorem active_lend : (bucket.lend reference).Active r ↔ bucket.Active r ∨ r = reference :=
  mem_setUdhReference

theorem Consistent.lend (h : bucket.Consistent) (hfree : ¬ bucket.Cooling reference) :
    (bucket.lend reference).Consistent where
  exclusive r ha := by
    rcases active_lend.mp ha with ha | rfl
    · exact h.exclusive r ha
    · exact hfree
  cooling := h.cooling
  unique := h.unique

variable {release : UdhRelease}

theorem active_visit :
    (release.visit reference bucket).Active r ↔ bucket.Active r ∧ r ≠ reference := by
  have h : (release.visit reference bucket).active = clearUdhReference bucket.active reference := by
    unfold UdhRelease.visit
    dsimp only
    split_ifs
    · cases release.deadline <;> rfl
    · rfl
  rw [Active, h]
  exact mem_clearUdhReference

theorem cooling_visit : (release.visit reference bucket).Cooling r ↔
    bucket.Cooling r ∨ release.exposed = true ∧ r = reference := by
  unfold UdhRelease.visit
  dsimp only
  split_ifs with hexp
  · have hset : Cooling { bucket with cooling := setUdhReference bucket.cooling reference } r ↔ _ :=
      mem_setUdhReference
    simp only [hexp, true_and]
    cases release.deadline <;> exact hset
  · exact ⟨Or.inl, fun h => h.resolve_right fun hr => hexp hr.1⟩

theorem mem_cooldowns_visit : c ∈ (release.visit reference bucket).cooldowns ↔
    c ∈ bucket.cooldowns ∨
      release.exposed = true ∧ release.deadline = some c.deadline ∧ c.reference = reference := by
  unfold UdhRelease.visit
  dsimp only
  split_ifs with hexp
  · cases hd : release.deadline with
    | none => simp [hexp]
    | some deadline =>
      simp only [MinHeap.mem_push, hexp, true_and, Option.some.injEq]
      rw [or_comm]
      refine or_congr_right ?_
      constructor
      · rintro rfl
        exact ⟨rfl, rfl⟩
      · rintro ⟨rfl, rfl⟩
        rfl
  · simp [hexp]

theorem Consistent.visit (h : bucket.Consistent) (hactive : bucket.Active reference) :
    (release.visit reference bucket).Consistent where
  exclusive r ha hc := by
    obtain ⟨ha, hne⟩ := active_visit.mp ha
    rcases cooling_visit.mp hc with hc | ⟨-, rfl⟩
    · exact h.exclusive r ha hc
    · exact hne rfl
  cooling c hc := by
    rcases mem_cooldowns_visit.mp hc with hc | ⟨hexp, -, hr⟩
    · exact cooling_visit.mpr (Or.inl (h.cooling c hc))
    · exact cooling_visit.mpr (Or.inr ⟨hexp, hr⟩)
  unique := by
    have hfresh : reference ∉ bucket.cooldowns.items.map UdhCooldown.reference := by
      intro hmem
      obtain ⟨c, hc, hr⟩ := List.mem_map.mp hmem
      exact h.exclusive _ hactive (hr ▸ h.cooling c hc)
    unfold UdhRelease.visit
    dsimp only
    split_ifs
    · cases release.deadline with
      | none => exact h.unique
      | some deadline =>
        have hperm := (List.perm_orderedInsert (· ≤ ·) (⟨deadline, reference⟩ : UdhCooldown)
          bucket.cooldowns.items).map UdhCooldown.reference
        exact hperm.nodup_iff.mpr (List.nodup_cons.mpr ⟨hfresh, h.unique⟩)
    · exact h.unique

end UdhReferenceBucket

end CmppProtocol
