import CmppProtocol.Library.Focus
import CmppProtocol.Library.Machine
import CmppProtocol.Udh.Runs

/-! # Which references are available

One caller at a time acquires, exposes and releases leases of any buckets. A bucket
refuses a reference exactly while a live lease holds it there or an exposed one has
cooled down for less than its cooldown, so the search finds what is free.
-/

namespace CmppProtocol

open UdhReferenceBucket

/-! ## The search -/

section Search

variable {pool pool' : UdhReferencePool} {ids : List BucketId} {preferred : UInt8}
  {cooldown now : ℕ} {lease : UdhReferenceLease}

/-- An acquire at the instant passes the reference over because of one of the buckets. -/
def RefusedIn (pool : UdhReferencePool) (ids : List BucketId) (now : ℕ) (r : UInt8) : Prop :=
  ∃ b ∈ ids, udhReferenceIsSet (purgeUdhCooldowns (pool b) now) r = true

/-- The test of the search for one reference. -/
def isFree (pool : UdhReferencePool) (ids : List BucketId) (now : ℕ) (r : UInt8) : Bool :=
  (sortDedup ids).all fun id => !udhReferenceIsSet (purge pool ids now id) r

theorem isFree_eq_false {r : UInt8} : isFree pool ids now r = false ↔ RefusedIn pool ids now r := by
  rw [isFree, List.all_eq_false]
  simp only [mem_sortDedup, Bool.not_eq_true', Bool.not_eq_false]
  apply exists_congr
  intro b
  apply and_congr_right
  intro hb
  rw [purge, update_of_mem (mem_sortDedup.mpr hb)]

theorem tryAcquire_search : (tryAcquire pool ids preferred cooldown now).1.map
    UdhReferenceLease.reference =
      ((List.range 256).map fun offset => preferred + .ofNat offset).find?
        (isFree pool ids now) := by
  have hfree : (fun reference => (sortDedup ids).all fun id =>
      !udhReferenceIsSet (pool.update (sortDedup ids) (purgeUdhCooldowns · now) id) reference) =
        isFree pool ids now := rfl
  unfold tryAcquire
  dsimp only
  rw [hfree]
  split
  · rename_i reference hfind
    rw [hfind, Option.map_some]
  · rename_i hfind
    rw [hfind, Option.map_none]

theorem tryAcquire_eq_none : (tryAcquire pool ids preferred cooldown now).1 = none ↔
    ∀ r, RefusedIn pool ids now r := by
  rw [← Option.map_eq_none_iff (f := UdhReferenceLease.reference), tryAcquire_search,
    List.find?_eq_none]
  constructor
  · intro hall r
    apply isFree_eq_false.mp
    rw [← Bool.not_eq_true]
    refine hall r (List.mem_map.mpr ⟨(r - preferred).toNat, ?_, ?_⟩)
    · exact List.mem_range.mpr (r - preferred).toNat_lt
    · rw [UInt8.ofNat_toNat, UInt8.add_comm, UInt8.sub_add_cancel]
  · intro hall r _
    rw [Bool.not_eq_true]
    exact isFree_eq_false.mpr (hall r)

/-- The references that the search has passed over are refused. -/
theorem tryAcquire_first (h : (tryAcquire pool ids preferred cooldown now).1 = some lease) :
    ∃ offset < 256, lease.reference = preferred + .ofNat offset ∧
      ¬ RefusedIn pool ids now lease.reference ∧
      ∀ earlier < offset, RefusedIn pool ids now (preferred + .ofNat earlier) := by
  have hsearch : (tryAcquire pool ids preferred cooldown now).1.map _ = _ := tryAcquire_search
  rw [h, Option.map_some, List.find?_map, eq_comm, Option.map_eq_some_iff] at hsearch
  obtain ⟨offset, hfind, hreference⟩ := hsearch
  rw [List.find?_range_eq_some] at hfind
  obtain ⟨hfree, hlt, hbefore⟩ := hfind
  refine ⟨offset, List.mem_range.mp hlt, hreference.symm, ?_, fun earlier hearlier => ?_⟩
  · rw [← isFree_eq_false, ← hreference]
    exact Bool.not_eq_false _ ▸ hfree
  · apply isFree_eq_false.mp
    simpa using hbefore earlier hearlier

end Search

/-- A whole release: the clock and the flag are read once, then every bucket is visited. -/
def UdhReferencePool.release (pool : UdhReferencePool) (horizon : ℕ) (lease : UdhReferenceLease)
    (now : ℕ) : UdhReferencePool :=
  lease.bucketIds.foldl
    (fun pool id => pool.update [id] ((lease.release horizon now).visit lease.reference)) pool

/-- A lease that was released, with the clock reading of its release. -/
structure UdhReturned where
  lease : UdhReferenceLease
  reading : ℕ
deriving DecidableEq

structure UdhSequential where
  pool : UdhReferencePool
  clock : ℕ
  live : List UdhReferenceLease
  returned : List UdhReturned

inductive UdhCall
  | tryAcquire (bucketIds : List BucketId) (preferred : UInt8) (cooldown now : ℕ)
  | markExposed (index : ℕ)
  | release (index now : ℕ)

namespace UdhSequential

/-- The clock never runs backwards and reads instants up to the horizon. -/
def Reads (horizon : ℕ) (s : UdhSequential) (now : ℕ) : Prop := s.clock ≤ now ∧ now ≤ horizon

instance (horizon : ℕ) (s : UdhSequential) (now : ℕ) : Decidable (Reads horizon s now) :=
  inferInstanceAs (Decidable (_ ∧ _))

def initial : UdhSequential := ⟨.new, 0, [], []⟩

def next (horizon : ℕ) (s : UdhSequential) : UdhCall → Option UdhSequential
  | .tryAcquire bucketIds preferred cooldown now =>
    if Reads horizon s now then
      let (lease, pool) := tryAcquire s.pool bucketIds preferred cooldown now
      some { s with pool, clock := now, live := s.live ++ lease.toList }
    else none
  | .markExposed index =>
    if index < s.live.length then
      some { s with live := s.live.modify index UdhReferenceLease.markExposed }
    else none
  | .release index now =>
    match s.live[index]? with
    | some lease =>
      if Reads horizon s now then
        some {
          pool := s.pool.release horizon lease now
          clock := now
          live := s.live.eraseIdx index
          returned := s.returned ++ [⟨lease, now⟩] }
      else none
    | none => none

def machine (horizon : ℕ) : Machine UdhSequential UdhCall := .ofNext initial (next horizon)

/-! ## What should be available -/

/-- A live lease holds the reference in the bucket. -/
def Holds (s : UdhSequential) (b : BucketId) (r : UInt8) : Prop :=
  ∃ lease ∈ s.live, b ∈ lease.bucketIds ∧ lease.reference = r

/-- The lease was exposed and leaves the reference of the bucket cooling when it is released. -/
def Cools (lease : UdhReferenceLease) (b : BucketId) (r : UInt8) : Prop :=
  lease.exposed = true ∧ b ∈ lease.bucketIds ∧ lease.reference = r

/-- An exposed lease of the reference was released less than its cooldown ago. -/
def CoolsDown (s : UdhSequential) (b : BucketId) (r : UInt8) (t : ℕ) : Prop :=
  ∃ x ∈ s.returned, Cools x.lease b r ∧ t < x.reading + x.lease.cooldown

/-- An acquire at the instant passes the reference over because of the bucket. -/
def Refused (s : UdhSequential) (b : BucketId) (r : UInt8) (t : ℕ) : Prop :=
  udhReferenceIsSet (purgeUdhCooldowns (s.pool b) t) r = true

variable {horizon : ℕ} {s s' : UdhSequential} {b : BucketId} {r : UInt8} {now t : ℕ}
  {lease : UdhReferenceLease} {pool : UdhReferencePool} {c : UdhCooldown}

theorem holds_split {pre post : List UdhReferenceLease} (h : s.live = pre ++ lease :: post) :
    s.Holds b r ↔ (∃ x ∈ pre ++ post, b ∈ x.bucketIds ∧ x.reference = r) ∨
      b ∈ lease.bucketIds ∧ lease.reference = r := by
  unfold Holds
  rw [h]
  constructor
  · rintro ⟨x, hx, hheld⟩
    rcases List.mem_append.mp hx with hx | hx
    · exact Or.inl ⟨x, List.mem_append_left _ hx, hheld⟩
    rcases List.mem_cons.mp hx with rfl | hx
    · exact Or.inr hheld
    · exact Or.inl ⟨x, List.mem_append_right _ hx, hheld⟩
  · rintro (⟨x, hx, hheld⟩ | hheld)
    · refine ⟨x, ?_, hheld⟩
      rcases List.mem_append.mp hx with hx | hx
      · exact List.mem_append_left _ hx
      · exact List.mem_append_right _ (List.mem_cons_of_mem _ hx)
    · exact ⟨lease, List.mem_append_right _ List.mem_cons_self, hheld⟩

/-- The bits and the heaps of the pool agree with what is held and what cools down. -/
structure Inv (horizon : ℕ) (s : UdhSequential) : Prop where
  consistent : ∀ b, (s.pool b).Consistent
  nodup : ∀ lease ∈ s.live, lease.bucketIds.Nodup
  apart : s.live.Pairwise fun x y => ∀ b ∈ x.bucketIds, b ∈ y.bucketIds → x.reference ≠ y.reference
  active : ∀ b r, (s.pool b).Active r ↔ s.Holds b r
  pending : ∀ b r, (s.pool b).Cooling r →
    (∃ c ∈ (s.pool b).cooldowns, c.reference = r) ∨
      ∃ x ∈ s.returned, Cools x.lease b r ∧ horizon < x.reading + x.lease.cooldown
  entries : ∀ b, ∀ c ∈ (s.pool b).cooldowns, ∃ x ∈ s.returned,
    Cools x.lease b c.reference ∧ c.deadline = x.reading + x.lease.cooldown
  guarded : ∀ x ∈ s.returned, ∀ b r, Cools x.lease b r → x.reading + x.lease.cooldown ≤ s.clock ∨
    (s.pool b).Cooling r ∧
      ∀ c ∈ (s.pool b).cooldowns, c.reference = r → x.reading + x.lease.cooldown ≤ c.deadline

/-- A bucket refuses what is held and what cools down, and nothing else. -/
theorem Inv.refused_iff (h : Inv horizon s) (hread : Reads horizon s t) :
    s.Refused b r t ↔ s.Holds b r ∨ s.CoolsDown b r t := by
  have hp := purged_purgeUdhCooldowns (h.consistent b) t
  have hactive : (purgeUdhCooldowns (s.pool b) t).Active r ↔ s.Holds b r := by
    rw [← h.active b r, Active, Active, hp.active]
  rw [Refused, isSet_iff, hactive, hp.cooling]
  apply or_congr_right
  constructor
  · rintro ⟨hcool, hrunning⟩
    rcases h.pending b r hcool with ⟨c, hc, hr⟩ | ⟨x, hx, hcools, hlong⟩
    · obtain ⟨x, hx, hcools, hdeadline⟩ := h.entries b c hc
      have hlt := hrunning c hc hr
      rw [hdeadline] at hlt
      exact ⟨x, hx, hr ▸ hcools, hlt⟩
    · exact ⟨x, hx, hcools, Nat.lt_of_le_of_lt hread.2 hlong⟩
  · rintro ⟨x, hx, hcools, hlt⟩
    rcases h.guarded x hx b r hcools with hover | ⟨hcool, hall⟩
    · exact absurd hlt (Nat.not_lt.mpr (hover.trans hread.1))
    · exact ⟨hcool, fun c hc hr => Nat.lt_of_lt_of_le hlt (hall c hc hr)⟩

/-! ## Acquires -/

theorem Inv.purge (h : Inv horizon s) (ids : List BucketId) (hread : Reads horizon s now) :
    Inv horizon { s with pool := CmppProtocol.purge s.pool ids now, clock := now } := by
  have hp : ∀ b, b ∈ ids ∧ Purged now (s.pool b) (CmppProtocol.purge s.pool ids now b) ∨
      CmppProtocol.purge s.pool ids now b = s.pool b := by
    intro b
    by_cases hb : b ∈ ids
    · left
      rw [CmppProtocol.purge, update_of_mem (mem_sortDedup.mpr hb)]
      exact ⟨hb, purged_purgeUdhCooldowns (h.consistent b) now⟩
    · exact Or.inr (update_of_not_mem fun hm => hb (mem_sortDedup.mp hm))
  refine ⟨fun b => ?_, h.nodup, h.apart, fun b r => ?_, fun b r hcool => ?_, fun b c hc => ?_,
    fun x hx b r hcools => ?_⟩
  · rcases hp b with ⟨-, hp⟩ | heq
    · exact hp.consistent
    · dsimp only
      rw [heq]
      exact h.consistent b
  · refine Iff.trans ?_ (h.active b r)
    rcases hp b with ⟨-, hp⟩ | heq
    · simp only [Active, hp.active]
    · simp only [heq]
  · rcases hp b with ⟨-, hp⟩ | heq
    · obtain ⟨hcool, hrunning⟩ := (hp.cooling r).mp hcool
      rcases h.pending b r hcool with ⟨c, hc, hr⟩ | hlong
      · exact Or.inl ⟨c, (hp.cooldowns c).mpr ⟨hc, hrunning c hc hr⟩, hr⟩
      · exact Or.inr hlong
    · dsimp only at hcool ⊢
      rw [heq] at hcool ⊢
      exact h.pending b r hcool
  · rcases hp b with ⟨-, hp⟩ | heq
    · exact h.entries b c ((hp.cooldowns c).mp hc).1
    · dsimp only at hc
      rw [heq] at hc
      exact h.entries b c hc
  · rcases h.guarded x hx b r hcools with hover | ⟨hcool, hall⟩
    · exact Or.inl (hover.trans hread.1)
    rcases hp b with ⟨-, hp⟩ | heq
    · by_cases hover : x.reading + x.lease.cooldown ≤ now
      · exact Or.inl hover
      · refine Or.inr ⟨(hp.cooling r).mpr ⟨hcool, fun c hc hr => ?_⟩, fun c hc hr => ?_⟩
        · exact Nat.lt_of_lt_of_le (Nat.not_le.mp hover) (hall c hc hr)
        · exact hall c ((hp.cooldowns c).mp hc).1 hr
    · right
      dsimp only
      rw [heq]
      exact ⟨hcool, hall⟩

/-- Lending a reference that all its buckets have free. -/
theorem Inv.lend (h : Inv horizon s) (hnodup : lease.bucketIds.Nodup)
    (hfree : ∀ b ∈ lease.bucketIds, udhReferenceIsSet (s.pool b) lease.reference = false) :
    Inv horizon { s with
      pool := s.pool.update lease.bucketIds (UdhReferenceBucket.lend · lease.reference)
      live := s.live ++ [lease] } := by
  have hfree' : ∀ b ∈ lease.bucketIds, ¬ (s.pool b).Active lease.reference ∧
      ¬ (s.pool b).Cooling lease.reference := by
    intro b hb
    refine not_or.mp fun hor => ?_
    have hset := isSet_iff.mpr hor
    rw [hfree b hb] at hset
    exact Bool.false_ne_true hset
  have hsame : ∀ b,
      (s.pool.update lease.bucketIds (UdhReferenceBucket.lend · lease.reference) b).cooling =
      (s.pool b).cooling ∧ (s.pool.update lease.bucketIds
        (UdhReferenceBucket.lend · lease.reference) b).cooldowns = (s.pool b).cooldowns := by
    intro b
    by_cases hb : b ∈ lease.bucketIds
    · rw [update_of_mem hb]
      exact ⟨rfl, rfl⟩
    · rw [update_of_not_mem hb]
      exact ⟨rfl, rfl⟩
  have hcooling : ∀ b r, (s.pool.update lease.bucketIds
      (UdhReferenceBucket.lend · lease.reference) b).Cooling r ↔ (s.pool b).Cooling r := by
    intro b r
    rw [Cooling, Cooling, (hsame b).1]
  refine ⟨fun b => ?_, ?_, ?_, fun b r => ?_, fun b r hcool => ?_, fun b c hc => ?_,
    fun x hx b r hcools => ?_⟩
  · by_cases hb : b ∈ lease.bucketIds
    · simp only [update_of_mem hb]
      exact (h.consistent b).lend (hfree' b hb).2
    · simp only [update_of_not_mem hb]
      exact h.consistent b
  · intro x hx
    rcases List.mem_append.mp hx with hx | hx
    · exact h.nodup x hx
    · exact List.mem_singleton.mp hx ▸ hnodup
  · refine List.pairwise_append.mpr ⟨h.apart, List.pairwise_singleton _ _, ?_⟩
    intro x hx y hy b hb hb' heq
    obtain rfl := List.mem_singleton.mp hy
    exact (hfree' b hb').1 ((h.active b _).mpr ⟨x, hx, hb, heq⟩)
  · have hholds := @holds_split { s with
      pool := s.pool.update lease.bucketIds (UdhReferenceBucket.lend · lease.reference)
      live := s.live ++ [lease] } b r lease s.live [] rfl
    rw [List.append_nil] at hholds
    have hbefore : (∃ x ∈ s.live, b ∈ x.bucketIds ∧ x.reference = r) ↔ _ := (h.active b r).symm
    rw [hholds, hbefore]
    by_cases hb : b ∈ lease.bucketIds
    · simp only [update_of_mem hb, active_lend, hb, true_and, eq_comm]
    · simp only [update_of_not_mem hb, hb, false_and, or_false]
  · rw [(hsame b).2]
    exact h.pending b r ((hcooling b r).mp hcool)
  · dsimp only at hc
    rw [(hsame b).2] at hc
    exact h.entries b c hc
  · dsimp only
    rw [hcooling, (hsame b).2]
    exact h.guarded x hx b r hcools

theorem Inv.acquire (h : Inv horizon s) {ids : List BucketId} {preferred : UInt8} {cooldown : ℕ}
    (hnext : s.next horizon (.tryAcquire ids preferred cooldown now) = some s') :
    Inv horizon s' := by
  rw [next] at hnext
  split_ifs at hnext with hread
  have hp := h.purge ids hread
  cases hacq : tryAcquire s.pool ids preferred cooldown now with
  | mk lease pool' =>
    simp only [hacq, Option.some.injEq] at hnext
    subst hnext
    cases lease with
    | none =>
      obtain rfl := tryAcquire_none hacq
      rw [Option.toList_none, List.append_nil]
      exact hp
    | some lease =>
      obtain ⟨hids, -, -, hfree, rfl⟩ := tryAcquire_some hacq
      rw [← hids] at hfree ⊢
      exact hp.lend (hids ▸ sortDedup_nodup ids) hfree

/-! ## Exposure and release -/

theorem Inv.markExposed (h : Inv horizon s) {index : ℕ}
    (hnext : s.next horizon (.markExposed index) = some s') : Inv horizon s' := by
  rw [next] at hnext
  split_ifs at hnext with hlt
  obtain rfl := Option.some.inj hnext
  obtain ⟨pre, post, hf⟩ := List.exists_focus (List.getElem?_eq_getElem hlt)
  have hsame : ∀ x, x ∈ s.live.modify index UdhReferenceLease.markExposed → ∃ y ∈ s.live,
      x.bucketIds = y.bucketIds ∧ x.reference = y.reference := by
    intro x hx
    rw [hf.modify] at hx
    rw [hf.split]
    rcases List.mem_append.mp hx with hx | hx
    · exact ⟨x, List.mem_append_left _ hx, rfl, rfl⟩
    rcases List.mem_cons.mp hx with rfl | hx
    · exact ⟨s.live[index], List.mem_append_right _ List.mem_cons_self, rfl, rfl⟩
    · exact ⟨x, List.mem_append_right _ (List.mem_cons_of_mem _ hx), rfl, rfl⟩
  refine ⟨h.consistent, ?_, ?_, fun b r => (h.active b r).trans ?_, h.pending, h.entries, h.guarded⟩
  · intro x hx
    obtain ⟨y, hy, hids, -⟩ := hsame x hx
    exact hids ▸ h.nodup y hy
  · have hapart := h.apart
    rw [hf.split] at hapart
    dsimp only
    rw [hf.modify]
    rw [List.pairwise_append, List.pairwise_cons] at hapart ⊢
    obtain ⟨hpre, ⟨hhead, hpost⟩, hcross⟩ := hapart
    refine ⟨hpre, ⟨hhead, hpost⟩, fun x hx y hy => ?_⟩
    rcases List.mem_cons.mp hy with rfl | hy
    · exact hcross x hx s.live[index] List.mem_cons_self
    · exact hcross x hx y (List.mem_cons_of_mem _ hy)
  · have hafter := @holds_split
      { s with live := s.live.modify index UdhReferenceLease.markExposed } b r _ pre post
      (hf.modify UdhReferenceLease.markExposed)
    exact (holds_split hf.split).trans hafter.symm

theorem foldl_update {ids : List BucketId} {f : UdhReferenceBucket → UdhReferenceBucket}
    (hnodup : ids.Nodup) :
    ids.foldl (fun pool id => pool.update [id] f) pool = pool.update ids f := by
  induction ids generalizing pool with
  | nil =>
    funext b
    exact (update_of_not_mem List.not_mem_nil).symm
  | cons id ids ih =>
    obtain ⟨hfresh, hrest⟩ := List.nodup_cons.mp hnodup
    rw [List.foldl_cons, ih hrest]
    funext b
    by_cases hb : b ∈ ids
    · have hne : b ∉ [id] := fun hm => hfresh (List.mem_singleton.mp hm ▸ hb)
      rw [update_of_mem hb, update_of_not_mem hne, update_of_mem (List.mem_cons_of_mem _ hb)]
    rw [update_of_not_mem hb]
    by_cases hid : b = id
    · rw [update_of_mem (List.mem_singleton.mpr hid), update_of_mem (hid ▸ List.mem_cons_self)]
    · rw [update_of_not_mem fun hm => hid (List.mem_singleton.mp hm),
        update_of_not_mem fun hm => (List.mem_cons.mp hm).elim hid hb]

/-- The deadline that a release computes, and when it has none. -/
theorem deadline_release (lease : UdhReferenceLease) (horizon now : ℕ)
    (hexp : lease.exposed = true) :
    (lease.release horizon now).deadline = some (now + lease.cooldown) ∧
        now + lease.cooldown ≤ horizon ∨
      (lease.release horizon now).deadline = none ∧ horizon < now + lease.cooldown := by
  unfold UdhReferenceLease.release checkedAddInstant
  simp only [hexp, if_true]
  split_ifs with hle
  · exact Or.inl ⟨rfl, hle⟩
  · exact Or.inr ⟨rfl, Nat.not_le.mp hle⟩

theorem Inv.release (h : Inv horizon s) {index : ℕ}
    (hnext : s.next horizon (.release index now) = some s') : Inv horizon s' := by
  rw [next] at hnext
  split at hnext
  case h_2 => cases hnext
  rename_i lease hget
  split_ifs at hnext with hread
  obtain rfl := Option.some.inj hnext
  obtain ⟨pre, post, hf⟩ := List.exists_focus hget
  have hmem : lease ∈ s.live := List.mem_of_getElem? hget
  have hactive : ∀ b ∈ lease.bucketIds, (s.pool b).Active lease.reference :=
    fun b hb => (h.active b _).mpr ⟨lease, hmem, hb, rfl⟩
  have hnotcool : ∀ b ∈ lease.bucketIds, ¬ (s.pool b).Cooling lease.reference :=
    fun b hb => (h.consistent b).exclusive _ (hactive b hb)
  have hpool : s.pool.release horizon lease now = s.pool.update lease.bucketIds
      ((lease.release horizon now).visit lease.reference) := foldl_update (h.nodup lease hmem)
  have happart := h.apart
  rw [hf.split, List.pairwise_append, List.pairwise_cons] at happart
  obtain ⟨hpre, ⟨hhead, hpost⟩, hcross⟩ := happart
  have hothers : ∀ x ∈ pre ++ post, ∀ b ∈ lease.bucketIds, b ∈ x.bucketIds →
      x.reference ≠ lease.reference := by
    intro x hx b hb hb'
    rcases List.mem_append.mp hx with hx | hx
    · exact hcross x hx lease List.mem_cons_self b hb' hb
    · exact (hhead x hx b hb hb').symm
  have hkept : ∀ x, x ∈ pre ++ post → x ∈ s.live := by
    intro x hx
    rw [hf.split]
    rcases List.mem_append.mp hx with hx | hx
    · exact List.mem_append_left _ hx
    · exact List.mem_append_right _ (List.mem_cons_of_mem _ hx)
  rw [hpool, hf.erase]
  refine ⟨fun b => ?_, fun x hx => h.nodup x (hkept x hx), ?_, fun b r => ?_, fun b r hcool => ?_,
    fun b c hc => ?_, fun x hx b r hcools => ?_⟩
  · by_cases hb : b ∈ lease.bucketIds
    · simp only [update_of_mem hb]
      exact (h.consistent b).visit (hactive b hb)
    · simp only [update_of_not_mem hb]
      exact h.consistent b
  · refine List.pairwise_append.mpr ⟨hpre, hpost, fun x hx y hy => ?_⟩
    exact hcross x hx y (List.mem_cons_of_mem _ hy)
  · have hholds := holds_split (b := b) (r := r) hf.split
    by_cases hb : b ∈ lease.bucketIds
    · simp only [update_of_mem hb, active_visit, h.active b r, hholds]
      constructor
      · rintro ⟨hheld | hheld, hne⟩
        · exact hheld
        · exact absurd hheld.2.symm hne
      · rintro ⟨x, hx, hbx, hr⟩
        refine ⟨Or.inl ⟨x, hx, hbx, hr⟩, fun heq => ?_⟩
        exact hothers x hx b hb hbx (hr.trans heq)
    · simp only [update_of_not_mem hb, h.active b r, hholds, hb, false_and, or_false]
      rfl
  · by_cases hb : b ∈ lease.bucketIds
    · simp only [update_of_mem hb] at hcool ⊢
      rcases cooling_visit.mp hcool with hcool | ⟨hexp, rfl⟩
      · rcases h.pending b r hcool with ⟨c, hc, hr⟩ | ⟨x, hx, hlong⟩
        · exact Or.inl ⟨c, mem_cooldowns_visit.mpr (Or.inl hc), hr⟩
        · exact Or.inr ⟨x, List.mem_append_left _ hx, hlong⟩
      · rcases deadline_release lease horizon now hexp with ⟨hd, -⟩ | ⟨-, hlong⟩
        · exact Or.inl ⟨⟨_, lease.reference⟩, mem_cooldowns_visit.mpr (Or.inr ⟨hexp, hd, rfl⟩), rfl⟩
        · exact Or.inr ⟨⟨lease, now⟩, List.mem_append_right _ (List.mem_singleton_self _),
            ⟨hexp, hb, rfl⟩, hlong⟩
    · simp only [update_of_not_mem hb] at hcool ⊢
      rcases h.pending b r hcool with hentry | ⟨x, hx, hlong⟩
      · exact Or.inl hentry
      · exact Or.inr ⟨x, List.mem_append_left _ hx, hlong⟩
  · have hold : c ∈ (s.pool b).cooldowns → ∃ x ∈ s.returned ++ [⟨lease, now⟩],
        Cools x.lease b c.reference ∧ c.deadline = x.reading + x.lease.cooldown := by
      intro hc
      obtain ⟨x, hx, hcools⟩ := h.entries b c hc
      exact ⟨x, List.mem_append_left _ hx, hcools⟩
    by_cases hb : b ∈ lease.bucketIds
    · simp only [update_of_mem hb] at hc
      rcases mem_cooldowns_visit.mp hc with hc | ⟨hexp, hd, hr⟩
      · exact hold hc
      · exact ⟨⟨lease, now⟩, List.mem_append_right _ (List.mem_singleton_self _),
          ⟨hexp, hb, hr.symm⟩, UdhState.release_deadline hd⟩
    · simp only [update_of_not_mem hb] at hc
      exact hold hc
  · by_cases hb : b ∈ lease.bucketIds
    · simp only [update_of_mem hb]
      rcases List.mem_append.mp hx with hx | hx
      · rcases h.guarded x hx b r hcools with hover | ⟨hcool, hall⟩
        · exact Or.inl (hover.trans hread.1)
        · refine Or.inr ⟨cooling_visit.mpr (Or.inl hcool), fun c hc hr => ?_⟩
          rcases mem_cooldowns_visit.mp hc with hc | ⟨-, -, hcr⟩
          · exact hall c hc hr
          · rw [← hr, hcr] at hcool
            exact absurd hcool (hnotcool b hb)
      · obtain rfl := List.mem_singleton.mp hx
        obtain ⟨hexp, -, rfl⟩ := hcools
        refine Or.inr ⟨cooling_visit.mpr (Or.inr ⟨hexp, rfl⟩), fun c hc hr => ?_⟩
        rcases mem_cooldowns_visit.mp hc with hc | ⟨-, hd, -⟩
        · exact absurd (hr ▸ (h.consistent b).cooling c hc) (hnotcool b hb)
        · exact (UdhState.release_deadline hd).ge
    · simp only [update_of_not_mem hb]
      rcases List.mem_append.mp hx with hx | hx
      · rcases h.guarded x hx b r hcools with hover | hg
        · exact Or.inl (hover.trans hread.1)
        · exact Or.inr hg
      · obtain rfl := List.mem_singleton.mp hx
        exact absurd hcools.2.1 hb

theorem Inv.initial : Inv horizon initial where
  consistent _ := .default
  nodup _ h := absurd h List.not_mem_nil
  apart := .nil
  active _ _ := iff_of_false not_active_default fun ⟨_, h, _⟩ => absurd h List.not_mem_nil
  pending _ _ h := absurd h not_cooling_default
  entries _ _ h := absurd h MinHeap.not_mem_empty
  guarded _ h := absurd h List.not_mem_nil

theorem Inv.next (h : Inv horizon s) {e : UdhCall} (hnext : s.next horizon e = some s') :
    Inv horizon s' := by
  cases e with
  | tryAcquire ids preferred cooldown now => exact h.acquire hnext
  | markExposed index => exact h.markExposed hnext
  | release index now => exact h.release hnext

theorem Inv.run {events : List UdhCall} (hrun : (machine horizon).Run events s) : Inv horizon s :=
  hrun.invariant (I := fun _ => Inv horizon) (fun _ hinit => hinit ▸ Inv.initial)
    fun _ _ _ _ h hstep => h.next hstep

/-! ## Exact availability -/

/-- A bit that is set is accounted for: a live lease, or the only cooldown of the reference. -/
theorem Inv.accounted (h : Inv horizon s)
    (hfinite : ∀ x ∈ s.returned, x.lease.exposed = true → x.reading + x.lease.cooldown ≤ horizon)
    (b : BucketId) (r : UInt8) : ((s.pool b).Active r ↔ s.Holds b r) ∧
      ((s.pool b).Cooling r ↔ ∃! c, c ∈ (s.pool b).cooldowns ∧ c.reference = r) := by
  refine ⟨h.active b r, fun hcool => ?_, ?_⟩
  · rcases h.pending b r hcool with ⟨c, hc, hr⟩ | ⟨x, hx, ⟨hexp, -⟩, hlong⟩
    · refine ⟨c, ⟨hc, hr⟩, ?_⟩
      rintro c' ⟨hc', hr'⟩
      exact List.inj_on_of_nodup_map (h.consistent b).unique hc' hc (hr'.trans hr.symm)
    · exact absurd (hfinite x hx hexp) (Nat.not_le.mpr hlong)
  · rintro ⟨c, ⟨hc, rfl⟩, -⟩
    exact (h.consistent b).cooling c hc

/-- A lease that was never exposed leaves its reference free in all its buckets. -/
theorem Inv.free_again (h : Inv horizon s) {index : ℕ} (hlease : s.live[index]? = some lease)
    (hexp : lease.exposed = false)
    (hnext : s.next horizon (.release index now) = some s') (hb : b ∈ lease.bucketIds)
    (hnow : now ≤ t) (ht : t ≤ horizon) : ¬ s'.Refused b lease.reference t := by
  have h' := h.next hnext
  have hmem : lease ∈ s.live := List.mem_of_getElem? hlease
  have hactive : (s.pool b).Active lease.reference := (h.active b _).mpr ⟨lease, hmem, hb, rfl⟩
  have hnotcool := (h.consistent b).exclusive _ hactive
  rw [UdhSequential.next, hlease] at hnext
  dsimp only at hnext
  split_ifs at hnext with hread
  obtain rfl := Option.some.inj hnext
  obtain ⟨pre, post, hf⟩ := List.exists_focus hlease
  have hpool : s.pool.release horizon lease now b =
      (lease.release horizon now).visit lease.reference (s.pool b) := by
    rw [UdhReferencePool.release, foldl_update (h.nodup lease hmem), update_of_mem hb]
  rw [h'.refused_iff ⟨hnow, ht⟩, ← h'.active b]
  dsimp only
  rw [hpool]
  rintro (hheld | ⟨x, hx, hcools, hlt⟩)
  · exact (active_visit.mp hheld).2 rfl
  · rcases h'.guarded x hx b _ hcools with hover | ⟨hcool, -⟩
    · exact absurd hlt (Nat.not_lt.mpr (hover.trans hnow))
    · dsimp only at hcool
      rw [hpool] at hcool
      rcases cooling_visit.mp hcool with hcool | ⟨hexp', -⟩
      · exact hnotcool hcool
      · have hsame : (lease.release horizon now).exposed = lease.exposed := rfl
        rw [hsame, hexp] at hexp'
        cases hexp'

/-- References are refused exactly while they are held or cool down, the search returns the
first one that is free, and no reference is lost. -/
theorem availability_exact {events : List UdhCall} (hrun : (machine horizon).Run events s) :
    (∀ b r t, Reads horizon s t → (s.Refused b r t ↔ s.Holds b r ∨ s.CoolsDown b r t)) ∧
    (∀ ids preferred cooldown t, Reads horizon s t →
      ((tryAcquire s.pool ids preferred cooldown t).1 = none ↔
        ∀ r, ∃ b ∈ ids, s.Holds b r ∨ s.CoolsDown b r t) ∧
      ((tryAcquire s.pool ids preferred cooldown t).1 = none → ∀ b,
        ((tryAcquire s.pool ids preferred cooldown t).2 b).active = (s.pool b).active) ∧
      ∀ lease, (tryAcquire s.pool ids preferred cooldown t).1 = some lease →
        ∃ offset < 256, lease.reference = preferred + .ofNat offset ∧
          (∀ b ∈ ids, ¬ (s.Holds b lease.reference ∨ s.CoolsDown b lease.reference t)) ∧
          ∀ earlier < offset, ∃ b ∈ ids, s.Holds b (preferred + .ofNat earlier) ∨
            s.CoolsDown b (preferred + .ofNat earlier) t) ∧
    (∀ index lease now s', s.live[index]? = some lease → lease.exposed = false →
      s.next horizon (.release index now) = some s' → ∀ b ∈ lease.bucketIds, ∀ t, now ≤ t →
        t ≤ horizon → ¬ s'.Refused b lease.reference t) ∧
    ((∀ x ∈ s.returned, x.lease.exposed = true → x.reading + x.lease.cooldown ≤ horizon) →
      ∀ b r, ((s.pool b).Active r ↔ s.Holds b r) ∧
        ((s.pool b).Cooling r ↔ ∃! c, c ∈ (s.pool b).cooldowns ∧ c.reference = r)) := by
  have h := Inv.run hrun
  have hrefused : ∀ ids t r, Reads horizon s t → (RefusedIn s.pool ids t r ↔
      ∃ b ∈ ids, s.Holds b r ∨ s.CoolsDown b r t) := by
    intro ids t r hread
    apply exists_congr
    intro b
    apply and_congr_right
    intro _
    exact h.refused_iff hread
  refine ⟨fun b r t hread => h.refused_iff hread,
    fun ids preferred cooldown t hread => ⟨?_, ?_, ?_⟩, ?_, h.accounted⟩
  · rw [tryAcquire_eq_none]
    exact forall_congr' fun r => hrefused ids t r hread
  · intro hnone b
    have hpool := tryAcquire_none (Prod.ext hnone rfl :
      tryAcquire s.pool ids preferred cooldown t = (none, _))
    refine (congrArg UdhReferenceBucket.active (congrFun hpool b)).trans ?_
    rw [purge]
    by_cases hb : b ∈ sortDedup ids
    · rw [update_of_mem hb]
      exact (purged_purgeUdhCooldowns (h.consistent b) t).active
    · rw [update_of_not_mem hb]
  · intro lease hlease
    obtain ⟨offset, hlt, hreference, hfree, hearlier⟩ := tryAcquire_first hlease
    rw [hrefused ids t _ hread] at hfree
    refine ⟨offset, hlt, hreference, fun b hb hor => hfree ⟨b, hb, hor⟩, fun earlier he => ?_⟩
    exact (hrefused ids t _ hread).mp (hearlier earlier he)
  · intro index lease now s' hlease hexp hnext b hb t hnow ht
    exact h.free_again hlease hexp hnext hb hnow ht

/-- A reference that cools down until 16 is passed over at 15 and given out again at 16. -/
theorem availability_exact_cooling : ∃ s, Machine.exec (next 1000) initial
      [.tryAcquire [⟨3, by decide⟩] 7 10 5, .markExposed 0, .release 0 6] = some s ∧
    s.Refused ⟨3, by decide⟩ 7 15 ∧ ¬ s.Refused ⟨3, by decide⟩ 7 16 := by
  have hexec : (Machine.exec (next 1000) initial
      [.tryAcquire [⟨3, by decide⟩] 7 10 5, .markExposed 0, .release 0 6]).map
        (fun s => (s.clock, s.live, s.returned)) =
          some (6, [], [⟨⟨[⟨3, by decide⟩], 7, 10, true⟩, 6⟩]) := by decide
  obtain ⟨s, hs, hview⟩ := Option.map_eq_some_iff.mp hexec
  obtain ⟨hclock, hview⟩ := Prod.mk.inj hview
  obtain ⟨hlive, hreturned⟩ := Prod.mk.inj hview
  have hall := availability_exact (Machine.run_of_exec hs)
  refine ⟨s, hs, ?_, ?_⟩
  · rw [hall.1 _ _ _ ⟨hclock ▸ by decide, by decide⟩, CoolsDown, hreturned]
    exact Or.inr ⟨_, List.mem_singleton_self _, ⟨rfl, List.mem_singleton_self _, rfl⟩, by decide⟩
  · rw [hall.1 _ _ _ ⟨hclock ▸ by decide, by decide⟩, CoolsDown, hreturned, Holds, hlive]
    rintro (⟨x, hx, -⟩ | ⟨x, hx, -, hlt⟩)
    · exact absurd hx List.not_mem_nil
    · rw [List.mem_singleton.mp hx] at hlt
      exact absurd hlt (by decide)

end UdhSequential

end CmppProtocol
