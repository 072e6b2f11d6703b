import CmppProtocol.Library.Focus
import CmppProtocol.Library.Machine
import CmppProtocol.Udh.Bucket
import CmppProtocol.Wire.Octets

/-! # Runs of the reference pool

An acquire is one step with its clock reading. A release first reads the clock
and the lease and then visits its buckets one at a time, among the steps of
other callers. Released leases stay on record with the clock reading.
-/

namespace CmppProtocol

open UdhReferenceBucket

/-- The addresses of a long message. -/
structure UdhMessage where
  srcId : String
  destTerminalIds : List String
deriving DecidableEq

/-- An address as it stands on the wire. -/
def wireAddress (address : String) : List UInt8 := putOctetStr [] address 21

/-- The receiver reassembles both messages under the same addresses. -/
def UdhMessage.SharesDomain (m m' : UdhMessage) : Prop :=
  wireAddress m.srcId = wireAddress m'.srcId ∧
    ∃ d ∈ m.destTerminalIds, ∃ d' ∈ m'.destTerminalIds, wireAddress d = wireAddress d'

structure UdhHolder where
  message : UdhMessage
  lease : UdhReferenceLease
deriving DecidableEq

/-- A release under way: the buckets it has not visited yet. -/
structure UdhReleasing where
  lease : UdhReferenceLease
  release : UdhRelease
  remaining : List BucketId

structure UdhReleased where
  holder : UdhHolder
  reading : ℕ
deriving DecidableEq

structure UdhState where
  pool : UdhReferencePool
  clock : ℕ
  live : List UdhHolder
  releasing : List UdhReleasing
  released : List UdhReleased

inductive UdhEvent
  | tryAcquire (message : UdhMessage) (preferred : UInt8) (cooldown now : ℕ)
  | markExposed (index : ℕ)
  | release (index now : ℕ)
  | visit (index : ℕ)

namespace UdhState

variable (hash : UdhHash) (horizon : ℕ)

def initial : UdhState := ⟨.new, 0, [], [], []⟩

def acquire (s : UdhState) (message : UdhMessage) (preferred : UInt8) (cooldown now : ℕ) :
    Option UdhReferenceLease × UdhReferencePool :=
  tryAcquire s.pool (bucketIds hash message.srcId message.destTerminalIds) preferred cooldown now

def next (s : UdhState) : UdhEvent → Option UdhState
  | .tryAcquire message preferred cooldown now =>
    if s.clock ≤ now then
      let (lease, pool) := s.acquire hash message preferred cooldown now
      some { s with pool, clock := now, live := s.live ++ (lease.map (⟨message, ·⟩)).toList }
    else none
  | .markExposed index =>
    if index < s.live.length then
      some { s with live := s.live.modify index fun h => { h with lease := h.lease.markExposed } }
    else none
  | .release index now =>
    match s.live[index]? with
    | some holder =>
      if s.clock ≤ now then
        some { s with
          clock := now
          live := s.live.eraseIdx index
          releasing := s.releasing ++
            [⟨holder.lease, holder.lease.release horizon now, holder.lease.bucketIds⟩]
          released := s.released ++ [⟨holder, now⟩] }
      else none
    | none => none
  | .visit index =>
    match s.releasing[index]? with
    | some ⟨lease, release, id :: remaining⟩ =>
      some { s with
        pool := s.pool.update [id] (release.visit lease.reference)
        releasing := s.releasing.set index ⟨lease, release, remaining⟩ }
    | _ => none

def machine : Machine UdhState UdhEvent := .ofNext initial (next hash horizon)

/-! ## What is held -/

end UdhState

def UdhHolder.held (h : UdhHolder) : List (BucketId × UInt8) :=
  h.lease.bucketIds.map (·, h.lease.reference)

def UdhReleasing.held (x : UdhReleasing) : List (BucketId × UInt8) :=
  x.remaining.map (·, x.lease.reference)

/-- The references that live leases and unfinished releases hold, bucket by bucket. -/
def heldReferences (live : List UdhHolder) (releasing : List UdhReleasing) :
    List (BucketId × UInt8) :=
  live.flatMap UdhHolder.held ++ releasing.flatMap UdhReleasing.held

section Held

variable {pre post live : List UdhHolder} {pre' post' releasing : List UdhReleasing} {h : UdhHolder}
  {x : UdhReleasing}

theorem held_live : (heldReferences (pre ++ h :: post) releasing).Perm
    (h.held ++ heldReferences (pre ++ post) releasing) := by
  simp only [heldReferences, List.flatMap_append, List.flatMap_cons, ← List.append_assoc]
  exact ((List.perm_append_comm.append_right _).append_right _)

theorem held_releasing : (heldReferences live (pre' ++ x :: post')).Perm
    (x.held ++ heldReferences live (pre' ++ post')) := by
  simp only [heldReferences, List.flatMap_append, List.flatMap_cons, ← List.append_assoc]
  apply List.Perm.append_right
  rw [List.append_assoc x.held]
  exact List.perm_append_comm

end Held

/-! ## One acquire -/

section Acquire

variable {pool pool' : UdhReferencePool} {ids : List BucketId} {preferred : UInt8}
  {cooldown now : ℕ} {lease : UdhReferenceLease}

theorem update_of_mem {f : UdhReferenceBucket → UdhReferenceBucket} {b : BucketId} (h : b ∈ ids) :
    pool.update ids f b = f (pool b) := if_pos h

theorem update_of_not_mem {f : UdhReferenceBucket → UdhReferenceBucket} {b : BucketId}
    (h : b ∉ ids) : pool.update ids f b = pool b := if_neg h

def purge (pool : UdhReferencePool) (ids : List BucketId) (now : ℕ) : UdhReferencePool :=
  pool.update (sortDedup ids) (purgeUdhCooldowns · now)

theorem tryAcquire_none (h : tryAcquire pool ids preferred cooldown now = (none, pool')) :
    pool' = purge pool ids now := by
  unfold tryAcquire at h
  dsimp only at h
  split at h
  · cases h
  · exact (Prod.mk.inj h).2.symm

/-- The lease is for a reference that no bucket refuses, which is then marked in all of them. -/
theorem tryAcquire_some (h : tryAcquire pool ids preferred cooldown now = (some lease, pool')) :
    lease.bucketIds = sortDedup ids ∧ lease.cooldown = cooldown ∧ lease.exposed = false ∧
      (∀ b ∈ sortDedup ids, udhReferenceIsSet (purge pool ids now b) lease.reference = false) ∧
      pool' = (purge pool ids now).update (sortDedup ids) (lend · lease.reference) := by
  unfold tryAcquire at h
  dsimp only at h
  split at h
  · rename_i reference hfind
    obtain ⟨hlease, hpool⟩ := Prod.mk.inj h
    obtain rfl := Option.some.inj hlease
    have hfree := List.find?_some hfind
    refine ⟨rfl, rfl, rfl, fun b hb => ?_, hpool.symm⟩
    exact (Bool.not_eq_true' _).mp (List.all_eq_true.mp hfree b hb)
  · cases h

end Acquire

namespace UdhState

variable {hash : UdhHash} {horizon : ℕ} {s s' : UdhState} {e : UdhEvent} {b : BucketId} {r : UInt8}
  {deadline : ℕ}

/-! ## The invariant -/

/-- The release under way will cool the reference down in the bucket. -/
def Pending (x : UdhReleasing) (b : BucketId) (r : UInt8) (deadline : ℕ) : Prop :=
  x.release.exposed = true ∧ x.lease.reference = r ∧ b ∈ x.remaining ∧
    ∀ d, x.release.deadline = some d → deadline ≤ d

/-- The bucket refuses the reference until the deadline. -/
def Guarded (s : UdhState) (b : BucketId) (r : UInt8) (deadline : ℕ) : Prop :=
  deadline ≤ s.clock ∨ (∃ x ∈ s.releasing, Pending x b r deadline) ∨
    (s.pool b).Cooling r ∧ ∀ c ∈ (s.pool b).cooldowns, c.reference = r → deadline ≤ c.deadline

/-- The lease is registered in the buckets of its message. -/
def Registered (hash : UdhHash) (h : UdhHolder) : Prop :=
  h.lease.bucketIds = sortDedup (bucketIds hash h.message.srcId h.message.destTerminalIds)

structure Inv (hash : UdhHash) (s : UdhState) : Prop where
  consistent : ∀ b, (s.pool b).Consistent
  nodup : (heldReferences s.live s.releasing).Nodup
  active : ∀ b r, (s.pool b).Active r ↔ (b, r) ∈ heldReferences s.live s.releasing
  live : ∀ h ∈ s.live, Registered hash h
  released : ∀ x ∈ s.released, Registered hash x.holder
  guarded : ∀ x ∈ s.released, x.holder.lease.exposed = true → ∀ b ∈ x.holder.lease.bucketIds,
    Guarded s b x.holder.lease.reference (x.reading + x.holder.lease.cooldown)

theorem Inv.initial : Inv hash initial where
  consistent _ := .default
  nodup := .nil
  active _ _ := iff_of_false not_active_default List.not_mem_nil
  live _ h := absurd h List.not_mem_nil
  released _ h := absurd h List.not_mem_nil
  guarded _ h := absurd h List.not_mem_nil

/-! ## Acquires -/

theorem purge_purged (h : Inv hash s) (ids : List BucketId) (now : ℕ) (b : BucketId) :
    b ∈ ids ∧ Purged now (s.pool b) (purge s.pool ids now b) ∨
      b ∉ ids ∧ purge s.pool ids now b = s.pool b := by
  by_cases hb : b ∈ ids
  · left
    rw [purge, update_of_mem (mem_sortDedup.mpr hb)]
    exact ⟨hb, purged_purgeUdhCooldowns (h.consistent b) now⟩
  · right
    exact ⟨hb, update_of_not_mem fun hm => hb (mem_sortDedup.mp hm)⟩

/-- A purge at a clock reading lifts no guard. -/
theorem Guarded.purge (h : Inv hash s) (hg : Guarded s b r deadline) (ids : List BucketId)
    {now : ℕ} (hnow : s.clock ≤ now) :
    Guarded { s with pool := CmppProtocol.purge s.pool ids now, clock := now } b r deadline := by
  rcases hg with hg | hg | ⟨hc, hall⟩
  · exact Or.inl (hg.trans hnow)
  · exact Or.inr (Or.inl hg)
  by_cases hover : deadline ≤ now
  · exact Or.inl hover
  refine Or.inr (Or.inr ?_)
  rcases purge_purged h ids now b with ⟨-, hp⟩ | ⟨-, heq⟩
  · constructor
    · refine (hp.cooling r).mpr ⟨hc, fun c hmem hr => ?_⟩
      exact Nat.lt_of_lt_of_le (Nat.not_le.mp hover) (hall c hmem hr)
    · intro c hmem hr
      exact hall c ((hp.cooldowns c).mp hmem).1 hr
  · dsimp only
    rw [heq]
    exact ⟨hc, hall⟩

theorem Inv.purge (h : Inv hash s) (ids : List BucketId) {now : ℕ} (hnow : s.clock ≤ now) :
    Inv hash { s with pool := CmppProtocol.purge s.pool ids now, clock := now } where
  consistent b := by
    rcases purge_purged h ids now b with ⟨-, hp⟩ | ⟨-, heq⟩
    · exact hp.consistent
    · dsimp only
      rw [heq]
      exact h.consistent b
  nodup := h.nodup
  active b r := by
    rw [← h.active b r]
    rcases purge_purged h ids now b with ⟨-, hp⟩ | ⟨-, heq⟩
    · simp only [Active, hp.active]
    · simp only [heq]
  live := h.live
  released := h.released
  guarded x hx hexp b hb := (h.guarded x hx hexp b hb).purge h ids hnow

/-- A guarded reference is refused by the purged bucket before its deadline. -/
theorem Guarded.isSet (h : Inv hash s) (hg : Guarded s b r deadline) (hnow : s.clock < deadline) :
    udhReferenceIsSet (s.pool b) r = true := by
  apply isSet_iff.mpr
  rcases hg with hg | ⟨x, hx, -, hr, hb, -⟩ | ⟨hc, -⟩
  · exact absurd hg (Nat.not_le.mpr hnow)
  · left
    apply (h.active b r).mpr
    apply List.mem_append_right
    refine List.mem_flatMap.mpr ⟨x, hx, List.mem_map.mpr ⟨b, hb, ?_⟩⟩
    rw [hr]
  · exact Or.inr hc

theorem Inv.lend (h : Inv hash s) (holder : UdhHolder) (hreg : Registered hash holder)
    (hfree : ∀ b ∈ holder.lease.bucketIds,
      udhReferenceIsSet (s.pool b) holder.lease.reference = false) :
    Inv hash { s with
      pool := s.pool.update holder.lease.bucketIds (lend · holder.lease.reference)
      live := s.live ++ [holder] } := by
  have hperm : (heldReferences (s.live ++ [holder]) s.releasing).Perm
      (holder.held ++ heldReferences s.live s.releasing) := by
    have := @held_live s.live [] s.releasing holder
    rwa [List.append_nil] at this
  have hfree' : ∀ b ∈ holder.lease.bucketIds, ¬ (s.pool b).Active holder.lease.reference ∧
      ¬ (s.pool b).Cooling holder.lease.reference := by
    intro b hb
    have hset : ¬ udhReferenceIsSet (s.pool b) holder.lease.reference = true := by
      rw [hfree b hb]
      exact Bool.false_ne_true
    exact not_or.mp fun hor => hset (isSet_iff.mpr hor)
  have hmem : ∀ b r, (b, r) ∈ holder.held ↔
      b ∈ holder.lease.bucketIds ∧ r = holder.lease.reference := by
    intro b r
    rw [UdhHolder.held, List.mem_map]
    constructor
    · rintro ⟨b', hb', heq⟩
      obtain ⟨rfl, rfl⟩ := Prod.mk.inj heq
      exact ⟨hb', rfl⟩
    · rintro ⟨hb, rfl⟩
      exact ⟨b, hb, rfl⟩
  refine ⟨fun b => ?_, ?_, fun b r => ?_, ?_, h.released, fun x hx hexp b hb => ?_⟩
  · by_cases hb : b ∈ holder.lease.bucketIds
    · simp only [update_of_mem hb]
      exact (h.consistent b).lend (hfree' b hb).2
    · simp only [update_of_not_mem hb]
      exact h.consistent b
  · apply hperm.nodup_iff.mpr
    refine List.nodup_append'.mpr ⟨?_, h.nodup, ?_⟩
    · apply List.Nodup.map
      · intro b b' heq
        exact (Prod.mk.inj heq).1
      · rw [hreg]
        exact sortDedup_nodup _
    · rintro ⟨b, r⟩ hin hheld
      obtain ⟨hb, rfl⟩ := (hmem b r).mp hin
      exact (hfree' b hb).1 ((h.active b _).mpr hheld)
  · rw [hperm.mem_iff, List.mem_append, hmem, ← h.active]
    by_cases hb : b ∈ holder.lease.bucketIds
    · simp only [update_of_mem hb, active_lend, hb, true_and, or_comm]
    · simp only [update_of_not_mem hb, hb, false_and, false_or]
  · intro x hx
    rcases List.mem_append.mp hx with hx | hx
    · exact h.live x hx
    · exact List.mem_singleton.mp hx ▸ hreg
  · rcases h.guarded x hx hexp b hb with hg | hg | hg
    · exact Or.inl hg
    · exact Or.inr (Or.inl hg)
    · refine Or.inr (Or.inr ?_)
      dsimp only
      by_cases hb' : b ∈ holder.lease.bucketIds
      · rw [update_of_mem hb']
        exact hg
      · rw [update_of_not_mem hb']
        exact hg

/-- The state after the purge of an acquire, before the search. -/
def purged (s : UdhState) (hash : UdhHash) (message : UdhMessage) (now : ℕ) : UdhState :=
  { s with
    pool := CmppProtocol.purge s.pool (bucketIds hash message.srcId message.destTerminalIds) now
    clock := now }

theorem Inv.acquire (h : Inv hash s) {message : UdhMessage} {preferred : UInt8} {cooldown now : ℕ}
    (hnext : s.next hash horizon (.tryAcquire message preferred cooldown now) = some s') :
    Inv hash s' := by
  rw [next] at hnext
  split_ifs at hnext with hnow
  have hp : Inv hash (s.purged hash message now) := h.purge _ hnow
  cases hacq : s.acquire hash message preferred cooldown now with
  | mk lease pool' =>
    simp only [hacq, Option.some.injEq] at hnext
    subst hnext
    cases lease with
    | none =>
      obtain rfl := tryAcquire_none hacq
      rw [Option.map_none, Option.toList_none, List.append_nil]
      exact hp
    | some lease =>
      obtain ⟨hids, -, -, hfree, rfl⟩ := tryAcquire_some hacq
      rw [← hids] at hfree ⊢
      exact hp.lend ⟨message, lease⟩ hids hfree

/-! ## Exposure and release -/

theorem held_congr {live live' : List UdhHolder} {releasing : List UdhReleasing}
    (h : live'.map UdhHolder.held = live.map UdhHolder.held) :
    heldReferences live' releasing = heldReferences live releasing := by
  simp only [heldReferences, List.flatMap_def, h]

theorem Inv.markExposed (h : Inv hash s) {index : ℕ}
    (hnext : s.next hash horizon (.markExposed index) = some s') : Inv hash s' := by
  rw [next] at hnext
  split_ifs at hnext with hlt
  obtain rfl := Option.some.inj hnext
  obtain ⟨pre, post, hf⟩ := List.exists_focus (List.getElem?_eq_getElem hlt)
  have hheld : heldReferences (s.live.modify index fun x => { x with lease := x.lease.markExposed })
      s.releasing = heldReferences s.live s.releasing := by
    apply held_congr
    rw [hf.modify]
    conv_rhs => rw [hf.split]
    simp only [List.map_append, List.map_cons]
    rfl
  refine ⟨h.consistent, ?_, fun b r => ?_, ?_, h.released, h.guarded⟩
  · exact hheld.symm ▸ h.nodup
  · exact hheld.symm ▸ h.active b r
  · intro x hx
    rw [hf.modify] at hx
    rcases List.mem_append.mp hx with hx | hx
    · exact h.live x (hf.split ▸ List.mem_append_left _ hx)
    · rcases List.mem_cons.mp hx with rfl | hx
      · exact h.live s.live[index] (List.getElem_mem hlt)
      · exact h.live x (hf.split ▸ List.mem_append_right _ (List.mem_cons_of_mem _ hx))

theorem release_deadline {lease : UdhReferenceLease} {now d : ℕ}
    (h : (lease.release horizon now).deadline = some d) : d = now + lease.cooldown := by
  unfold UdhReferenceLease.release checkedAddInstant at h
  dsimp only at h
  split_ifs at h
  exact (Option.some.inj h).symm

theorem Inv.release (h : Inv hash s) {index now : ℕ}
    (hnext : s.next hash horizon (.release index now) = some s') : Inv hash s' := by
  rw [next] at hnext
  cases hget : s.live[index]? with
  | none =>
    rw [hget] at hnext
    cases hnext
  | some holder =>
    simp only [hget] at hnext
    split_ifs at hnext with hnow
    obtain rfl := Option.some.inj hnext
    obtain ⟨pre, post, hf⟩ := List.exists_focus hget
    have hmem : holder ∈ s.live := List.mem_of_getElem? hget
    generalize hx : (⟨holder.lease, holder.lease.release horizon now, holder.lease.bucketIds⟩ :
      UdhReleasing) = x
    have hperm : (heldReferences (pre ++ post) (s.releasing ++ [x])).Perm
        (heldReferences s.live s.releasing) := by
      have hr := @held_releasing (pre ++ post) s.releasing [] x
      rw [List.append_nil] at hr
      rw [hf.split]
      refine hr.trans ?_
      subst hx
      exact held_live.symm
    refine ⟨h.consistent, ?_, fun b r => ?_, ?_, ?_, ?_⟩
    · rw [hf.erase]
      exact hperm.nodup_iff.mpr h.nodup
    · rw [hf.erase, hperm.mem_iff]
      exact h.active b r
    · intro y hy
      exact h.live y (List.mem_of_mem_eraseIdx hy)
    · intro y hy
      rcases List.mem_append.mp hy with hy | hy
      · exact h.released y hy
      · obtain rfl := List.mem_singleton.mp hy
        exact h.live _ hmem
    · intro y hy hexp b hb
      rcases List.mem_append.mp hy with hy | hy
      · rcases h.guarded y hy hexp b hb with hg | ⟨z, hz, hg⟩ | hg
        · exact Or.inl (hg.trans hnow)
        · exact Or.inr (Or.inl ⟨z, List.mem_append_left _ hz, hg⟩)
        · exact Or.inr (Or.inr hg)
      · obtain rfl := List.mem_singleton.mp hy
        refine Or.inr (Or.inl ⟨x, List.mem_append_right _ (List.mem_singleton_self _), ?_⟩)
        subst hx
        exact ⟨hexp, rfl, hb, fun d hd => (release_deadline hd).ge⟩

theorem pending_of_visit {pre post : List UdhReleasing} {lease : UdhReferenceLease}
    {release : UdhRelease} {id : BucketId} {remaining : List BucketId} {y : UdhReleasing}
    (hy : y ∈ pre ++ ⟨lease, release, id :: remaining⟩ :: post) (hg : Pending y b r deadline)
    (hne : ¬ (y = ⟨lease, release, id :: remaining⟩ ∧ b = id)) :
    ∃ z ∈ pre ++ (⟨lease, release, remaining⟩ : UdhReleasing) :: post, Pending z b r deadline := by
  rcases List.mem_append.mp hy with hy | hy
  · exact ⟨y, List.mem_append_left _ hy, hg⟩
  rcases List.mem_cons.mp hy with rfl | hy
  · refine ⟨⟨lease, release, remaining⟩, List.mem_append_right _ List.mem_cons_self, ?_⟩
    obtain ⟨hexp, hr, hb, hd⟩ := hg
    refine ⟨hexp, hr, ?_, hd⟩
    exact (List.mem_cons.mp hb).resolve_left fun he => hne ⟨rfl, he⟩
  · exact ⟨y, List.mem_append_right _ (List.mem_cons_of_mem _ hy), hg⟩

theorem Inv.visit (h : Inv hash s) {index : ℕ}
    (hnext : s.next hash horizon (.visit index) = some s') : Inv hash s' := by
  rw [next] at hnext
  split at hnext
  case h_2 => cases hnext
  rename_i lease release id remaining hget
  obtain rfl := Option.some.inj hnext
  obtain ⟨pre, post, hf⟩ := List.exists_focus hget
  have hperm : (heldReferences s.live s.releasing).Perm
      ((id, lease.reference) ::
        heldReferences s.live (pre ++ ⟨lease, release, remaining⟩ :: post)) := by
    rw [hf.split]
    refine held_releasing.trans (List.Perm.cons (id, lease.reference) ?_)
    exact (held_releasing (x := ⟨lease, release, remaining⟩)).symm
  have hnodup := List.nodup_cons.mp (hperm.nodup_iff.mp h.nodup)
  have hactive : (s.pool id).Active lease.reference :=
    (h.active _ _).mpr (hperm.mem_iff.mpr List.mem_cons_self)
  have hother : ∀ b, b ≠ id → s.pool.update [id] (release.visit lease.reference) b = s.pool b :=
    fun b hb => update_of_not_mem fun hm => hb (List.mem_singleton.mp hm)
  have hself : s.pool.update [id] (release.visit lease.reference) id =
      release.visit lease.reference (s.pool id) := update_of_mem (List.mem_singleton_self id)
  refine ⟨fun b => ?_, ?_, fun b r => ?_, h.live, h.released, fun x hx hexp b hb => ?_⟩
  · by_cases hb : b = id
    · subst hb
      dsimp only
      rw [hself]
      exact (h.consistent b).visit hactive
    · dsimp only
      rw [hother b hb]
      exact h.consistent b
  · rw [hf.set]
    exact hnodup.2
  · have hm := h.active b r
    rw [hperm.mem_iff, List.mem_cons, Prod.mk.injEq] at hm
    rw [hf.set]
    by_cases hb : b = id
    · subst hb
      dsimp only
      rw [hself, active_visit, hm]
      constructor
      · rintro ⟨h | h, hne⟩
        · exact absurd h.2 hne
        · exact h
      · intro hin
        refine ⟨Or.inr hin, ?_⟩
        rintro rfl
        exact hnodup.1 hin
    · dsimp only
      rw [hother b hb, hm]
      exact ⟨fun h => h.resolve_left fun he => hb he.1, Or.inr⟩
  · rcases h.guarded x hx hexp b hb with hg | ⟨y, hy, hg⟩ | ⟨hc, hall⟩
    · exact Or.inl hg
    · by_cases hkeep : ∃ z ∈ pre ++ (⟨lease, release, remaining⟩ : UdhReleasing) :: post,
          Pending z b x.holder.lease.reference (x.reading + x.holder.lease.cooldown)
      · refine Or.inr (Or.inl ?_)
        rw [hf.set]
        exact hkeep
      · obtain ⟨hy, hb⟩ : y = ⟨lease, release, id :: remaining⟩ ∧ b = id := by
          by_contra hne
          exact hkeep (pending_of_visit (hf.split ▸ hy) hg hne)
        subst hy hb
        obtain ⟨hexp', hr, -, hd⟩ := hg
        refine Or.inr (Or.inr ?_)
        dsimp only
        rw [hself]
        constructor
        · exact cooling_visit.mpr (Or.inr ⟨hexp', hr.symm⟩)
        · intro c hc hcr
          rcases mem_cooldowns_visit.mp hc with hc | ⟨-, hdl, -⟩
          · have hcool := (h.consistent b).cooling c hc
            rw [hcr, ← hr] at hcool
            exact absurd hcool ((h.consistent b).exclusive _ hactive)
          · exact hd _ hdl
    · refine Or.inr (Or.inr ?_)
      dsimp only
      by_cases hb' : b = id
      · subst hb'
        rw [hself]
        have hne : x.holder.lease.reference ≠ lease.reference := by
          intro heq
          rw [heq] at hc
          exact (h.consistent b).exclusive _ hactive hc
        constructor
        · exact cooling_visit.mpr (Or.inl hc)
        · intro c hmem hr
          rcases mem_cooldowns_visit.mp hmem with hmem | ⟨-, -, heq⟩
          · exact hall c hmem hr
          · exact absurd (hr.symm.trans heq) hne
      · rw [hother b hb']
        exact ⟨hc, hall⟩

theorem Inv.next (h : Inv hash s) (hnext : s.next hash horizon e = some s') : Inv hash s' := by
  cases e with
  | tryAcquire message preferred cooldown now => exact h.acquire hnext
  | markExposed index => exact h.markExposed hnext
  | release index now => exact h.release hnext
  | visit index => exact h.visit hnext

theorem Inv.run {events : List UdhEvent} (hrun : (machine hash horizon).Run events s) :
    Inv hash s :=
  hrun.invariant (I := fun _ => Inv hash) (fun _ hinit => hinit ▸ Inv.initial)
    fun _ _ _ _ h hstep => h.next hstep

/-! ## Isolation -/

theorem normalizeUdhAddress_eq (address : String) :
    normalizeUdhAddress address = wireAddress address := by
  simp only [normalizeUdhAddress, wireAddress, putOctetStr, putSlice, List.length_replicate,
    List.drop_replicate, List.nil_append]

theorem mem_bucketIds {m : UdhMessage} {d : String} (hd : d ∈ m.destTerminalIds) :
    bucketId hash (wireAddress m.srcId) (wireAddress d) ∈
      bucketIds hash m.srcId m.destTerminalIds := by
  unfold bucketIds
  dsimp only
  split_ifs with hempty
  · rw [List.isEmpty_iff.mp hempty] at hd
    exact absurd hd List.not_mem_nil
  · apply mem_sortDedup.mpr
    refine List.mem_map.mpr ⟨d, hd, ?_⟩
    rw [normalizeUdhAddress_eq, normalizeUdhAddress_eq]

/-- Messages that share a domain share a bucket, whatever the hash. -/
theorem shared_bucket (hash : UdhHash) {m m' : UdhMessage} (h : m.SharesDomain m') :
    ∃ b, b ∈ bucketIds hash m.srcId m.destTerminalIds ∧
      b ∈ bucketIds hash m'.srcId m'.destTerminalIds := by
  obtain ⟨hsrc, d, hd, d', hd', heq⟩ := h
  refine ⟨_, mem_bucketIds hd, ?_⟩
  rw [hsrc, heq]
  exact mem_bucketIds hd'

theorem mem_held {h : UdhHolder} (hreg : Registered hash h)
    (hb : b ∈ bucketIds hash h.message.srcId h.message.destTerminalIds) :
    (b, h.lease.reference) ∈ h.held := by
  refine List.mem_map.mpr ⟨b, ?_, rfl⟩
  rw [hreg]
  exact mem_sortDedup.mpr hb

theorem Inv.live_isolated (h : Inv hash s) : s.live.Pairwise fun x y =>
    x.message.SharesDomain y.message → x.lease.reference ≠ y.lease.reference := by
  have hnodup := (List.nodup_append'.mp h.nodup).1
  have hdisjoint := (List.nodup_flatMap.mp hnodup).2
  refine hdisjoint.imp_of_mem fun {x y} hx hy hxy hshare heq => ?_
  obtain ⟨b, hb, hb'⟩ := shared_bucket hash hshare
  refine hxy (mem_held (h.live x hx) hb) ?_
  rw [heq]
  exact mem_held (h.live y hy) hb'

theorem Inv.cooling_isolated (h : Inv hash s) {x : UdhReleased} (hx : x ∈ s.released)
    (hexp : x.holder.lease.exposed = true) {message : UdhMessage} {preferred : UInt8}
    {cooldown now : ℕ} (hclock : s.clock ≤ now)
    (hnow : now < x.reading + x.holder.lease.cooldown)
    (hshare : message.SharesDomain x.holder.message) {lease : UdhReferenceLease}
    (hlease : (s.acquire hash message preferred cooldown now).1 = some lease) :
    lease.reference ≠ x.holder.lease.reference := by
  obtain ⟨b, hb, hb'⟩ := shared_bucket hash hshare
  have hmem : b ∈ x.holder.lease.bucketIds := by
    rw [h.released x hx]
    exact mem_sortDedup.mpr hb'
  have hset :
      udhReferenceIsSet ((s.purged hash message now).pool b) x.holder.lease.reference = true :=
    ((h.guarded x hx hexp b hmem).purge h _ hclock).isSet (h.purge _ hclock) hnow
  have hacq : s.acquire hash message preferred cooldown now = (some lease, _) :=
    Prod.ext hlease rfl
  obtain ⟨-, -, -, hfree, -⟩ := tryAcquire_some hacq
  intro heq
  have hclear := hfree b (mem_sortDedup.mpr hb)
  rw [heq] at hclear
  exact Bool.false_ne_true (hclear.symm.trans hset)

/-- No reference is in use twice where the receiver could mix up the parts. -/
theorem references_isolated {events : List UdhEvent}
    (hrun : (machine hash horizon).Run events s) :
    (s.live.Pairwise fun x y =>
      x.message.SharesDomain y.message → x.lease.reference ≠ y.lease.reference) ∧
    ∀ x ∈ s.released, x.holder.lease.exposed = true →
      ∀ message preferred cooldown now, s.clock ≤ now →
        now < x.reading + x.holder.lease.cooldown → message.SharesDomain x.holder.message →
        ∀ lease, (s.acquire hash message preferred cooldown now).1 = some lease →
          lease.reference ≠ x.holder.lease.reference := by
  have h := Inv.run hrun
  constructor
  · exact h.live_isolated
  · intro x hx hexp message preferred cooldown now hclock hnow hshare lease hlease
    exact h.cooling_isolated hx hexp hclock hnow hshare hlease

/-- A reference released at 6 with a cooldown of 10 is not handed out at 15. -/
theorem references_isolated_cooling :
    let message : UdhMessage := ⟨"1065", ["13800000000"]⟩
    let events := [.tryAcquire message 7 10 5, .markExposed 0, .release 0 6, .visit 0]
    ∃ s, Machine.exec (next (fun _ _ => 3) 1000) initial events = some s ∧
      ∀ lease, (s.acquire (fun _ _ => 3) message 7 10 15).1 = some lease → lease.reference ≠ 7 := by
  intro message events
  have hexec : (Machine.exec (next (fun _ _ => 3) 1000) initial events).map
      (fun s => (s.clock, s.released)) =
        some (6, [⟨⟨message, ⟨[⟨3, by decide⟩], 7, 10, true⟩⟩, 6⟩]) := by decide
  obtain ⟨s, hs, hfields⟩ := Option.map_eq_some_iff.mp hexec
  obtain ⟨hclock, hreleased⟩ := Prod.mk.inj hfields
  refine ⟨s, hs, ?_⟩
  refine (references_isolated (Machine.run_of_exec hs)).2
    ⟨⟨message, ⟨[⟨3, by decide⟩], 7, 10, true⟩⟩, 6⟩
    (hreleased ▸ List.mem_singleton_self _) rfl message 7 10 15 (hclock ▸ by decide) (by decide)
    ⟨rfl, "13800000000", ?_, "13800000000", ?_, rfl⟩ <;> exact List.mem_singleton_self _

end UdhState

end CmppProtocol
