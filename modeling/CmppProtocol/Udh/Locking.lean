import CmppProtocol.Library.Locking
import CmppProtocol.Udh.Runs

/-! # The locks of the buckets

Every bucket has a lock of its own. An acquire holds the locks of all its buckets
while it purges, searches and marks them one by one; a release locks one bucket
at a time. Callers on other threads come in between all these steps. The effect
is that of the acquires and the visits as single steps.
-/

namespace CmppProtocol

open Locking

/-- Locks are taken in increasing order. -/
abbrev LockOrder := {ids : List BucketId // ids.Pairwise (· < ·)}

/-- How many buckets an acquire has purged or marked. -/
inductive AcquireStage
  | purging (visited : ℕ)
  | marking (reference : UInt8) (visited : ℕ)
  deriving DecidableEq

inductive UdhSection
  | acquire (ids : LockOrder) (preferred : UInt8) (cooldown now : ℕ) (stage : AcquireStage)
  | visit (id : BucketId) (release : UdhRelease) (reference : UInt8)

inductive UdhResult
  | acquired (lease : Option UdhReferenceLease)
  | visited
  deriving DecidableEq

/-- The first reference, from the preferred one on, that is free in all buckets. -/
def searchReference (pool : UdhReferencePool) (ids : List BucketId) (preferred : UInt8) :
    Option UInt8 :=
  ((List.range 256).map fun offset => preferred + .ofNat offset).find? fun reference =>
    ids.all fun id => !udhReferenceIsSet (pool id) reference

def LockOrder.of (bucketIds : List BucketId) : LockOrder :=
  ⟨sortDedup bucketIds, dropRepeats_lt (List.pairwise_insertionSort _ bucketIds)⟩

namespace UdhSection

def cells : UdhSection → List BucketId
  | acquire ids _ _ _ _ => ids.1
  | visit id _ _ => [id]

/-- The next bucket is purged or marked. After the last one comes the search, or the end. -/
def step (t : UdhSection) (pool : UdhReferencePool) :
    (UdhSection ⊕ UdhResult) × UdhReferencePool :=
  match t with
  | acquire ids preferred cooldown now (.purging visited) =>
    match ids.1[visited]? with
    | some id =>
      (.inl (.acquire ids preferred cooldown now (.purging (visited + 1))),
        pool.update [id] (purgeUdhCooldowns · now))
    | none =>
      match searchReference pool ids.1 preferred with
      | some reference =>
        (.inl (.acquire ids preferred cooldown now (.marking reference 0)), pool)
      | none => (.inr (.acquired none), pool)
  | acquire ids preferred cooldown now (.marking reference visited) =>
    match ids.1[visited]? with
    | some id =>
      (.inl (.acquire ids preferred cooldown now (.marking reference (visited + 1))),
        pool.update [id] (UdhReferenceBucket.lend · reference))
    | none =>
      (.inr (.acquired (some { bucketIds := ids.1, reference, cooldown, exposed := false })), pool)
  | visit id release reference => (.inr .visited, pool.update [id] (release.visit reference))

/-- The steps that are left. -/
def work : UdhSection → ℕ
  | acquire ids _ _ _ (.purging visited) => ids.1.length - visited + ids.1.length + 2
  | acquire ids _ _ _ (.marking _ visited) => ids.1.length - visited + 1
  | visit _ _ _ => 0

variable {t t' : UdhSection} {pool pool' : UdhReferencePool} {ids : LockOrder} {preferred : UInt8}
  {cooldown now visited : ℕ} {reference : UInt8} {id : BucketId}

/-- What a step does. -/
inductive Steps (pool : UdhReferencePool) :
    UdhSection → (UdhSection ⊕ UdhResult) × UdhReferencePool → Prop
  | purge {ids : LockOrder} {preferred : UInt8} {cooldown now visited : ℕ} {id : BucketId} :
    ids.1[visited]? = some id →
    Steps pool (acquire ids preferred cooldown now (.purging visited))
      (.inl (.acquire ids preferred cooldown now (.purging (visited + 1))),
        pool.update [id] (purgeUdhCooldowns · now))
  | found {ids : LockOrder} {preferred : UInt8} {cooldown now visited : ℕ} {reference : UInt8} :
    ids.1[visited]? = none → searchReference pool ids.1 preferred = some reference →
    Steps pool (acquire ids preferred cooldown now (.purging visited))
      (.inl (.acquire ids preferred cooldown now (.marking reference 0)), pool)
  | missed {ids : LockOrder} {preferred : UInt8} {cooldown now visited : ℕ} :
    ids.1[visited]? = none → searchReference pool ids.1 preferred = none →
    Steps pool (acquire ids preferred cooldown now (.purging visited))
      (.inr (.acquired none), pool)
  | mark {ids : LockOrder} {preferred reference : UInt8} {cooldown now visited : ℕ}
      {id : BucketId} : ids.1[visited]? = some id →
    Steps pool (acquire ids preferred cooldown now (.marking reference visited))
      (.inl (.acquire ids preferred cooldown now (.marking reference (visited + 1))),
        pool.update [id] (UdhReferenceBucket.lend · reference))
  | leased {ids : LockOrder} {preferred reference : UInt8} {cooldown now visited : ℕ} :
    ids.1[visited]? = none →
    Steps pool (acquire ids preferred cooldown now (.marking reference visited))
      (.inr (.acquired (some { bucketIds := ids.1, reference, cooldown, exposed := false })), pool)
  | visit (id : BucketId) (release : UdhRelease) (reference : UInt8) :
    Steps pool (UdhSection.visit id release reference)
      (.inr .visited, pool.update [id] (release.visit reference))

theorem step_steps (t : UdhSection) (pool : UdhReferencePool) : Steps pool t (t.step pool) := by
  cases t with
  | visit id release reference => exact .visit id release reference
  | acquire ids preferred cooldown now stage =>
    cases stage with
    | purging visited =>
      dsimp only [step]
      split
      · next hid => exact .purge hid
      · next hend =>
        split
        · next hfound => exact .found hend hfound
        · next hmissed => exact .missed hend hmissed
    | marking reference visited =>
      dsimp only [step]
      split
      · next hid => exact .mark hid
      · next hend => exact .leased hend

theorem lt_of_getElem? (h : ids.1[visited]? = some id) : visited < ids.1.length :=
  (List.getElem?_eq_some_iff.mp h).1

theorem keeps (h : (t.step pool).1 = .inl t') : t'.cells = t.cells := by
  have hsteps := step_steps t pool
  generalize t.step pool = x at h hsteps
  cases hsteps with
  | missed | leased | visit => cases h
  | purge | found | mark =>
    cases h
    rfl

theorem descends (h : (t.step pool).1 = .inl t') : t'.work < t.work := by
  have hsteps := step_steps t pool
  generalize t.step pool = x at h hsteps
  cases hsteps with
  | missed | leased | visit => cases h
  | purge hid =>
    cases h
    have := lt_of_getElem? hid
    simp only [work]
    omega
  | found hend hfound =>
    cases h
    simp only [work]
    omega
  | mark hid =>
    cases h
    have := lt_of_getElem? hid
    simp only [work]
    omega

theorem not_mem_singleton {b : BucketId} (hid : ids.1[visited]? = some id) (hb : b ∉ ids.1) :
    b ∉ [id] := by
  intro hmem
  rw [List.mem_singleton.mp hmem] at hb
  exact hb (List.mem_of_getElem? hid)

theorem frame (t : UdhSection) (pool : UdhReferencePool) (b : BucketId) (hb : b ∉ t.cells) :
    (t.step pool).2 b = pool b := by
  have hsteps := step_steps t pool
  generalize t.step pool = x at hsteps
  cases hsteps with
  | missed | leased | found => rfl
  | purge hid => exact if_neg (not_mem_singleton hid hb)
  | mark hid => exact if_neg (not_mem_singleton hid hb)
  | visit => exact if_neg hb

theorem searchReference_congr (hsame : ∀ b ∈ ids.1, pool b = pool' b) :
    searchReference pool ids.1 preferred = searchReference pool' ids.1 preferred := by
  unfold searchReference
  congr 1
  funext reference
  rw [Bool.eq_iff_iff, List.all_eq_true, List.all_eq_true]
  constructor
  · intro h b hb
    rw [← hsame b hb]
    exact h b hb
  · intro h b hb
    rw [hsame b hb]
    exact h b hb

theorem update_congr {f : UdhReferenceBucket → UdhReferenceBucket} {b : BucketId}
    (hsame : pool b = pool' b) : pool.update [id] f b = pool'.update [id] f b := by
  unfold UdhReferencePool.update
  rw [hsame]

/-- A step looks at its own buckets only. -/
theorem reads (t : UdhSection) (pool pool' : UdhReferencePool)
    (hsame : ∀ b ∈ t.cells, pool b = pool' b) :
    (t.step pool).1 = (t.step pool').1 ∧ ∀ b ∈ t.cells, (t.step pool).2 b = (t.step pool').2 b := by
  cases t with
  | visit id release reference => exact ⟨rfl, fun b hb => update_congr (hsame b hb)⟩
  | acquire ids preferred cooldown now stage =>
    cases stage with
    | purging visited =>
      have hsearch : searchReference pool ids.1 preferred = searchReference pool' ids.1 preferred :=
        searchReference_congr hsame
      cases hid : ids.1[visited]? with
      | some id =>
        simp only [step, hid]
        exact ⟨trivial, fun b hb => update_congr (hsame b hb)⟩
      | none =>
        simp only [step, hid, ← hsearch]
        cases searchReference pool ids.1 preferred with
        | some reference => exact ⟨rfl, hsame⟩
        | none => exact ⟨rfl, hsame⟩
    | marking reference visited =>
      cases hid : ids.1[visited]? with
      | some id =>
        simp only [step, hid]
        exact ⟨trivial, fun b hb => update_congr (hsame b hb)⟩
      | none =>
        simp only [step, hid]
        exact ⟨trivial, hsame⟩

theorem sorted (t : UdhSection) : t.cells.Pairwise (· < ·) := by
  cases t with
  | acquire ids preferred cooldown now stage => exact ids.2
  | visit id release reference => exact List.pairwise_singleton _ id

end UdhSection

end CmppProtocol
