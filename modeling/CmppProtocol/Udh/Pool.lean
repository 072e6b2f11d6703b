import CmppProtocol.Library.Bitmap
import CmppProtocol.Library.Loop
import CmppProtocol.Library.MinHeap
import CmppProtocol.Library.SortDedup
import CmppProtocol.Library.Utf8
import Mathlib.Data.Prod.Lex
import Mathlib.Data.List.Basic

/-! # The pool of UDH references

A long message borrows one 8-bit reference in the bucket of every pair of its
source and destinations. A bucket marks the references that are lent out and
those that cool down after a release, with a heap of the cooldowns. Instants are
natural numbers up to the last one the clock can represent.
-/

namespace CmppProtocol

def UDH_REFERENCE_BUCKET_COUNT : ℕ := 4096

abbrev BucketId := Fin UDH_REFERENCE_BUCKET_COUNT

structure UdhCooldown where
  deadline : ℕ
  reference : UInt8
deriving DecidableEq

/-- Cooldowns are ordered as pairs. -/
def UdhCooldown.key (cooldown : UdhCooldown) : ℕ ×ₗ ℕ :=
  toLex (cooldown.deadline, cooldown.reference.toNat)

theorem UdhCooldown.key_injective : Function.Injective UdhCooldown.key := by
  intro a b h
  obtain ⟨hd, hr⟩ := Prod.ext_iff.mp (toLex_inj.mp h)
  cases a
  cases b
  exact congrArg₂ UdhCooldown.mk hd (UInt8.toNat_inj.mp hr)

instance : LinearOrder UdhCooldown := LinearOrder.lift' UdhCooldown.key UdhCooldown.key_injective

structure UdhReferenceBucket where
  active : Vector UInt64 4
  cooling : Vector UInt64 4
  cooldowns : MinHeap UdhCooldown

abbrev UdhReferencePool := BucketId → UdhReferenceBucket

structure UdhReferenceLease where
  bucketIds : List BucketId
  reference : UInt8
  cooldown : ℕ
  exposed : Bool
deriving DecidableEq

def UdhReferenceBucket.default : UdhReferenceBucket := ⟨.replicate 4 0, .replicate 4 0, .empty⟩

def UdhReferencePool.new : UdhReferencePool := fun _ => .default

/-! ## Addresses and buckets -/

def normalizeUdhAddress (value : String) : List UInt8 :=
  let normalized := List.replicate 21 0
  let bytes := Utf8.bytes value
  let length := min bytes.length normalized.length
  bytes.take length ++ normalized.drop length

/-- The hasher of the pool over a source and a destination. -/
abbrev UdhHash := List UInt8 → List UInt8 → UInt64

def bucketId (hash : UdhHash) (source destination : List UInt8) : BucketId :=
  ⟨(hash source destination).toNat &&& (UDH_REFERENCE_BUCKET_COUNT - 1),
    Nat.and_lt_two_pow _ (n := 12) (by decide)⟩

def bucketIds (hash : UdhHash) (srcId : String) (destinations : List String) : List BucketId :=
  let source := normalizeUdhAddress srcId
  if destinations.isEmpty then [bucketId hash source (.replicate 21 0)]
  else
    sortDedup (destinations.map fun destination =>
      bucketId hash source (normalizeUdhAddress destination))

/-! ## One bucket -/

def udhReferencePosition (reference : UInt8) : Fin 4 × UInt64 :=
  Bitmap.position reference.toNat (Nat.div_lt_of_lt_mul reference.toNat_lt)

def udhReferenceIsSet (bucket : UdhReferenceBucket) (reference : UInt8) : Bool :=
  let (word, mask) := udhReferencePosition reference
  (bucket.active[word] ||| bucket.cooling[word]) &&& mask != 0

def setUdhReference (bitmap : Vector UInt64 4) (reference : UInt8) : Vector UInt64 4 :=
  Bitmap.set bitmap (udhReferencePosition reference)

def clearUdhReference (bitmap : Vector UInt64 4) (reference : UInt8) : Vector UInt64 4 :=
  Bitmap.clear bitmap (udhReferencePosition reference)

/-- One round of the purge: take the next cooldown off the heap if it is over. -/
def purgeRound (now : ℕ) (bucket : UdhReferenceBucket) :
    UdhReferenceBucket ⊕ UdhReferenceBucket :=
  match bucket.cooldowns.peek with
  | some ⟨deadline, reference⟩ =>
    if now < deadline then .inr bucket
    else
      .inl { bucket with
        cooldowns := bucket.cooldowns.pop
        cooling := clearUdhReference bucket.cooling reference }
  | none => .inr bucket

def purgeUdhCooldowns (bucket : UdhReferenceBucket) (now : ℕ) : UdhReferenceBucket :=
  (Loop.run (purgeRound now) (bucket.cooldowns.size + 1) bucket).getD bucket

/-! ## Acquiring and releasing -/

def UdhReferencePool.update (pool : UdhReferencePool) (ids : List BucketId)
    (f : UdhReferenceBucket → UdhReferenceBucket) : UdhReferencePool :=
  fun id => if id ∈ ids then f (pool id) else pool id

/-- All buckets stay locked, so that the purge, the search and the marks are one step. -/
def tryAcquire (pool : UdhReferencePool) (bucketIds : List BucketId) (preferred : UInt8)
    (cooldown now : ℕ) : Option UdhReferenceLease × UdhReferencePool :=
  let ids := sortDedup bucketIds
  let purged := pool.update ids (purgeUdhCooldowns · now)
  let references := (List.range 256).map fun offset => preferred + .ofNat offset
  match references.find?
      fun reference => ids.all fun id => !udhReferenceIsSet (purged id) reference with
  | some reference =>
    (some { bucketIds := ids, reference, cooldown, exposed := false },
      purged.update ids fun bucket =>
        { bucket with active := setUdhReference bucket.active reference })
  | none => (none, purged)

/-- `Instant::checked_add`. -/
def checkedAddInstant (horizon now duration : ℕ) : Option ℕ :=
  if now + duration ≤ horizon then some (now + duration) else none

/-- What a release has read before it visits the buckets. -/
structure UdhRelease where
  exposed : Bool
  deadline : Option ℕ

def UdhReferenceLease.release (lease : UdhReferenceLease) (horizon now : ℕ) : UdhRelease :=
  ⟨lease.exposed, if lease.exposed then checkedAddInstant horizon now lease.cooldown else none⟩

/-- The visit of a release to one of its buckets. -/
def UdhRelease.visit (release : UdhRelease) (reference : UInt8) (bucket : UdhReferenceBucket) :
    UdhReferenceBucket :=
  let bucket := { bucket with active := clearUdhReference bucket.active reference }
  if release.exposed then
    let bucket := { bucket with cooling := setUdhReference bucket.cooling reference }
    match release.deadline with
    | some deadline => { bucket with cooldowns := bucket.cooldowns.push ⟨deadline, reference⟩ }
    | none => bucket
  else bucket

def UdhReferenceLease.markExposed (lease : UdhReferenceLease) : UdhReferenceLease :=
  { lease with exposed := true }

end CmppProtocol
