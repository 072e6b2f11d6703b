import CmppProtocol.Library.IntervalTable
import CmppProtocol.Library.Loop
import Mathlib.Data.Finset.Card

/-! # The sequence registry

Sequence ids are handed out by an automatic cursor or reserved by the caller in
batches. Used manual ids are kept as closed ranges; the automatic cursor blocks
everything it has passed. Ids are `u32` values, written as natural numbers.
-/

namespace CmppProtocol

def u32Max : ℕ := 4294967295

/-- `u32::checked_add(1)`. -/
def checkedSucc (x : ℕ) : Option ℕ := if x < u32Max then some (x + 1) else none

/-- `u32::wrapping_add`. -/
def wrappingAdd (x y : ℕ) : ℕ := (x + y) % (u32Max + 1)

theorem checkedSucc_eq_some {x y : ℕ} : checkedSucc x = some y ↔ x < u32Max ∧ y = x + 1 := by
  unfold checkedSucc
  split_ifs with h <;> simp [h, eq_comm]

def MAX_RETIRED_SEQUENCE_RANGES : ℕ := 65536

structure SequenceState where
  nextAutomatic : Option ℕ
  automaticStart : ℕ
  automaticUsedThrough : Option ℕ
  reserved : Finset ℕ
  /-- Used manual ids as disjoint closed ranges, left end to right end. -/
  retired : OrderedMap ℕ ℕ

structure SequenceLease where
  sequenceId : ℕ
  manual : Bool
  releaseOnDrop : Bool
  deriving DecidableEq, Repr

def retiredSequenceContains (retired : OrderedMap ℕ ℕ) (sequenceId : ℕ) : Bool :=
  match retired.floor sequenceId with
  | some (_, stop) => sequenceId ≤ stop
  | none => false

/-- Insert an id that is not contained, joining it with its neighbours. The flag
is false when the table is full. -/
def insertRetiredSequence (retired : OrderedMap ℕ ℕ) (sequenceId : ℕ) :
    Bool × OrderedMap ℕ ℕ :=
  let previous := retired.floor sequenceId
  let next := retired.ceil sequenceId
  let joinsPrevious := previous.filter fun r => checkedSucc r.2 = some sequenceId
  let joinsNext := next.filter fun r => checkedSucc sequenceId = some r.1
  match joinsPrevious, joinsNext with
  | some (previousStart, _), some (nextStart, nextEnd) =>
    (true, (retired.set previousStart nextEnd).erase nextStart)
  | some (previousStart, _), none => (true, retired.set previousStart sequenceId)
  | none, some (nextStart, nextEnd) =>
    (true, (retired.erase nextStart).insert sequenceId nextEnd)
  | none, none =>
    if MAX_RETIRED_SEQUENCE_RANGES ≤ retired.size then (false, retired)
    else (true, retired.insert sequenceId sequenceId)

namespace SequenceState

def new (next : UInt32) : SequenceState where
  nextAutomatic := some (max next.toNat 1)
  automaticStart := max next.toNat 1
  automaticUsedThrough := none
  reserved := ∅
  retired := .empty

/-- The id lies between the automatic start and the last id the cursor has passed. -/
def inAutomaticPrefix (s : SequenceState) (sequenceId : ℕ) : Bool :=
  match s.automaticUsedThrough with
  | some usedThrough => s.automaticStart ≤ sequenceId && sequenceId ≤ usedThrough
  | none => false

/-- One round of the loop in `reserve_next`. -/
def reserveNextRound (s : SequenceState) : SequenceState ⊕ (Option ℕ × SequenceState) :=
  match s.nextAutomatic with
  | none => .inr (none, s)
  | some sequenceId =>
    match (s.retired.floor sequenceId).filter fun r => sequenceId ≤ r.2 with
    | some (start, stop) =>
      let retired := s.retired.erase start
      .inl { s with
        automaticUsedThrough := some stop
        nextAutomatic := checkedSucc stop
        -- A wrapped manual batch can join ids below the automatic start to the
        -- automatic range; only the part above it is swallowed.
        retired :=
          if start < s.automaticStart then retired.insert start (s.automaticStart - 1)
          else retired }
    | none =>
      let s := { s with
        automaticUsedThrough := some sequenceId
        nextAutomatic := checkedSucc sequenceId }
      if sequenceId ∈ s.reserved then .inl s
      else .inr (some sequenceId, { s with reserved := insert sequenceId s.reserved })

/-- `reserve_next` returns the id (if any) and leaves the registry in the given state. -/
def ReserveNext (s : SequenceState) (id : Option ℕ) (s' : SequenceState) : Prop :=
  Loop.Returns reserveNextRound s (id, s')

/-- `reserve_next` with as many rounds as there are reservations and ranges, and one more. -/
def reserveNext (s : SequenceState) : Option ℕ × SequenceState :=
  (Loop.run reserveNextRound (s.reserved.card + s.retired.size + 1) s).getD (none, s)

def batchIds (base : UInt32) (count : ℕ) : List ℕ :=
  (List.range count).map fun index => wrappingAdd base.toNat index

def reserveBatch (s : SequenceState) (base : UInt32) (count : ℕ) :
    Option (List SequenceLease) × SequenceState :=
  if 255 < count then (none, s)
  else
    let ids := batchIds base count
    if ¬ ids.Nodup then (none, s)
    else if ids.any fun id =>
        s.inAutomaticPrefix id || decide (id ∈ s.reserved) || retiredSequenceContains s.retired id
      then (none, s)
    else
      (some (ids.map fun id => ⟨id, true, true⟩),
        { s with reserved := s.reserved ∪ ids.toFinset })

def release (s : SequenceState) (sequenceId : ℕ) : SequenceState :=
  { s with reserved := s.reserved.erase sequenceId }

def retire (s : SequenceState) (sequenceId : ℕ) : Bool × SequenceState :=
  if s.inAutomaticPrefix sequenceId then (true, s.release sequenceId)
  else if retiredSequenceContains s.retired sequenceId then (true, s.release sequenceId)
  else
    match insertRetiredSequence s.retired sequenceId with
    | (false, _) => (false, s)
    | (true, retired) => (true, { s with retired := retired }.release sequenceId)

end SequenceState

namespace SequenceLease

/-- The lease gives up its id when dropped unless it was retired. -/
def drop (l : SequenceLease) (s : SequenceState) : SequenceState :=
  if l.releaseOnDrop then s.release l.sequenceId else s

/-- Retiring a lease stops it from releasing its id, also when the table is full. -/
def retire (l : SequenceLease) (s : SequenceState) : Bool × SequenceLease × SequenceState :=
  let (ok, s) := s.retire l.sequenceId
  (ok, { l with releaseOnDrop := false }, s)

end SequenceLease

end CmppProtocol
