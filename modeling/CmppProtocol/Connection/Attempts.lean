import CmppProtocol.Connection.Types
import CmppProtocol.Library.Compaction

/-! # Operations on the pending SUBMITs

Each operation runs under one write lock. Claiming a batch and matching a batch
of responses compact their list in place; both are sweeps of a one-frame
operation.
-/

namespace CmppProtocol

abbrev PendingSubmits := OrderedMap ℕ PendingSubmit

/-- Another state for an entry that is there. -/
def setState (pending : PendingSubmits) (sequenceId : ℕ) (entry : PendingSubmit)
    (state : SubmitAttemptState) : PendingSubmits :=
  pending.set sequenceId { entry with state }

/-! ## Claiming -/

/-- Claim one attempt: the entry must still be queued with this very key. -/
def claimSubmitAttempt (allowed : Bool) (pending : PendingSubmits) (key : SubmitAttemptKey) :
    Bool × PendingSubmits :=
  match allowed, pending.find key.sequenceId with
  | true, some entry =>
    if entry.submissionId ≠ key.submissionId then (false, pending)
    else
      match entry.state with
      | .queued attempt =>
        if attempt = key.attempt then
          (true, setState pending key.sequenceId entry (.writing key.attempt))
        else (false, pending)
      | _ => (false, pending)
  | _, _ => (false, pending)

/-- Frames that are no SUBMITs stay in the batch as they are. -/
def claimFrame (allowed : Bool) (pending : PendingSubmits) (outbound : Outbound) :
    Bool × PendingSubmits :=
  match outbound.submitAttempt with
  | some key => claimSubmitAttempt allowed pending key
  | none => (true, pending)

def claimSubmitAttempts (allowed : Bool) (pending : PendingSubmits) (batch : List Outbound) :
    PendingSubmits × List Outbound :=
  if batch.all fun outbound => outbound.submitAttempt.isNone then (pending, batch)
  else Compaction.run (claimFrame allowed) (fun _ => .plain []) pending batch

/-! ## Completing -/

def completeSubmitAttempt (writtenAt : ℕ) (pending : PendingSubmits) (key : SubmitAttemptKey) :
    PendingSubmits :=
  match pending.find key.sequenceId with
  | some entry =>
    if entry.submissionId ≠ key.submissionId then pending
    else
      match entry.state with
      | .writing attempt =>
        if attempt = key.attempt then
          setState pending key.sequenceId entry (.awaitingResponse key.attempt writtenAt)
        else pending
      | .respondedWhileWriting attempt =>
        if attempt = key.attempt then pending.erase key.sequenceId else pending
      | _ => pending
  | none => pending

def completeSubmitAttempts (writtenAt : ℕ) (pending : PendingSubmits)
    (keys : List SubmitAttemptKey) : PendingSubmits :=
  keys.foldl (completeSubmitAttempt writtenAt) pending

/-! ## Matching responses -/

structure SubmitResponse where
  sequenceId : ℕ
  msgId : Vector UInt8 8
  result : UInt8
  deriving DecidableEq, Repr

/-- Match one response; a second one for the same entry is not handled. -/
def matchSubmitResp (pending : PendingSubmits) (response : SubmitResponse) :
    Bool × PendingSubmits :=
  match pending.find response.sequenceId with
  | some entry =>
    match entry.state with
    | .writing attempt =>
      (true, setState pending response.sequenceId entry (.respondedWhileWriting attempt))
    | .respondedWhileWriting _ => (false, pending)
    | .queued _ => (true, pending.erase response.sequenceId)
    | .awaitingResponse _ _ => (true, pending.erase response.sequenceId)
  | none => (false, pending)

def matchSubmitResps (pending : PendingSubmits) (responses : List SubmitResponse) :
    PendingSubmits × List SubmitResponse :=
  Compaction.run matchSubmitResp id pending responses

/-! ## Expiry -/

/-- The attempts whose response is overdue at the reading, the oldest first. -/
def expiredSubmits (pending : PendingSubmits) (now timeout limit : ℕ) : List SubmitAttemptKey :=
  let expired := pending.entries.filterMap fun (sequenceId, entry) =>
    match entry.state with
    | .awaitingResponse attempt writtenAt =>
      if timeout ≤ now - writtenAt then
        some (writtenAt, (⟨sequenceId, entry.submissionId, attempt⟩ : SubmitAttemptKey))
      else none
    | _ => none
  ((expired.mergeSort fun a b => decide (a.1 ≤ b.1)).take limit).map Prod.snd

/-- The entry still waits for the response to this attempt. -/
def stillAwaiting (pending : PendingSubmits) (key : SubmitAttemptKey) : Option PendingSubmit :=
  match pending.find key.sequenceId with
  | some entry =>
    match entry.state with
    | .awaitingResponse attempt _ =>
      if entry.submissionId = key.submissionId ∧ attempt = key.attempt then some entry else none
    | _ => none
  | none => none

/-! ## Draining -/

/-- The ids whose terminal event the cleanup owes. -/
def unresponded (pending : PendingSubmits) : List ℕ :=
  pending.entries.filterMap fun (sequenceId, entry) =>
    match entry.state with
    | .respondedWhileWriting _ => none
    | _ => some sequenceId

end CmppProtocol
