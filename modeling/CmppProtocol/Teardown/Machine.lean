import CmppProtocol.Events.Spool

/-! # The end of a connection

Any number of calls of `finish` and of `begin_closing`, the submissions and
heartbeats that are let in, and the cleanups. A call of `finish` resolves its
reason, takes the lock of the terminal reason and under it the admission lock;
the stores and the cleanup of the winner come after both. The stage of a section
is kept with its lock.
-/

namespace CmppProtocol

/-- A call of `finish` outside the lock of the terminal reason. -/
inductive FinishStage
  | called (reason : Option Error)
  | unterminated (reason : Option Error)
  | resolved (reason : Option Error)
  | locked
  | won
  | cleared
  | ended
  deriving DecidableEq, Repr

inductive ReasonStage
  | stored
  | admitted
  | swapped
  | published
  | released
  deriving DecidableEq, Repr

/-- The call of `finish` that holds the lock of the terminal reason. -/
structure ReasonHolder where
  call : ℕ
  reason : Option Error
  stage : ReasonStage
  deriving DecidableEq, Repr

inductive ClosingStage
  | entered
  | flagged
  | swapped
  | published
  deriving DecidableEq, Repr

/-- Who holds the admission lock of submissions. -/
inductive AdmissionOwner
  | closing (drainSubmits : Bool) (stage : ClosingStage)
  | finish
  | submit
  | heartbeat
  | claim
  deriving DecidableEq, Repr

/-- The calls that won, the cleanups that `finish` spawned and the reasons taken for the last item
are logs. The window and the flag of the closed phase are those of the spool. -/
structure Teardown (eventSpoolCapacity capacity : ℕ) where
  spool : EventSpool eventSpoolCapacity capacity
  phase : ConnectionPhase
  phaseTx : ConnectionPhase
  drainSubmitsOnClose : Bool
  peerTerminateSeen : Bool
  terminalReason : Option Error
  reasonLock : Option ReasonHolder
  submitAdmission : Option AdmissionOwner
  finishes : List FinishStage
  heartbeatPending : List ℕ
  swept : List ℕ
  winners : List (ℕ × Option Error)
  spawned : List ℕ
  created : List (Option Error)

inductive TeardownStep
  | peerTerminate
  | beginClosing (drainSubmits : Bool)
  | closing
  | clearDrain
  | lockSubmit
  | insertSubmit (sequenceId : ℕ)
  | lockHeartbeat
  | insertHeartbeat (sequenceId : ℕ)
  | lockClaim
  | leave
  | settleSubmit (sequenceId : ℕ)
  | settleHeartbeat (sequenceId : ℕ)
  | finish (reason : Option Error)
  | resolve (call : ℕ)
  | lockReason (call : ℕ)
  | underReason
  | afterWin (call : ℕ)
  | fallback
  | sweep (index : ℕ)
  | cleanup (index : ℕ) (event : TeardownEvent)
  | takeReason
  | spool (event : SpoolEvent)

namespace Teardown

variable {eventSpoolCapacity capacity : ℕ}

def initial (eventSpoolCapacity capacity : ℕ) : Teardown eventSpoolCapacity capacity where
  spool := .initial _ _
  phase := .opened
  phaseTx := .opened
  drainSubmitsOnClose := false
  peerTerminateSeen := false
  terminalReason := none
  reasonLock := none
  submitAdmission := none
  finishes := []
  heartbeatPending := []
  swept := []
  winners := []
  spawned := []
  created := []

variable (s : Teardown eventSpoolCapacity capacity)

def setFinish (call : ℕ) (stage : FinishStage) : Teardown eventSpoolCapacity capacity :=
  { s with finishes := s.finishes.set call stage }

/-! ## Closing -/

/-- `begin_closing` up to its check. -/
def beginClosing (drainSubmits : Bool) : Teardown eventSpoolCapacity capacity :=
  match s.phase with
  | .opened => { s with submitAdmission := some (.closing drainSubmits .entered) }
  | .closing => if drainSubmits then s else { s with drainSubmitsOnClose := false }
  | .closed => s

/-- The next store of the call of `begin_closing` that holds the lock. -/
def closingNext : Option (Teardown eventSpoolCapacity capacity) :=
  match s.submitAdmission with
  | some (.closing drainSubmits .entered) =>
    some { s with
      drainSubmitsOnClose := drainSubmits
      submitAdmission := some (.closing drainSubmits .flagged) }
  | some (.closing drainSubmits .flagged) =>
    some { s with phase := .closing, submitAdmission := some (.closing drainSubmits .swapped) }
  | some (.closing drainSubmits .swapped) =>
    some { s with
      phaseTx := if s.phaseTx = .opened then .closing else s.phaseTx
      submitAdmission := some (.closing drainSubmits .published) }
  | some (.closing _ .published) => some { s with submitAdmission := none }
  | _ => none

/-! ## Admissions -/

/-- A section that checks the phase under the admission lock. -/
def lockAdmission (owner : AdmissionOwner) : Option (Teardown eventSpoolCapacity capacity) :=
  if s.submitAdmission = none then
    some (if s.phase = .opened then { s with submitAdmission := some owner } else s)
  else none

def insertSubmit (sequenceId : ℕ) : Option (Teardown eventSpoolCapacity capacity) :=
  if s.submitAdmission = some .submit then
    some { s with
      spool := { s.spool with pending := s.spool.pending ++ [sequenceId] }
      submitAdmission := none }
  else none

def insertHeartbeat (sequenceId : ℕ) : Option (Teardown eventSpoolCapacity capacity) :=
  if s.submitAdmission = some .heartbeat then
    some { s with heartbeatPending := s.heartbeatPending ++ [sequenceId], submitAdmission := none }
  else none

/-- The section ends without an insertion. -/
def leave : Option (Teardown eventSpoolCapacity capacity) :=
  match s.submitAdmission with
  | some .submit | some .heartbeat | some .claim => some { s with submitAdmission := none }
  | _ => none

/-! ## Finishing -/

/-- The two flags that come before the caller's reason. -/
def resolve (call : ℕ) : Option (Teardown eventSpoolCapacity capacity) :=
  match s.finishes[call]? with
  | some (.called reason) =>
    some (s.setFinish call
      (if s.peerTerminateSeen then .resolved (some .terminated) else .unterminated reason))
  | some (.unterminated reason) =>
    some (s.setFinish call
      (.resolved (if s.spool.eventOverflowed then some .channelClosed else reason)))
  | _ => none

/-- The lock of the terminal reason, and the check under it. -/
def lockReason (call : ℕ) : Option (Teardown eventSpoolCapacity capacity) :=
  match s.finishes[call]? with
  | some (.resolved reason) =>
    if s.reasonLock = none then
      some (if s.phase = .closed then s.setFinish call .ended
        else { s.setFinish call .locked with
          terminalReason := reason
          reasonLock := some ⟨call, reason, .stored⟩ })
    else none
  | _ => none

/-- `transition_to_closed` and the release of the locks. -/
def underReasonNext : Option (Teardown eventSpoolCapacity capacity) :=
  match s.reasonLock with
  | some ⟨call, reason, .stored⟩ =>
    if s.submitAdmission = none then
      some { s with submitAdmission := some .finish, reasonLock := some ⟨call, reason, .admitted⟩ }
    else none
  | some ⟨call, reason, .admitted⟩ =>
    some (if s.phase = .closed then
        { s.setFinish call .ended with submitAdmission := none, reasonLock := none }
      else { s with
        phase := .closed
        spool := { s.spool with closed := true }
        winners := s.winners ++ [(call, reason)]
        reasonLock := some ⟨call, reason, .swapped⟩ })
  | some ⟨call, reason, .swapped⟩ =>
    some { s with phaseTx := .closed, reasonLock := some ⟨call, reason, .published⟩ }
  | some ⟨call, reason, .published⟩ =>
    some { s with submitAdmission := none, reasonLock := some ⟨call, reason, .released⟩ }
  | some ⟨call, _, .released⟩ => some { s.setFinish call .won with reasonLock := none }
  | none => none

/-- What the winner does after its locks: the drain flag and the cleanup. -/
def afterWin (call : ℕ) : Option (Teardown eventSpoolCapacity capacity) :=
  match s.finishes[call]? with
  | some .won => some { s.setFinish call .cleared with drainSubmitsOnClose := false }
  | some .cleared =>
    some { s.setFinish call .ended with
      spool := { s.spool with cleanups := s.spool.cleanups ++ [.starting] }
      spawned := s.spawned ++ [call] }
  | _ => none

/-- A cleanup clears the heartbeats before it closes the spool. -/
def cleanupNext (index : ℕ) (event : TeardownEvent) :
    Option (Teardown eventSpoolCapacity capacity) :=
  if event = .closeSpool ∧ index ∉ s.swept then none
  else (s.spool.cleanupNext index event).map fun spool => { s with spool }

def sweep (index : ℕ) : Option (Teardown eventSpoolCapacity capacity) :=
  if s.spool.cleanups[index]? = some (.sending []) then
    some { s with heartbeatPending := [], swept := s.swept ++ [index] }
  else none

/-- `close_event_spool` behind its lock takes the reason. -/
def takeReason : Option (Teardown eventSpoolCapacity capacity) :=
  if s.spool.terminal = .locked ∧ s.reasonLock = none then
    some { s with
      spool := { s.spool.raiseDepth 1 with terminal := .sending s.terminalReason }
      terminalReason := none
      created := s.created ++ [s.terminalReason] }
  else none

def next : TeardownStep → Option (Teardown eventSpoolCapacity capacity)
  | .peerTerminate => some { s with peerTerminateSeen := true }
  | .beginClosing drainSubmits =>
    if s.submitAdmission = none then some (s.beginClosing drainSubmits) else none
  | .closing => s.closingNext
  | .clearDrain => some { s with drainSubmitsOnClose := false }
  | .lockSubmit => s.lockAdmission .submit
  | .insertSubmit sequenceId => s.insertSubmit sequenceId
  | .lockHeartbeat => s.lockAdmission .heartbeat
  | .insertHeartbeat sequenceId => s.insertHeartbeat sequenceId
  | .lockClaim =>
    if s.submitAdmission = none then some { s with submitAdmission := some .claim } else none
  | .leave => s.leave
  | .settleSubmit sequenceId =>
    some { s with spool := { s.spool with pending := s.spool.pending.erase sequenceId } }
  | .settleHeartbeat sequenceId =>
    some { s with heartbeatPending := s.heartbeatPending.erase sequenceId }
  | .finish reason => some { s with finishes := s.finishes ++ [.called reason] }
  | .resolve call => s.resolve call
  | .lockReason call => s.lockReason call
  | .underReason => s.underReasonNext
  | .afterWin call => s.afterWin call
  | .fallback =>
    if s.phaseTx = .closed then
      some { s with spool := { s.spool with cleanups := s.spool.cleanups ++ [.starting] } }
    else none
  | .sweep index => s.sweep index
  | .cleanup index event => s.cleanupNext index event
  | .takeReason => s.takeReason
  | .spool event =>
    if event.isShared then (s.spool.next event).map fun spool => { s with spool } else none

def machine (eventSpoolCapacity capacity : ℕ) :
    Machine (Teardown eventSpoolCapacity capacity) TeardownStep :=
  .ofNext (initial eventSpoolCapacity capacity) next

end Teardown

end CmppProtocol
