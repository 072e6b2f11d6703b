import CmppProtocol.Connection.Attempts
import CmppProtocol.Library.Machine

/-! # Who ends a connection

Any number of calls of `close` elect one driver; a call that has waited too long
elects a takeover in its own runtime. Driver and takeover end in the reaper, and
each of them may be lost together with the runtime that it runs in. The workers
count down, and the last handle calls `finish`, which is one step here.
-/

namespace CmppProtocol

/-- A worker behind its decrement is `signalling` if it was the last one. -/
inductive WorkerStage
  | running
  | signalling
  | ended
  deriving DecidableEq, Repr

structure BackgroundTask where
  stage : WorkerStage
  aborted : Bool
  deriving DecidableEq, Repr

/-- A call of `close`. It is `elected` from its exchange of the flag to `begin_closing`. -/
inductive CloseStage
  | entered
  | elected
  | closing (graceful : Bool)
  | waiting
  | checking
  | electing
  | takingOver
  | waitingAgain
  | returned
  | cancelled
  deriving DecidableEq, Repr

/-- Where a driver or a takeover stands: `graceful_close_task` and the takeover end at
`awaitingClosed`, where `reap_background_tasks` begins. -/
inductive ReapStage
  | submitting
  | terminating
  | exhausted
  | sealing
  | finishing
  | forgetting
  | awaitingClosed
  | forcing
  | aborting
  | awaitingWorkers
  | collecting
  | awaitingCleanup
  | cleaning
  | completing
  | releasing
  | ended
  | lost
  deriving DecidableEq, Repr

structure CloseTask where
  takeover : Bool
  stage : ReapStage
  deriving DecidableEq, Repr

/-- The cleanup that `finish` spawns. -/
inductive CleanupTask
  | idle
  | running
  | ended
  deriving DecidableEq, Repr

/-- The handles that are alive are a log. A last drop has still to call `finish`. -/
structure Shutdown where
  phase : ConnectionPhase
  handles : ℕ
  externalHandles : ℕ
  lastDrops : ℕ
  closeDriverStarted : Bool
  takeoverStarted : Bool
  closeComplete : Bool
  cleanupComplete : Bool
  workersComplete : Bool
  workersRemaining : ℕ
  workers : List BackgroundTask
  backgroundTasks : List ℕ
  cleanup : CleanupTask
  calls : List CloseStage
  tasks : List CloseTask
  deriving DecidableEq, Repr

/-- What comes first at a point where a task waits. -/
inductive TaskEvent
  | advance
  | timeout
  | sequenceExhausted
  | lose
  deriving DecidableEq, Repr

inductive ShutdownEvent
  | clone
  | drop
  | finishDrop
  | finish
  | beginClosing
  | worker (index : ℕ)
  | spawnCleanup
  | cleanup
  | loseCleanup
  | close
  | call (index : ℕ)
  | callTimeout (index : ℕ)
  | cancel (index : ℕ)
  | task (index : ℕ) (event : TaskEvent)
  deriving DecidableEq, Repr

namespace Shutdown

/-- The workers are the writer, the reader, the heartbeat and the timeout task. -/
def initial : Shutdown where
  phase := .opened
  handles := 1
  externalHandles := 1
  lastDrops := 0
  closeDriverStarted := false
  takeoverStarted := false
  closeComplete := false
  cleanupComplete := false
  workersComplete := false
  workersRemaining := 4
  workers := List.replicate 4 ⟨.running, false⟩
  backgroundTasks := List.range 4
  cleanup := .idle
  calls := []
  tasks := []

variable (s : Shutdown)

def setCall (index : ℕ) (stage : CloseStage) : Shutdown :=
  { s with calls := s.calls.set index stage }

def setTask (index : ℕ) (task : CloseTask) : Shutdown :=
  { s with tasks := s.tasks.set index task }

def setWorker (index : ℕ) (worker : BackgroundTask) : Shutdown :=
  { s with workers := s.workers.set index worker }

def finish : Shutdown := { s with phase := .closed }

/-! ## Handles -/

def drop : Shutdown :=
  { s with
    handles := s.handles - 1
    externalHandles := s.externalHandles - 1
    lastDrops := s.lastDrops + if s.externalHandles = 1 then 1 else 0 }

/-! ## Workers -/

/-- The future of a worker is gone, and its `WorkerGuard` with it. -/
def workerNext (index : ℕ) : Option Shutdown :=
  match s.workers[index]? with
  | some ⟨.running, aborted⟩ =>
    some { s.setWorker index
        ⟨if s.workersRemaining = 1 then .signalling else .ended, aborted⟩ with
      workersRemaining := s.workersRemaining - 1 }
  | some ⟨.signalling, aborted⟩ =>
    some { s.setWorker index ⟨.ended, aborted⟩ with workersComplete := true }
  | _ => none

/-- The handles that are still kept are aborted. -/
def abortWorkers : Shutdown :=
  { s with workers := s.workers.mapIdx fun index worker =>
      { worker with aborted := worker.aborted || s.backgroundTasks.contains index } }

/-! ## Calls of close -/

def callNext (index : ℕ) : Option Shutdown :=
  match s.calls[index]? with
  | some .entered =>
    some (if s.closeDriverStarted then s.setCall index .waiting
      else { s.setCall index .elected with closeDriverStarted := true })
  | some .elected =>
    -- `begin_closing(true)`.
    some (if s.phase = .opened then { s.setCall index (.closing true) with phase := .closing }
      else s.setCall index (.closing false))
  | some (.closing graceful) =>
    some { s.setCall index .waiting with
      tasks := s.tasks ++ [⟨false, if graceful then .submitting else .awaitingClosed⟩] }
  | some .waiting | some .waitingAgain =>
    if s.closeComplete then some (s.setCall index .returned) else none
  | some .checking =>
    some (s.setCall index (if s.closeComplete then .returned else .electing))
  | some .electing =>
    some (if s.takeoverStarted then s.setCall index .waitingAgain
      else { s.setCall index .takingOver with takeoverStarted := true })
  | some .takingOver =>
    some { s.setCall index .waitingAgain with tasks := s.tasks ++ [⟨true, .sealing⟩] }
  | _ => none

def callTimeout (index : ℕ) : Option Shutdown :=
  match s.calls[index]? with
  | some .waiting | some .waitingAgain => some (s.setCall index .checking)
  | _ => none

/-- A future of `close` is dropped at one of its awaits. -/
def cancel (index : ℕ) : Option Shutdown :=
  match s.calls[index]? with
  | some .waiting | some .waitingAgain => some (s.setCall index .cancelled)
  | _ => none

/-! ## Drivers and takeovers -/

/-- The `TakeoverGuard` goes with the future of a takeover, also when that is dropped. -/
def dropGuard (takeover : Bool) : Shutdown :=
  { s with takeoverStarted := s.takeoverStarted && !takeover }

def taskNext (index : ℕ) (event : TaskEvent) : Option Shutdown :=
  match s.tasks[index]? with
  | some ⟨takeover, stage⟩ =>
    let move (s : Shutdown) (stage : ReapStage) := some (s.setTask index ⟨takeover, stage⟩)
    match stage, event with
    | .ended, _ | .lost, _ => none
    | _, .lose => move (s.dropGuard takeover) .lost
    -- However the wait ends, the driver goes on.
    | .submitting, .advance => move s .terminating
    | .submitting, .sequenceExhausted => move s .exhausted
    | .terminating, .advance => move s .sealing
    | .exhausted, .advance => move s.finish .awaitingClosed
    | .sealing, .advance => move s .finishing
    | .finishing, .advance => move s.finish (if takeover then .awaitingClosed else .forgetting)
    | .forgetting, .advance => move s .awaitingClosed
    | .awaitingClosed, .advance => if s.phase = .closed then move s .aborting else none
    | .awaitingClosed, .timeout => move s .forcing
    | .forcing, .advance => move s.finish .aborting
    | .aborting, .advance => move s.abortWorkers .awaitingWorkers
    | .awaitingWorkers, .advance => if s.workersComplete then move s .collecting else none
    | .awaitingWorkers, .timeout => move s .awaitingCleanup
    | .collecting, .advance => move { s with backgroundTasks := [] } .awaitingCleanup
    | .awaitingCleanup, .advance => if s.cleanupComplete then move s .completing else none
    | .awaitingCleanup, .timeout => move s .cleaning
    | .cleaning, .advance => move { s with cleanupComplete := true } .completing
    | .cleaning, .timeout => move s .completing
    | .completing, .advance =>
      move { s with closeComplete := true } (if takeover then .releasing else .ended)
    | .releasing, .advance => move (s.dropGuard takeover) .ended
    | _, _ => none
  | none => none

def next : ShutdownEvent → Option Shutdown
  | .clone =>
    if 0 < s.handles then
      some { s with handles := s.handles + 1, externalHandles := s.externalHandles + 1 }
    else none
  | .drop => if 0 < s.handles then some s.drop else none
  | .finishDrop =>
    if 0 < s.lastDrops then some { s.finish with lastDrops := s.lastDrops - 1 } else none
  | .finish => some s.finish
  | .beginClosing => some (if s.phase = .opened then { s with phase := .closing } else s)
  | .worker index => s.workerNext index
  | .spawnCleanup =>
    if s.phase = .closed ∧ s.cleanup = .idle then some { s with cleanup := .running } else none
  | .cleanup =>
    if s.cleanup = .running then some { s with cleanup := .ended, cleanupComplete := true }
    else none
  | .loseCleanup => if s.cleanup = .running then some { s with cleanup := .ended } else none
  | .close => if 0 < s.handles then some { s with calls := s.calls ++ [.entered] } else none
  | .call index => s.callNext index
  | .callTimeout index => s.callTimeout index
  | .cancel index => s.cancel index
  | .task index event => s.taskNext index event

def machine : Machine Shutdown ShutdownEvent := .ofNext initial next

end Shutdown

end CmppProtocol
