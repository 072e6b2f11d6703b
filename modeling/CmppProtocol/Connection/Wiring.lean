import CmppProtocol.Connection.Balance
import CmppProtocol.Connection.Lives

/-! # Frames on their way

What the queues, the writer and the batch may carry, and at which stage. From it
a connection is seen as a window: the frames that the writer has taken up, the
drain marker and the queue form the line.
-/

namespace CmppProtocol

namespace Outbound

def IsSubmit (outbound : Outbound) : Prop := ∃ packet key, outbound = .submit packet key

/-- A frame of the control queue: no SUBMIT and no drain marker. -/
structure IsControl (outbound : Outbound) : Prop where
  submitAttempt : outbound.submitAttempt = none
  submitDrainMarker : outbound.submitDrainMarker = false
  writtenTx : outbound.writtenTx ≠ some .drainMarker

def IsFrame (outbound : Outbound) : Prop := outbound.IsSubmit ∨ outbound.IsControl

def IsQueued (outbound : Outbound) : Prop := outbound.IsSubmit ∨ outbound = .drainMarker

variable {outbound : Outbound}

theorem IsFrame.submitDrainMarker (h : outbound.IsFrame) : outbound.submitDrainMarker = false := by
  rcases h with ⟨packet, key, rfl⟩ | h
  · rfl
  · exact h.submitDrainMarker

theorem IsFrame.writtenTx (h : outbound.IsFrame) : outbound.writtenTx ≠ some .drainMarker := by
  rcases h with ⟨packet, key, rfl⟩ | h
  · exact fun h => by cases h
  · exact h.writtenTx

/-- A frame stands in the line if it is a SUBMIT. -/
theorem IsFrame.standsInLine (h : outbound.IsFrame) :
    outbound.standsInLine = outbound.isSubmit := by
  rw [Outbound.standsInLine, h.submitDrainMarker, Bool.or_false]
  rfl

theorem IsQueued.isSubmit (h : outbound.IsQueued) (hmarker : outbound.submitDrainMarker = false) :
    outbound.IsSubmit := by
  rcases h with h | rfl
  · exact h
  · cases hmarker

theorem IsControl.not_isSubmit (h : outbound.IsControl) : outbound.isSubmit = false := by
  rw [isSubmit, h.submitAttempt]
  rfl

theorem IsControl.not_standsInLine (h : outbound.IsControl) : outbound.standsInLine = false := by
  rw [standsInLine, h.submitAttempt, h.submitDrainMarker]
  rfl

theorem isControl_plain (packet : List UInt8) : (plain packet).IsControl :=
  ⟨rfl, rfl, fun h => by cases h⟩

theorem isControl_afterWrite (packet : List UInt8) (startedAt ticket : ℕ) (event : Event) :
    (afterWrite packet startedAt ticket event).IsControl :=
  ⟨rfl, rfl, fun h => by cases h⟩

theorem isControl_heartbeat (packet : List UInt8) (key : HeartbeatAttemptKey) :
    (heartbeat packet key).IsControl :=
  ⟨rfl, rfl, fun h => by cases h⟩

theorem isControl_localTerminate (packet : List UInt8) : (localTerminate packet).IsControl :=
  ⟨rfl, rfl, fun h => by cases h⟩

theorem isControl_peerTerminateResponse (packet : List UInt8) :
    (peerTerminateResponse packet).IsControl :=
  ⟨rfl, rfl, fun h => by cases h⟩

end Outbound

/-- The batch has been claimed and not been completed. -/
def BatchStatus.holding : BatchStatus → Bool
  | .claimed | .handed | .written _ => true
  | _ => false

namespace WriterStage

/-- The frame that the writer has taken from a queue and not put into the batch. -/
def hand : WriterStage → Option Outbound
  | .received outbound _ => some outbound
  | .screened outbound => some outbound
  | .admitted outbound => some outbound
  | _ => none

@[simp] theorem hand_received (outbound : Outbound) (isSubmit : Bool) :
    (received outbound isSubmit).hand = some outbound := rfl

@[simp] theorem hand_screened (outbound : Outbound) :
    (screened outbound).hand = some outbound := rfl

@[simp] theorem hand_admitted (outbound : Outbound) :
    (admitted outbound).hand = some outbound := rfl

end WriterStage

namespace Writer

/-- What the writer carries at its stage. -/
def Staged (writer : Writer) : Prop :=
  match writer.stage with
  | .top | .selecting _ | .selectingSecond _ =>
    writer.status = .collecting ∧ writer.batch = [] ∧ writer.pendingMarker = none
  | .received outbound isSubmit =>
    writer.status = .collecting ∧ writer.pendingMarker = none ∧
      (isSubmit = true → outbound.IsQueued) ∧ (isSubmit = false → outbound.IsControl)
  | .screened outbound | .admitted outbound =>
    writer.status = .collecting ∧ writer.pendingMarker = none ∧ outbound.IsFrame
  | .harvesting | .picking _ | .pickingSecond _ =>
    writer.status = .collecting ∧ writer.pendingMarker = none
  | .assembled => writer.status = .collecting
  | .claimed => writer.status = .claimed
  | .writing => writer.status = .handed
  | .wrote => ∃ writtenAt, writer.status = .written writtenAt
  | .publishing rest =>
    (∃ writtenAt, writer.status = .completed writtenAt) ∧ ∀ o ∈ rest, o.IsFrame
  | .signalling writtenTx rest =>
    (∃ writtenAt, writer.status = .completed writtenAt) ∧ writtenTx ≠ some .drainMarker ∧
      ∀ o ∈ rest, o.IsFrame
  | .answering | .signallingMarker =>
    writer.status = .collecting ∧ writer.batch = [] ∧ writer.pendingMarker = some .drainMarker
  | .failing | .stopped => True

structure Wired (writer : Writer) : Prop where
  batch : ∀ o ∈ writer.batch, o.IsFrame
  marker : ∀ o, writer.pendingMarker = some o → o = .drainMarker
  stage : writer.Staged

/-- SUBMITs and the marker that the writer has taken up and not claimed. -/
def taken (writer : Writer) : List Outbound :=
  (if writer.status = .collecting then writer.batch.filter Outbound.isSubmit else []) ++
    (writer.stage.hand.toList.filter Outbound.standsInLine ++ writer.pendingMarker.toList)

def held (writer : Writer) : List Outbound :=
  if writer.status.holding then writer.batch.filter Outbound.isSubmit else []

end Writer

namespace TimeoutStage

/-- The reading of the clock that the scan works with. -/
def now : TimeoutStage → ℕ
  | .ticked now => now
  | .heartbeatExpired now _ => now
  | .heartbeatSlot now _ => now
  | .heartbeatChecked now => now
  | .expired now _ => now
  | .retrySlot now _ _ => now
  | _ => 0

def keys : TimeoutStage → List SubmitAttemptKey
  | .expired _ keys => keys
  | .retrySlot _ key keys => key :: keys
  | _ => []

/-- What the scan has checked at its stage. -/
structure Timed (config : ConnectionConfig) (clock : ℕ) (timeout : TimeoutStage) : Prop where
  now_le : timeout.now ≤ clock
  slot : ∀ now key keys, timeout = .retrySlot now key keys → key.attempt < config.retryCount

end TimeoutStage

namespace Connection

structure Wired (config : ConnectionConfig) (s : Connection) : Prop where
  submits : ∀ o ∈ s.submitQueue, o.IsQueued
  controls : ∀ o ∈ s.controlQueue, o.IsControl
  writer : s.writer.Wired
  finishing : s.finishing = true → s.phase = .closed
  timeout : s.timeout.Timed config s.clock

/-- The connection as a window. -/
def window (s : Connection) : Window where
  clock := s.clock
  phase := s.phase
  draining := s.drainSubmitsOnClose
  pending := s.pendingSubmits
  line := s.writer.taken ++ s.submitQueue.filter Outbound.standsInLine
  held := s.writer.held
  status := s.writer.status
  drained := s.writer.stage = .signallingMarker || decide (WrittenTx.drainMarker ∈ s.signalled)
  emitting := s.reader.emitting
  now := s.timeout.now
  expired := s.timeout.keys
  closer := s.closer
  cleanups := s.cleanups
  log := { s.log with retireFailed := [] }
  metrics := s.metrics

theorem wired_initial (config : ConnectionConfig) (clock : ℕ) (udhCounter : UInt32) :
    (initial config clock udhCounter).Wired config := by
  refine ⟨?_, ?_, ⟨?_, ?_, ⟨rfl, rfl, rfl⟩⟩, ?_, ⟨Nat.zero_le _, nofun⟩⟩
  · exact fun o ho => absurd ho List.not_mem_nil
  · exact fun o ho => absurd ho List.not_mem_nil
  · exact fun o ho => absurd ho List.not_mem_nil
  · exact fun o ho => by cases ho
  · exact fun h => by cases h

theorem completeHeartbeatAttempt_eq (s : Connection) (key : HeartbeatAttemptKey) (writtenAt : ℕ) :
    ∃ heartbeatPending, s.completeHeartbeatAttempt key writtenAt = { s with heartbeatPending } := by
  rw [completeHeartbeatAttempt]
  split
  · split_ifs
    · exact ⟨_, rfl⟩
    · exact ⟨_, rfl⟩
  · exact ⟨_, rfl⟩

/-- Behind a written frame the flags are set that it marks. -/
theorem publishFrame_eq (s : Connection) (outbound : Outbound) (writtenAt : ℕ)
    (rest : List Outbound) : ∃ heartbeatPending,
      s.publishFrame outbound writtenAt rest = ({ s with
        heartbeatPending
        peerTerminateResponseWritten :=
          s.peerTerminateResponseWritten || outbound.marksPeerTerminateResponse
        terminateWritten := s.terminateWritten || outbound.writtenFlag } : Connection).setStage
          (.signalling outbound.writtenTx rest) := by
  cases hattempt : outbound.heartbeatAttempt with
  | none => exact ⟨_, by rw [publishFrame, hattempt]⟩
  | some key =>
    obtain ⟨heartbeatPending, heq⟩ := s.completeHeartbeatAttempt_eq key writtenAt
    refine ⟨heartbeatPending, ?_⟩
    rw [publishFrame, hattempt]
    simp only [heq]

end Connection

end CmppProtocol
