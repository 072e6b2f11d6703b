import CmppProtocol.Library.OrderedMap
import CmppProtocol.Sequence.Registry
import CmppProtocol.Wire.Framing

/-! # What a connection holds

Events for the user, the entries of the sliding window and the frames on their
way to the socket. Instants and durations are natural numbers.
-/

namespace CmppProtocol

inductive Event
  | submitResp (sequenceId : ℕ) (msgId : Vector UInt8 8) (result : UInt8)
  | submitTimeout (sequenceId attempts : ℕ)
  | submitDropped (sequenceId : ℕ)
  | deliver (deliver : Deliver)
  | disconnected (reason : Error)
  deriving DecidableEq, Repr

inductive ConnectionPhase
  | opened
  | closing
  | closed
  deriving DecidableEq, Repr

/-! ## Pending requests -/

inductive SubmitAttemptState
  | queued (attempt : ℕ)
  | writing (attempt : ℕ)
  | awaitingResponse (attempt writtenAt : ℕ)
  | respondedWhileWriting (attempt : ℕ)
  deriving DecidableEq, Repr

structure SubmitAttemptKey where
  sequenceId : ℕ
  submissionId : UInt64
  attempt : ℕ
  deriving DecidableEq, Repr

/-- A SUBMIT in the window. It owns one window permit, its sequence lease and a
share in the UDH lease of the call that sent it. -/
structure PendingSubmit where
  submissionId : UInt64
  packet : List UInt8
  state : SubmitAttemptState
  udhReferenceLease : Option ℕ
  sequenceLease : SequenceLease
  deriving DecidableEq, Repr

inductive HeartbeatAttemptState
  | queued (attempt : ℕ)
  | writing (attempt : ℕ)
  | awaitingResponse (attempt writtenAt : ℕ)
  deriving DecidableEq, Repr

structure HeartbeatAttemptKey where
  sequenceId : ℕ
  heartbeatId : UInt64
  attempt : ℕ
  deriving DecidableEq, Repr

structure PendingHeartbeat where
  heartbeatId : UInt64
  state : HeartbeatAttemptState
  sequenceLease : SequenceLease
  deriving DecidableEq, Repr

/-! ## Outgoing frames -/

/-- Who waits until a frame was written. -/
inductive WrittenTx
  | drainMarker
  | localTerminate
  | peerTerminateResponse
  deriving DecidableEq, Repr

structure Outbound where
  packet : List UInt8
  responseBudgetStartedAt : Option ℕ
  writtenTx : Option WrittenTx
  writtenFlag : Bool
  cancelAfterPeerTerminate : Bool
  marksPeerTerminateResponse : Bool
  openOnly : Bool
  submitDrainMarker : Bool
  submitAttempt : Option SubmitAttemptKey
  heartbeatAttempt : Option HeartbeatAttemptKey
  /-- The ticket of a deferred event, with the event. -/
  eventAfterWrite : Option (ℕ × Event)
  deriving DecidableEq, Repr

namespace Outbound

def plain (packet : List UInt8) : Outbound where
  packet := packet
  responseBudgetStartedAt := none
  writtenTx := none
  writtenFlag := false
  cancelAfterPeerTerminate := false
  marksPeerTerminateResponse := false
  openOnly := false
  submitDrainMarker := false
  submitAttempt := none
  heartbeatAttempt := none
  eventAfterWrite := none

def tracked (packet : List UInt8) (writtenTx : WrittenTx) : Outbound :=
  { plain packet with writtenTx := some writtenTx }

def localTerminate (packet : List UInt8) : Outbound :=
  { tracked packet .localTerminate with writtenFlag := true, cancelAfterPeerTerminate := true }

def peerTerminateResponse (packet : List UInt8) : Outbound :=
  { tracked packet .peerTerminateResponse with marksPeerTerminateResponse := true }

def afterWrite (packet : List UInt8) (responseBudgetStartedAt ticket : ℕ) (event : Event) :
    Outbound :=
  { plain packet with
    responseBudgetStartedAt := some responseBudgetStartedAt
    eventAfterWrite := some (ticket, event) }

def submit (packet : List UInt8) (key : SubmitAttemptKey) : Outbound :=
  { plain packet with submitAttempt := some key }

def heartbeat (packet : List UInt8) (key : HeartbeatAttemptKey) : Outbound :=
  { plain packet with openOnly := true, heartbeatAttempt := some key }

def drainMarker : Outbound := { tracked [] .drainMarker with submitDrainMarker := true }

end Outbound

/-- The frame of a PDU whose body has no counts. -/
def encodePdu (pdu : Pdu) (sequenceId : UInt32) : List UInt8 :=
  match pdu.tryEncodeInto sequenceId [] with
  | some (_, out) => out
  | none => []

theorem encodePdu_octets {pdu : Pdu} (h : ¬ pdu.Oversized) (sequenceId : UInt32) :
    encodePdu pdu sequenceId = Frame.octets ⟨sequenceId, pdu⟩ := by
  have hframe := CmppFrameCodec.encode_appends (f := ⟨sequenceId, pdu⟩) h []
  rw [CmppFrameCodec.encode, List.nil_append] at hframe
  rw [encodePdu, hframe]

end CmppProtocol
