import CmppProtocol.Connection.State
import CmppProtocol.Library.Machine

/-! # The steps of a connection

One step is a section under locks, or what a task does between two accesses to
shared state. Any caller may call `finish` or report an event overload at any
time; the peer may send any frame; an event is put into the spool or not as the
step says.
-/

namespace CmppProtocol

/-- A step of one call of `submit`. -/
inductive CallEvent
  | prepare (udhReference : Option UInt8)
  | nextSegment
  | acquirePermit
  | notOpen
  | encode
  | reserveSlot
  | admitSubmit
  | fail
  | cancel
  deriving DecidableEq, Repr

inductive WriterEvent
  | advance
  | phaseChanged
  | written
  | failed
  | closed
  deriving DecidableEq, Repr

inductive ReaderEvent
  | submitResp (response : SubmitResponse)
  | matchResps
  | emitResp (sent : Bool)
  | activeTest (sequenceId : UInt32)
  | activeTestResp (sequenceId : ℕ)
  | deliver (sequenceId : UInt32) (deliver : Deliver) (ticket : ℕ)
  | terminate (sequenceId : UInt32)
  | answerTerminate
  | answered
  | terminateResp (sequenceId : ℕ)
  | stop
  deriving DecidableEq, Repr

inductive HeartbeatEvent
  | tick
  | enqueue
  | notOpen
  deriving DecidableEq, Repr

inductive TimeoutEvent
  | tick
  | scanHeartbeat
  | giveUpHeartbeat
  | heartbeatSlot
  | heartbeatFull
  | retryHeartbeat
  | teardown
  | scanSubmits
  | giveUpSubmit (sent : Bool)
  | submitSlot
  | submitFull
  | retrySubmit
  | rest
  | stop
  deriving DecidableEq, Repr

inductive CloserEvent
  | close
  | sendMarker
  | markerAnswered
  | markerGivenUp
  | clearDrain
  | leaseTerminate
  | sendTerminate
  | handshakeOver
  | finish
  | forget
  deriving DecidableEq, Repr

inductive CleanupEvent
  | start
  | drain (order : List ℕ)
  | sendDropped (sent : Bool)
  | sweep
  | abort
  deriving DecidableEq, Repr

inductive ConnectionEvent
  | clock (duration : ℕ)
  | udhCounter (counter : UInt32)
  | submit (options : SubmitOptions) (content : String) (base : Option UInt32)
  | call (index : ℕ) (event : CallEvent)
  | writer (event : WriterEvent)
  | reader (event : ReaderEvent)
  | heartbeat (event : HeartbeatEvent)
  | timeout (event : TimeoutEvent)
  | closer (event : CloserEvent)
  | overloadClose
  | finish
  | finishStores
  | cleanup (index : ℕ) (event : CleanupEvent)

namespace Connection

variable (gbk : Gbk) (config : ConnectionConfig)

/-- Another pending map. An entry that is gone frees its window permit and drops its lease. -/
def setPending (s : Connection) (pendingSubmits : PendingSubmits) : Connection :=
  let gone := s.pendingSubmits.entries.filter fun p => (pendingSubmits.find p.1).isNone
  { s with
    pendingSubmits
    sequenceRegistry := dropLeases s.sequenceRegistry (gone.map fun p => p.2.sequenceLease)
    windowPermits := s.windowPermits + gone.length }

/-! ## Submit calls -/

def setCall (s : Connection) (index : ℕ) (call : SubmitCall) : Connection :=
  { s with calls := s.calls.set index call }

/-- The call ends; its leases are dropped and the window permit it may hold is free again. -/
def endCall (s : Connection) (index : ℕ) (call : SubmitCall) (stage : CallStage) : Connection :=
  ({ s with
    sequenceRegistry := dropLeases s.sequenceRegistry call.leases
    windowPermits := s.windowPermits + if call.holdsPermit then 1 else 0 }
    : Connection).setCall index { call with stage, manualSequenceLeases := [] }

/-- `partial_submit_error`. -/
def partialSubmitError (sequenceIds : List ℕ) (source : Error) : Error :=
  .partialSubmit (sequenceIds.map UInt32.ofNat) source

def failCall (s : Connection) (index : ℕ) (call : SubmitCall) (source : Error) : Connection :=
  s.endCall index call (.returned (.error (partialSubmitError call.sequenceIds source)))

/-- `submit` up to the plan of the message. -/
def submit (s : Connection) (options : SubmitOptions) (content : String) (base : Option UInt32) :
    Option Connection :=
  let call (plan : SubmitContentPlan) (stage : CallStage) : SubmitCall :=
    ⟨base, plan, options.buildSubmitTemplate, none, false, [], [], stage⟩
  let refused (error : Error) := call ⟨content, .ascii, [], none⟩ (.returned (.error error))
  if s.phase ≠ .opened then some { s with calls := s.calls ++ [refused .closed] }
  else if 255 < options.destTerminalIds.length then
    some { s with calls := s.calls ++ [refused (.config "SUBMIT destination 数量超过 255")] }
  else
    match prepareSubmitContent content s.udhCounter with
    | some (.ok plan, udhCounter) =>
      some { s with udhCounter, calls := s.calls ++ [call plan .entered] }
    | some (.error error, udhCounter) =>
      some { s with udhCounter, calls := s.calls ++ [refused error] }
    | none => none

/-- The UDH lease, for which the pool answers, and the reservation of a manual batch. -/
def prepareCall (s : Connection) (index : ℕ) (call : SubmitCall) (udhReference : Option UInt8) :
    Connection :=
  let refused (error : Error) := s.setCall index { call with stage := .returned (.error error) }
  if 1 < call.segmentCount ∧ call.plan.preferredRef = none then
    refused (.config "long SMS UDH 无效")
  else if 1 < call.segmentCount ∧ udhReference = none then
    refused (.resourceExhausted
      "同一短信重组域的 8-bit UDH reference 已全部占用（受 cooldown 约束，稍后重试）")
  else
    let call := { call with
      udhReference := if 1 < call.segmentCount then udhReference else none
      stage := .looping }
    match call.base with
    | none => s.setCall index call
    | some base =>
      match s.sequenceRegistry.reserveBatch base call.segmentCount with
      | (some leases, sequenceRegistry) =>
        ({ s with sequenceRegistry } : Connection).setCall index
          { call with manualSequenceLeases := leases }
      | (none, _) => s.setCall index { call with stage := .returned (.error (.config
          "base_sequence_id 区间超过 255 段、包含重复值或已被当前 connection 使用")) }

/-- The lease that the call brought, else the next automatic one. -/
def obtainLease (registry : SequenceState) : Option SequenceLease →
    Option SequenceLease × SequenceState
  | some lease => (some lease, registry)
  | none =>
    match registry.reserveNext with
    | (some id, registry) => (some ⟨id, false, true⟩, registry)
    | (none, registry) => (none, registry)

/-- The part of `send_submit` from the segment to the attempt key. -/
def encodeCall (s : Connection) (index : ℕ) (call : SubmitCall) (lease : Option SequenceLease) :
    Option Connection :=
  match call.plan.segment gbk call.sequenceIds.length call.udhReference () with
  | none => none
  | some (.error error, _) => some (s.failCall index call error)
  | some (.ok segment, _) =>
    let template := call.template.applySegment segment
    let call := { call with template }
    match obtainLease s.sequenceRegistry lease with
    | (none, sequenceRegistry) =>
      some (({ s with sequenceRegistry } : Connection).setCall index
        { call with stage := .failing none .channelClosed })
    | (some lease, sequenceRegistry) =>
      let call := { call with stage := .permitted (some lease) }
      match template.tryEncode (.ofNat lease.sequenceId) () with
      | none => none
      | some (.error error, _) => some ({ s with sequenceRegistry }.failCall index call error)
      | some (.ok packet, _) =>
        let key : SubmitAttemptKey := ⟨lease.sequenceId, s.nextSubmissionId, 1⟩
        some (({ s with
          sequenceRegistry
          nextSubmissionId := s.nextSubmissionId + 1 } : Connection).setCall index
          { call with stage := .encoded lease packet key })

/-- The entry goes into the window and its first frame into the queue. -/
def commitSubmit (s : Connection) (index : ℕ) (call : SubmitCall) (lease : SequenceLease)
    (packet : List UInt8) (key : SubmitAttemptKey) : Connection :=
  ({ s with
    pendingSubmits := s.pendingSubmits.insert key.sequenceId {
      submissionId := key.submissionId
      packet
      state := .queued 1
      udhReferenceLease := call.udhReference.map fun _ => index
      sequenceLease := lease }
    submitQueue := s.submitQueue ++ [.submit packet key]
    metrics := { s.metrics with submitsAdmitted := s.metrics.submitsAdmitted + 1 }
    log := { s.log with
      admissions := s.log.admissions ++
        [⟨index, call.sequenceIds.length, key.sequenceId, key.submissionId, packet⟩]
      enqueued := s.log.enqueued ++ [(key, s.clock)] } } : Connection).setCall index { call with
        udhExposed := call.udhReference.isSome
        sequenceIds := call.sequenceIds ++ [key.sequenceId]
        stage := .looping }

/-- A manual id is retired on admission, so that it is not handed out again. -/
def retireManual (registry : SequenceState) (lease : SequenceLease) :
    Bool × SequenceLease × SequenceState :=
  if lease.manual then lease.retire registry else (true, lease, registry)

/-- The admission section of `send_submit`. -/
def admitCall (s : Connection) (index : ℕ) (call : SubmitCall) (lease : SequenceLease)
    (packet : List UInt8) (key : SubmitAttemptKey) : Connection :=
  if s.phase ≠ .opened then s.failCall index call .closed
  else
    match retireManual s.sequenceRegistry lease with
    | (false, lease, sequenceRegistry) =>
      ({ s with
        sequenceRegistry
        log := { s.log with retireFailed := s.log.retireFailed ++ [lease.sequenceId] } }
        : Connection).setCall index { call with stage := .failing (some lease) .channelClosed }
    | (true, lease, sequenceRegistry) =>
      ({ s with sequenceRegistry } : Connection).commitSubmit index call lease packet key

def callNext (s : Connection) (index : ℕ) (call : SubmitCall) : CallEvent → Option Connection
  | .prepare udhReference =>
    match call.stage with
    | .entered => some (s.prepareCall index call udhReference)
    | _ => none
  | .nextSegment =>
    match call.stage with
    | .looping =>
      if call.sequenceIds.length = call.segmentCount then
        some (s.endCall index call (.returned (.ok call.sequenceIds)))
      else
        match call.base, call.manualSequenceLeases with
        | some _, lease :: leases => some (s.setCall index { call with
            manualSequenceLeases := leases, stage := .sending (some lease) })
        | some _, [] => some (s.failCall index call .channelClosed)
        | none, _ => some (s.setCall index { call with stage := .sending none })
    | _ => none
  | .acquirePermit =>
    match call.stage with
    | .sending lease =>
      if 0 < s.windowPermits ∧ ¬ s.windowClosed then
        some (({ s with windowPermits := s.windowPermits - 1 } : Connection).setCall index
          { call with stage := .permitted lease })
      else none
    | _ => none
  | .notOpen =>
    if s.phase = .opened then none
    else
      match call.stage with
      | .entered =>
        if call.base.isSome then some (s.endCall index call (.returned (.error .closed))) else none
      | .sending _ | .encoded _ _ _ => some (s.failCall index call .closed)
      | _ => none
  | .encode =>
    match call.stage with
    | .permitted lease => s.encodeCall gbk index call lease
    | _ => none
  | .reserveSlot =>
    match call.stage with
    | .encoded lease packet key =>
      some (s.setCall index { call with stage := .reserved lease packet key })
    | _ => none
  | .admitSubmit =>
    match call.stage with
    | .reserved lease packet key => some (s.admitCall index call lease packet key)
    | _ => none
  | .fail =>
    match call.stage with
    | .failing _ error => some (s.finish.failCall index call error)
    | _ => none
  | .cancel =>
    match call.stage with
    | .entered | .sending _ | .encoded _ _ _ => some (s.endCall index call .cancelled)
    | _ => none

/-! ## The writer -/

def setStage (s : Connection) (stage : WriterStage) : Connection :=
  { s with writer := { s.writer with stage } }

/-- Take the first frame of a queue, if there is one. -/
def receive (s : Connection) (fromSubmit : Bool) : Option Connection :=
  if fromSubmit then
    match s.submitQueue with
    | [] => none
    | outbound :: submitQueue =>
      some (({ s with submitQueue } : Connection).setStage (.received outbound true))
  else
    match s.controlQueue with
    | [] => none
    | outbound :: controlQueue =>
      some (({ s with controlQueue } : Connection).setStage (.received outbound false))

/-- The queue that is asked first. -/
def submitFirst (s : Connection) (canSendSubmit : Bool) : Bool :=
  canSendSubmit && decide (CONTROL_BURST_LIMIT ≤ s.writer.controlBurst)

/-- `claim_heartbeat_attempt`. -/
def claimHeartbeatAttempt (s : Connection) (key : HeartbeatAttemptKey) : Bool × Connection :=
  if s.phase ≠ .opened then (false, s)
  else
    match s.heartbeatPending.find key.sequenceId with
    | some entry =>
      if entry.heartbeatId = key.heartbeatId ∧ entry.state = .queued key.attempt then
        (true, { s with heartbeatPending :=
          s.heartbeatPending.set key.sequenceId { entry with state := .writing key.attempt } })
      else (false, s)
    | none => (false, s)

/-- `complete_heartbeat_attempt`. -/
def completeHeartbeatAttempt (s : Connection) (key : HeartbeatAttemptKey) (writtenAt : ℕ) :
    Connection :=
  match s.heartbeatPending.find key.sequenceId with
  | some entry =>
    if entry.heartbeatId = key.heartbeatId ∧ entry.state = .writing key.attempt then
      { s with
        heartbeatPending := s.heartbeatPending.set key.sequenceId
          { entry with state := .awaitingResponse key.attempt writtenAt } }
    else s
  | none => s

def countBurst (s : Connection) (isSubmit : Bool) : Connection :=
  { s with writer := { s.writer with
    controlBurst := if isSubmit then 0 else s.writer.controlBurst + 1 } }

/-- Look at a frame that was received: markers and stale heartbeats are taken out. -/
def screen (s : Connection) (outbound : Outbound) (isSubmit : Bool) : Connection :=
  let s := s.countBurst isSubmit
  if outbound.submitDrainMarker then
    { s with writer := { s.writer with stage := .assembled, pendingMarker := some outbound } }
  else if isSubmit ∧ outbound.submitAttempt = none then s.setStage .failing
  else
    match outbound.heartbeatAttempt with
    | none => s.setStage (.screened outbound)
    | some key =>
      match s.claimHeartbeatAttempt key with
      | (true, s) => s.setStage (.screened outbound)
      | (false, s) => s.setStage .harvesting

/-- Put a frame into the batch unless it is cancelled or its budget is used up. -/
def push (s : Connection) (outbound : Outbound) : Connection :=
  if outbound.cancelAfterPeerTerminate ∧ s.peerTerminateResponseWritten then
    s.setStage .harvesting
  else
    match outbound.responseBudgetStartedAt with
    | some startedAt =>
      if config.responseTimeout ≤ s.clock - startedAt then s.setStage .failing
      else { s with writer := { s.writer with
        stage := .harvesting
        batch := s.writer.batch ++ [outbound]
        batchBytes := s.writer.batchBytes + outbound.packet.length } }
    | none => { s with writer := { s.writer with
        stage := .harvesting
        batch := s.writer.batch ++ [outbound]
        batchBytes := s.writer.batchBytes + outbound.packet.length } }

/-- `claim_submit_attempts` on the batch. -/
def claimBatch (s : Connection) : Connection :=
  let (pendingSubmits, batch) :=
    claimSubmitAttempts s.canSendSubmit s.pendingSubmits s.writer.batch
  { s with
    pendingSubmits
    writer := { s.writer with stage := .claimed, batch, status := .claimed }
    log := { s.log with
      claimed := s.log.claimed ++ batch.filter fun outbound => outbound.submitAttempt.isSome } }

/-- What the writer does for one frame after it was written. -/
def publishFrame (s : Connection) (outbound : Outbound) (writtenAt : ℕ) (rest : List Outbound) :
    Connection :=
  let s := match outbound.heartbeatAttempt with
    | some key => s.completeHeartbeatAttempt key writtenAt
    | none => s
  ({ s with
    peerTerminateResponseWritten :=
      s.peerTerminateResponseWritten || outbound.marksPeerTerminateResponse
    terminateWritten := s.terminateWritten || outbound.writtenFlag } : Connection).setStage
      (.signalling outbound.writtenTx rest)

/-- The end of a batch: the marker, if one was received, else the next batch. -/
def afterBatch (s : Connection) : Connection :=
  { s with writer := { s.writer with
    stage := if s.writer.pendingMarker.isSome then .answering else .top
    batch := []
    batchBytes := 0
    status := .collecting } }

def writerAdvance (s : Connection) : Option Connection :=
  match s.writer.stage with
  | .top =>
    if s.phase = .closed then some (s.setStage .stopped)
    else some (s.setStage (.selecting s.canSendSubmit))
  | .selecting canSendSubmit =>
    some ((s.receive (s.submitFirst canSendSubmit)).getD
      (s.setStage (.selectingSecond canSendSubmit)))
  | .selectingSecond canSendSubmit =>
    some (((if canSendSubmit then s.receive (!s.submitFirst canSendSubmit) else none)).getD
      (s.setStage (.selecting canSendSubmit)))
  | .received outbound isSubmit => some (s.screen outbound isSubmit)
  | .screened outbound =>
    if outbound.openOnly ∧ s.phase ≠ .opened then some (s.setStage .harvesting)
    else some (s.setStage (.admitted outbound))
  | .admitted outbound => some (s.push config outbound)
  | .harvesting =>
    if config.writeBatchMaxFrames ≤ s.writer.batch.length ∨
        config.writeBatchMaxBytes ≤ s.writer.batchBytes then some (s.setStage .assembled)
    else some (s.setStage (.picking s.canSendSubmit))
  | .picking canSubmitNow =>
    some ((s.receive (s.submitFirst canSubmitNow)).getD (s.setStage (.pickingSecond canSubmitNow)))
  | .pickingSecond canSubmitNow =>
    some (((if canSubmitNow then s.receive (!s.submitFirst canSubmitNow) else none)).getD
      (s.setStage .assembled))
  | .assembled => some s.claimBatch
  | .claimed =>
    if s.writer.batch = [] then some s.afterBatch
    else some { s with
      writer := { s.writer with stage := .writing, status := .handed }
      log := { s.log with handed := s.log.handed ++ s.writer.batch } }
  | .writing => none
  | .wrote =>
    match s.writer.status with
    | .written writtenAt =>
      let s := s.setPending (completeSubmitAttempts writtenAt s.pendingSubmits
        (s.writer.batch.filterMap Outbound.submitAttempt))
      some { s with
        writer := { s.writer with
          stage := .publishing s.writer.batch, status := .completed writtenAt } }
    | _ => none
  | .publishing [] => some s.afterBatch
  | .publishing (outbound :: rest) =>
    match s.writer.status with
    | .completed writtenAt => some (s.publishFrame outbound writtenAt rest)
    | _ => none
  | .signalling writtenTx rest =>
    some (({ s with signalled := s.signalled ++ writtenTx.toList } : Connection).setStage
      (.publishing rest))
  | .answering =>
    some (({ s with drainSubmitsOnClose := false } : Connection).setStage .signallingMarker)
  | .signallingMarker =>
    some { s with
      writer := { s.writer with stage := .top, pendingMarker := none }
      signalled := s.signalled ++ (s.writer.pendingMarker.bind Outbound.writtenTx).toList }
  | .failing => some (s.finish.setStage .stopped)
  | .stopped => none

def writerNext (s : Connection) : WriterEvent → Option Connection
  | .advance => s.writerAdvance config
  | .phaseChanged =>
    match s.writer.stage with
    | .selecting _ | .selectingSecond _ => some (s.setStage .top)
    | _ => none
  | .written =>
    match s.writer.stage with
    | .writing => some { s with
        writer := { s.writer with stage := .wrote, status := .written s.clock }
        log := { s.log with
          written := s.log.written ++ s.writer.batch.map fun outbound => (outbound, s.clock) } }
    | _ => none
  | .failed =>
    match s.writer.stage with
    | .writing => some (s.setStage .failing)
    | _ => none
  | .closed =>
    if s.phase ≠ .closed then none
    else
      match s.writer.stage with
      | .selecting _ | .selectingSecond _ | .writing => some (s.setStage .stopped)
      | _ => none

/-! ## The reader -/

/-- Every frame but a SUBMIT_RESP is handled after the responses before it. -/
def flushed (s : Connection) : Bool :=
  s.reader.stage = .reading && s.reader.pendingResps.isEmpty && s.reader.emitting.isEmpty

def setReader (s : Connection) (stage : ReaderStage) : Connection :=
  { s with reader := { s.reader with stage } }

def readerNext (s : Connection) : ReaderEvent → Option Connection
  | .submitResp response =>
    if s.reader.stage = .reading ∧ s.reader.emitting = [] ∧
        s.reader.pendingResps.length < SUBMIT_RESP_BATCH_MAX then
      some { s with
        reader := { s.reader with pendingResps := s.reader.pendingResps ++ [response] } }
    else none
  | .matchResps =>
    if s.reader.emitting = [] then
      let (pendingSubmits, emitting) := matchSubmitResps s.pendingSubmits s.reader.pendingResps
      some { s.setPending pendingSubmits with
        reader := { s.reader with pendingResps := [], emitting } }
    else none
  | .emitResp sent =>
    match s.reader.emitting with
    | [] => none
    | ⟨sequenceId, msgId, result⟩ :: emitting =>
      some { s with
        reader := { s.reader with emitting }
        metrics := { s.metrics with
          submitResponses := s.metrics.submitResponses + 1
          eventsDropped := s.metrics.eventsDropped + if sent then 0 else 1 }
        log := { s.log with
          responded := s.log.responded ++ [sequenceId]
          puts := if sent then s.log.puts ++ [.submitResp sequenceId msgId result] else s.log.puts
          lost := if sent then s.log.lost else s.log.lost ++ [sequenceId] } }
  | .activeTest sequenceId =>
    if s.flushed then
      some { s with controlQueue :=
        s.controlQueue ++ [.plain (encodePdu .activeTestResp sequenceId)] }
    else none
  | .activeTestResp sequenceId =>
    if s.flushed then
      some { s with
        sequenceRegistry := dropLeases s.sequenceRegistry
          ((s.heartbeatPending.find sequenceId).map PendingHeartbeat.sequenceLease).toList
        heartbeatPending := s.heartbeatPending.erase sequenceId }
    else none
  | .deliver sequenceId deliver ticket =>
    if s.flushed then
      let packet := encodePdu (.deliverResp ⟨deliver.msgId, 0⟩) sequenceId
      some { s with controlQueue :=
        s.controlQueue ++ [.afterWrite packet s.clock ticket (.deliver deliver)] }
    else none
  | .terminate sequenceId =>
    if s.flushed then
      some (({ s with peerTerminateSeen := true }.beginClosing false).2.setReader
        (.answeringTerminate sequenceId))
    else none
  | .answerTerminate =>
    match s.reader.stage with
    | .answeringTerminate sequenceId =>
      if s.phase = .closed then none
      else
        some (({ s with
          controlQueue := s.controlQueue ++
            [.peerTerminateResponse (encodePdu .terminateResp sequenceId)] }
          : Connection).setReader .awaitingAnswer)
    | _ => none
  | .answered =>
    if s.reader.stage = .awaitingAnswer ∧ .peerTerminateResponse ∈ s.signalled ∧
        s.pendingTerminate.isSome ∧ s.terminateWritten then some (s.setReader .reading)
    else none
  | .terminateResp sequenceId =>
    if s.flushed then
      if s.pendingTerminate.map SequenceLease.sequenceId = some sequenceId then
        some { s with
          sequenceRegistry := dropLeases s.sequenceRegistry s.pendingTerminate.toList
          pendingTerminate := none }
      else some s
    else none
  | .stop =>
    if s.reader.pendingResps = [] ∧ s.reader.emitting = [] then some (s.setReader .stopped)
    else none

/-! ## Heartbeats -/

def dropHeartbeat (s : Connection) (lease : SequenceLease) (stage : HeartbeatStage) : Connection :=
  { s with sequenceRegistry := lease.drop s.sequenceRegistry, heartbeat := stage }

def heartbeatNext (s : Connection) : HeartbeatEvent → Option Connection
  | .tick =>
    if s.heartbeat = .waiting ∧ s.phase = .opened then
      if s.heartbeatPending.size = 0 then
        match s.sequenceRegistry.reserveNext with
        | (none, sequenceRegistry) =>
          some { s.finish with sequenceRegistry, heartbeat := .stopped }
        | (some id, sequenceRegistry) =>
          some { s with
            sequenceRegistry
            nextHeartbeatId := s.nextHeartbeatId + 1
            heartbeat := .prepared ⟨id, false, true⟩ ⟨id, s.nextHeartbeatId, 1⟩ }
      else some s
    else none
  | .enqueue =>
    match s.heartbeat with
    | .prepared lease key =>
      if s.phase ≠ .opened then some (s.dropHeartbeat lease .stopped)
      else if s.heartbeatPending.size ≠ 0 then some (s.dropHeartbeat lease .waiting)
      else some { s with
        heartbeatPending := s.heartbeatPending.insert key.sequenceId
          ⟨key.heartbeatId, .queued 1, lease⟩
        controlQueue := s.controlQueue ++
          [.heartbeat (encodePdu .activeTest (.ofNat key.sequenceId)) key]
        heartbeat := .waiting }
    | _ => none
  | .notOpen =>
    if s.phase = .opened then none
    else
      match s.heartbeat with
      | .waiting => some { s with heartbeat := .stopped }
      | .prepared lease _ => some (s.dropHeartbeat lease .stopped)
      | .stopped => none

/-! ## Timeouts -/

def setTimeout (s : Connection) (timeout : TimeoutStage) : Connection := { s with timeout }

/-- A heartbeat that still waits for the response to this attempt. -/
def heartbeatAwaiting (s : Connection) (key : HeartbeatAttemptKey) : Option PendingHeartbeat :=
  match s.heartbeatPending.find key.sequenceId with
  | some entry =>
    match entry.state with
    | .awaitingResponse attempt _ =>
      if entry.heartbeatId = key.heartbeatId ∧ attempt = key.attempt then some entry else none
    | _ => none
  | none => none

def expiredHeartbeat (s : Connection) (now : ℕ) : Option HeartbeatAttemptKey :=
  s.heartbeatPending.entries.findSome? fun (sequenceId, entry) =>
    match entry.state with
    | .awaitingResponse attempt writtenAt =>
      if config.responseTimeout ≤ now - writtenAt then
        some ⟨sequenceId, entry.heartbeatId, attempt⟩
      else none
    | _ => none

/-- Give up an attempt whose retries are used up: the event and the removal are one section. -/
def giveUpSubmit (s : Connection) (now : ℕ) (key : SubmitAttemptKey)
    (keys : List SubmitAttemptKey) (sent : Bool) : Connection :=
  match stillAwaiting s.pendingSubmits key with
  | none => s.setTimeout (.expired now keys)
  | some entry =>
    if !sent then
      ({ s with metrics := { s.metrics with eventsDropped := s.metrics.eventsDropped + 1 } }
        : Connection).setTimeout (.expired now keys)
    else
      let (retired, lease, sequenceRegistry) := entry.sequenceLease.retire s.sequenceRegistry
      ({ s with
        pendingSubmits := s.pendingSubmits.erase key.sequenceId
        sequenceRegistry := lease.drop sequenceRegistry
        windowPermits := s.windowPermits + 1
        metrics := { s.metrics with submitTimeouts := s.metrics.submitTimeouts + 1 }
        log := { s.log with
          timedOut := s.log.timedOut ++ [key.sequenceId]
          puts := s.log.puts ++ [.submitTimeout key.sequenceId key.attempt]
          retireFailed :=
            if retired then s.log.retireFailed else s.log.retireFailed ++ [key.sequenceId] } }
        : Connection).setTimeout (if retired then .expired now keys else .failing)

/-- Queue the next attempt if the entry still waits and the connection is open. -/
def retrySubmit (s : Connection) (now : ℕ) (key : SubmitAttemptKey)
    (keys : List SubmitAttemptKey) : Connection :=
  match stillAwaiting s.pendingSubmits key with
  | none => s.setTimeout (.expired now keys)
  | some entry =>
    if s.phase ≠ .opened then s.setTimeout (.expired now keys)
    else
      let nextKey := { key with attempt := key.attempt + 1 }
      ({ s with
        pendingSubmits := setState s.pendingSubmits key.sequenceId entry (.queued nextKey.attempt)
        submitQueue := s.submitQueue ++ [.submit entry.packet nextKey]
        metrics := { s.metrics with submitRetries := s.metrics.submitRetries + 1 }
        log := { s.log with enqueued := s.log.enqueued ++ [(nextKey, s.clock)] } }
        : Connection).setTimeout (.expired now keys)

def timeoutNext (s : Connection) : TimeoutEvent → Option Connection
  | .tick =>
    if s.timeout = .waiting ∧ s.phase = .opened then some (s.setTimeout (.ticked s.clock)) else none
  | .scanHeartbeat =>
    match s.timeout with
    | .ticked now =>
      match s.expiredHeartbeat config now with
      | some key => some (s.setTimeout (.heartbeatExpired now key))
      | none => some (s.setTimeout (.heartbeatChecked now))
    | _ => none
  | .giveUpHeartbeat =>
    match s.timeout with
    | .heartbeatExpired now key =>
      if key.attempt < config.retryCount then none
      else
        match s.heartbeatAwaiting key with
        | none => some (s.setTimeout (.heartbeatChecked now))
        | some entry =>
          some (({ s with
            sequenceRegistry := entry.sequenceLease.drop s.sequenceRegistry
            heartbeatPending := s.heartbeatPending.erase key.sequenceId } : Connection).setTimeout
              .heartbeatExhausted)
    | _ => none
  | .heartbeatSlot =>
    match s.timeout with
    | .heartbeatExpired now key =>
      if key.attempt < config.retryCount then some (s.setTimeout (.heartbeatSlot now key)) else none
    | _ => none
  | .heartbeatFull =>
    match s.timeout with
    | .heartbeatExpired now key =>
      if key.attempt < config.retryCount then some (s.setTimeout (.heartbeatChecked now)) else none
    | _ => none
  | .retryHeartbeat =>
    match s.timeout with
    | .heartbeatSlot now key =>
      match s.heartbeatAwaiting key with
      | none => some (s.setTimeout (.heartbeatChecked now))
      | some entry =>
        if s.phase ≠ .opened then some (s.setTimeout (.heartbeatChecked now))
        else
          let nextKey := { key with attempt := key.attempt + 1 }
          some (({ s with
            heartbeatPending := s.heartbeatPending.set key.sequenceId
              { entry with state := .queued nextKey.attempt }
            controlQueue := s.controlQueue ++
              [.heartbeat (encodePdu .activeTest (.ofNat key.sequenceId)) nextKey] }
            : Connection).setTimeout (.heartbeatChecked now))
    | _ => none
  | .teardown =>
    match s.timeout with
    | .heartbeatExhausted | .failing => some (s.finish.setTimeout .stopped)
    | _ => none
  | .scanSubmits =>
    match s.timeout with
    | .heartbeatChecked now =>
      some (s.setTimeout (.expired now (expiredSubmits s.pendingSubmits now config.responseTimeout
        config.submitRetryBatchSize)))
    | _ => none
  | .giveUpSubmit sent =>
    match s.timeout with
    | .expired now (key :: keys) =>
      if key.attempt < config.retryCount then none else some (s.giveUpSubmit now key keys sent)
    | _ => none
  | .submitSlot =>
    match s.timeout with
    | .expired now (key :: keys) =>
      if key.attempt < config.retryCount then some (s.setTimeout (.retrySlot now key keys))
      else none
    | _ => none
  | .submitFull =>
    match s.timeout with
    | .expired now (key :: keys) =>
      if key.attempt < config.retryCount then some (s.setTimeout (.expired now keys)) else none
    | _ => none
  | .retrySubmit =>
    match s.timeout with
    | .retrySlot now key keys => some (s.retrySubmit now key keys)
    | _ => none
  | .rest =>
    match s.timeout with
    | .expired _ [] => some (s.setTimeout .waiting)
    | _ => none
  | .stop => if s.timeout = .waiting ∧ s.phase ≠ .opened then some (s.setTimeout .stopped) else none

/-! ## Closing -/

def setCloser (s : Connection) (closer : CloserStage) : Connection := { s with closer }

def closerNext (s : Connection) : CloserEvent → Option Connection
  | .close =>
    if s.closer = .idle then
      match s.beginClosing true with
      | (true, s) => some (s.setCloser .marking)
      | (false, s) => some (s.setCloser .ended)
    else none
  | .sendMarker =>
    if s.closer = .marking ∧ s.phase ≠ .closed then
      some (({ s with submitQueue := s.submitQueue ++ [.drainMarker] }
        : Connection).setCloser .awaitingMarker)
    else none
  | .markerAnswered =>
    if s.closer = .awaitingMarker ∧ .drainMarker ∈ s.signalled then some (s.setCloser .drainOver)
    else none
  | .markerGivenUp =>
    if s.closer = .marking ∨ s.closer = .awaitingMarker then some (s.setCloser .drainOver) else none
  | .clearDrain =>
    if s.closer = .drainOver then
      some (({ s with
        drainSubmitsOnClose := false
        log := { s.log with drainCut := true } } : Connection).setCloser .cleared)
    else none
  | .leaseTerminate =>
    if s.closer = .cleared then
      match s.sequenceRegistry.reserveNext with
      | (none, sequenceRegistry) =>
        some (({ s.finish with sequenceRegistry } : Connection).setCloser .ended)
      | (some id, sequenceRegistry) =>
        some (({ s with
          sequenceRegistry := dropLeases sequenceRegistry s.pendingTerminate.toList
          pendingTerminate := some ⟨id, false, true⟩
          terminateWritten := false } : Connection).setCloser (.leased id))
    else none
  | .sendTerminate =>
    match s.closer with
    | .leased id =>
      if s.phase = .closed then none
      else
        some (({ s with
          controlQueue := s.controlQueue ++ [.localTerminate (encodePdu .terminate (.ofNat id))] }
          : Connection).setCloser (.awaitingTerminate id))
    | _ => none
  | .handshakeOver =>
    match s.closer with
    | .leased id | .awaitingTerminate id => some (s.setCloser (.handshakeOver id))
    | _ => none
  | .finish =>
    match s.closer with
    | .handshakeOver id => some (s.finish.setCloser (.forgetting id))
    | _ => none
  | .forget =>
    match s.closer with
    | .forgetting id =>
      if s.pendingTerminate.map SequenceLease.sequenceId = some id then
        some (({ s with
          sequenceRegistry := dropLeases s.sequenceRegistry s.pendingTerminate.toList
          pendingTerminate := none } : Connection).setCloser .ended)
      else some (s.setCloser .ended)
    | _ => none

/-! ## Cleanup -/

def setCleanup (s : Connection) (index : ℕ) (stage : CleanupStage) : Connection :=
  { s with cleanups := s.cleanups.set index stage }

/-- The drain in `fail_all_pending`; the map is drained in some order. -/
def drainPending (s : Connection) (index : ℕ) (order : List ℕ) : Connection :=
  ({ s.setPending .empty with
    log := { s.log with drained := s.log.drained ++ order } } : Connection).setCleanup index
      (.sending (Greedy.chunks SUBMIT_DROPPED_BATCH_SIZE order))

def cleanupNext (s : Connection) (index : ℕ) : CleanupEvent → Option Connection
  | .start =>
    if index = s.cleanups.length ∧ s.phase = .closed then
      some { s with cleanups := s.cleanups ++ [.starting] }
    else none
  | .drain order =>
    match s.cleanups[index]? with
    | some .starting =>
      if order.Perm (unresponded s.pendingSubmits) then some (s.drainPending index order) else none
    | _ => none
  | .sendDropped sent =>
    match s.cleanups[index]? with
    | some (.sending (batch :: batches)) =>
      some (({ s with
        metrics := { s.metrics with
          eventsDropped := s.metrics.eventsDropped + if sent then 0 else batch.length }
        log := { s.log with
          puts := if sent then s.log.puts ++ batch.map .submitDropped else s.log.puts
          lost := if sent then s.log.lost else s.log.lost ++ batch } }
        : Connection).setCleanup index (.sending batches))
    | _ => none
  | .sweep =>
    match s.cleanups[index]? with
    | some (.sending []) =>
      some (({ s with
        sequenceRegistry := dropLeases s.sequenceRegistry
          (s.heartbeatPending.entries.map (fun p => p.2.sequenceLease) ++ s.pendingTerminate.toList)
        heartbeatPending := .empty
        pendingTerminate := none } : Connection).setCleanup index .swept)
    | _ => none
  | .abort =>
    match s.cleanups[index]? with
    | some (.sending batches) => some (s.setCleanup index (.aborted batches))
    | _ => none

/-! ## The machine -/

def next (s : Connection) : ConnectionEvent → Option Connection
  | .clock duration => some { s with clock := s.clock + duration }
  | .udhCounter udhCounter => some { s with udhCounter }
  | .submit options content base => s.submit options content base
  | .call index event =>
    match s.calls[index]? with
    | some call => s.callNext gbk index call event
    | none => none
  | .writer event => s.writerNext config event
  | .reader event => s.readerNext event
  | .heartbeat event => s.heartbeatNext event
  | .timeout event => s.timeoutNext config event
  | .closer event => s.closerNext event
  | .overloadClose => some (s.beginClosing false).2
  | .finish => some s.finish
  | .finishStores =>
    if s.finishing then
      some { s with
        drainSubmitsOnClose := false
        finishing := false
        windowClosed := true
        cleanups := s.cleanups ++ [.starting] }
    else none
  | .cleanup index event => s.cleanupNext index event

def machine (clock : ℕ) (udhCounter : UInt32) : Machine Connection ConnectionEvent :=
  .ofNext (initial config clock udhCounter) (next gbk config)

end Connection

end CmppProtocol
