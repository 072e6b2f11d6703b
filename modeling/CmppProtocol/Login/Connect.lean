import CmppProtocol.Login.Config
import CmppProtocol.Wire.Partial

/-! # The login

The client sends CONNECT with a digest of the shared secret and waits for one
frame. The connection is set up only by a CONNECT_RESP that accepts the login and,
unless this is switched off, carries the digest that the secret gives in turn.
The digest function is a parameter.
-/

namespace CmppProtocol

def MAX_UDH_REFERENCE_COOLDOWN : ℕ := fromSecs (24 * 60 * 60)
def MAX_MANUAL_SEQUENCE_BATCHES : ℕ := 4

/-- A time of the calendar. -/
structure UtcTime where
  month : ℕ
  day : ℕ
  hour : ℕ
  minute : ℕ
  second : ℕ
  month_le : month ≤ 12
  day_le : day ≤ 31
  hour_lt : hour < 24
  minute_lt : minute < 60
  second_lt : second < 60

/-- The digits `MMDDHHMMSS` as a number. -/
def UtcTime.timestamp (now : UtcTime) : UInt32 :=
  .ofNat now.month * 100000000 + .ofNat now.day * 1000000 + .ofNat now.hour * 10000 +
    .ofNat now.minute * 100 + .ofNat now.second

/-- `{:010}`. -/
def timestampStr (timestamp : UInt32) : String :=
  let digits := Nat.toDigits 10 timestamp.toNat
  .ofList (List.replicate (10 - digits.length) '0' ++ digits)

section Digest

variable (md5 : List UInt8 → Vector UInt8 16)

def computeAuthenticatorSource (sourceAddr sharedSecret : String) (timestamp : UInt32) :
    Vector UInt8 16 :=
  md5 (Utf8.bytes sourceAddr ++ List.replicate 9 0 ++ Utf8.bytes sharedSecret ++
    Utf8.bytes (timestampStr timestamp))

def computeAuthenticatorIsmg (status : UInt8) (authenticatorSource : Vector UInt8 16)
    (sharedSecret : String) : Vector UInt8 16 :=
  md5 ([status] ++ authenticatorSource.toList ++ Utf8.bytes sharedSecret)

/-- `Connect::new`, at the given time. -/
def Connect.new (now : UtcTime) (sourceAddr sharedSecret : String) (version : UInt8) : Connect where
  sourceAddr := sourceAddr
  authenticatorSource := computeAuthenticatorSource md5 sourceAddr sharedSecret now.timestamp
  version := version
  timestamp := now.timestamp

end Digest

/-! ## Reading the response -/

/-- What comes after the last bytes: nothing in time, the end of the stream, or an error. -/
inductive StreamEnd
  | silent
  | eof
  | failed (message : String)
  deriving DecidableEq, Repr

/-- The bytes that went out, those read and not decoded yet, and those that reads will give. -/
structure LoginSocket where
  sent : List UInt8
  buffer : List UInt8
  reads : List (List UInt8)
  deriving DecidableEq, Repr

/-- Reading until the codec has a frame. -/
def FramedRead.nextFrom (ending : StreamEnd) (sent : List UInt8) :
    List (List UInt8) → List UInt8 → Option (Except Error (Option Frame) × LoginSocket)
  | [], buffer =>
    match ending with
    | .silent => some (.error (.connect "CONNECT_RESP 超时"), ⟨sent, buffer, []⟩)
    | .failed message => some (.error (.io message), ⟨sent, buffer, []⟩)
    | .eof => (CmppFrameCodec.decodeEof buffer).map fun (r, buffer) => (r, ⟨sent, buffer, []⟩)
  | chunk :: reads, buffer =>
    match CmppFrameCodec.decode (buffer ++ chunk) with
    | some (.ok none, buffer) => nextFrom ending sent reads buffer
    | some (r, buffer) => some (r, ⟨sent, buffer, reads⟩)
    | none => none

/-- `FramedRead::next`, with the time limit of the login. -/
def FramedRead.next (ending : StreamEnd) : Fallible Error LoginSocket (Option Frame) :=
  fun socket => nextFrom ending socket.sent socket.reads socket.buffer

/-! ## The handshake -/

/-- How an operation on the socket ended. -/
inductive SocketOutcome
  | completed
  | timedOut
  | failed (message : String)
  deriving DecidableEq, Repr

/-- What the login meets, and how many octets went out of a write that did not complete. -/
structure LoginEnv where
  now : UtcTime
  connected : SocketOutcome
  written : SocketOutcome
  octetsWritten : ℕ
  ending : StreamEnd

/-- What is handed to the tasks of a connection. The read buffer stays in the socket. -/
structure Established where
  config : ConnectionConfig
  udhReferenceCooldown : ℕ
  eventSpoolCapacity : ℕ
  manualBatches : ℕ
  eventBackpressureTimeout : ℕ
  readIdleTimeout : ℕ
  heartbeatInterval : ℕ

def Established.of (c : CmppConfig) (h : c.Valid) (udhReferenceCooldown : ℕ) : Established where
  config := c.protocolParams.connectionConfig h.protocolParams
  udhReferenceCooldown := udhReferenceCooldown
  eventSpoolCapacity := c.protocolParams.spoolCapacity
  manualBatches := min c.protocolParams.windowSize MAX_MANUAL_SEQUENCE_BATCHES
  eventBackpressureTimeout := c.protocolParams.eventBackpressureTimeoutMs * 1000000
  readIdleTimeout := fromSecs c.protocolParams.readIdleTimeout
  heartbeatInterval := fromSecs c.protocolParams.heartbeatInterval

namespace Login

variable (md5 : List UInt8 → Vector UInt8 16) (c : CmppConfig) (env : LoginEnv)

def setupTcp : Except Error Unit :=
  match env.connected with
  | .completed => .ok ()
  | .timedOut => .error (.connect s!"connection 在 {c.protocolParams.connectTimeout}s 后超时")
  | .failed message => .error (.connect s!"连接到 {c.host}:{c.port} 失败: {message}")

def connectPdu : Connect := .new md5 env.now c.account c.password c.version

def sendOctets (octets : List UInt8) : Fallible Error LoginSocket Unit := do
  let socket ← Fallible.state
  Fallible.put { socket with sent := socket.sent ++ octets }

/-- CONNECT goes out under the sequence id 1. -/
def writeConnect : Fallible Error LoginSocket Unit :=
  let octets := encodePdu (.connect (connectPdu md5 c env)) 1
  match env.written with
  | .completed => sendOctets octets
  | .timedOut => do
    sendOctets (octets.take env.octetsWritten)
    Fallible.fail (.connect "CMPP CONNECT write 超时")
  | .failed message => do
    sendOctets (octets.take env.octetsWritten)
    Fallible.fail (.io message)

/-- The first frame of the peer, which may also be none. -/
def checkResponse (frame : Option Frame) : Except Error Unit :=
  match frame with
  | none => .error (.connect "handshake 期间 connection 已关闭")
  | some ⟨_, .connectResp response⟩ =>
    if response.status ≠ 0 then .error (.auth response.status)
    else if c.protocolParams.verifyAuthenticator && response.authenticatorIsmg ≠
        computeAuthenticatorIsmg md5 response.status (connectPdu md5 c env).authenticatorSource
          c.password then .error .authenticatorMismatch
    else .ok ()
  | some ⟨_, other⟩ =>
    let digits := hexDigits other.commandId.toNat 8
    .error (.connect s!"期望 CONNECT_RESP，实际收到 command 0x{digits}")

def ofExcept {α : Type} : Except Error α → Fallible Error LoginSocket α
  | .ok a => pure a
  | .error e => Fallible.fail e

/-- `connect_with_udh_reference_cooldown`. -/
def connect (udhReferenceCooldown : ℕ) : Fallible Error LoginSocket Established := do
  let valid ← ofExcept c.checked
  if udhReferenceCooldown = 0 ∨ MAX_UDH_REFERENCE_COOLDOWN < udhReferenceCooldown then
    Fallible.fail (.config "UDH reference cooldown 必须在 1ns 到 24h 之间")
  else do
    ofExcept (setupTcp c env)
    writeConnect md5 c env
    let frame ← FramedRead.next env.ending
    ofExcept (checkResponse md5 c env frame)
    pure (.of valid.1 valid.2 udhReferenceCooldown)

end Login

end CmppProtocol
