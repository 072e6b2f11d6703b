import CmppProtocol.Connection.State

/-! # Configuration

The checks run one after the other and the first that fails gives its message.
A configuration that passes them all has the parameters that a connection needs.
-/

namespace CmppProtocol

def MAX_WINDOW_SIZE : ℕ := 16384
def CMPP_VERSION_20 : UInt8 := 0x20

/-- Durations are counted in nanoseconds. -/
def fromSecs (seconds : ℕ) : ℕ := seconds * 1000000000

structure CmppProtocolParams where
  heartbeatInterval : ℕ
  responseTimeout : ℕ
  retryCount : ℕ
  windowSize : ℕ
  connectTimeout : ℕ
  readIdleTimeout : ℕ
  verifyAuthenticator : Bool
  eventBackpressureTimeoutMs : ℕ
  eventSpoolCapacity : ℕ
  writeBatchMaxFrames : ℕ
  writeBatchMaxBytes : ℕ
  tcpKeepaliveSecs : Option ℕ
  tcpKeepaliveIntervalSecs : ℕ
  deriving DecidableEq, Repr

structure CmppConfig where
  host : String
  port : ℤ
  account : String
  password : String
  version : UInt8
  protocolParams : CmppProtocolParams
  deriving DecidableEq, Repr

/-- One check: a value that is rejected gives the message. -/
def reject (rejected : Bool) (message : String) : Except String Unit :=
  if rejected then .error message else .ok ()

/-- Seconds that are positive and fit in 32 bits as milliseconds. -/
def keepaliveSecsOk (seconds : ℕ) : Bool := 0 < seconds && seconds ≤ u32Max / 1000

namespace CmppProtocolParams

/-- `Default`. -/
def default : CmppProtocolParams where
  heartbeatInterval := 180
  responseTimeout := 60
  retryCount := 3
  windowSize := 16
  connectTimeout := 10
  readIdleTimeout := 300
  verifyAuthenticator := true
  eventBackpressureTimeoutMs := 1000
  eventSpoolCapacity := 256
  writeBatchMaxFrames := 64
  writeBatchMaxBytes := 65536
  tcpKeepaliveSecs := some 60
  tcpKeepaliveIntervalSecs := 10

variable (p : CmppProtocolParams)

def keepaliveRejected : Bool :=
  match p.tcpKeepaliveSecs with
  | some idle => !(keepaliveSecsOk idle && keepaliveSecsOk p.tcpKeepaliveIntervalSecs)
  | none => false

def validate : Except String Unit := do
  reject (p.heartbeatInterval = 0) "heartbeat_interval 不能为 0"
  reject (p.responseTimeout = 0) "response_timeout 不能为 0"
  reject (p.retryCount = 0) "retry_count 不能为 0"
  reject (p.windowSize = 0 || MAX_WINDOW_SIZE < p.windowSize)
    s!"window_size 必须在 1 到 {MAX_WINDOW_SIZE} 之间"
  reject (p.connectTimeout = 0) "connect_timeout 不能为 0"
  reject (p.readIdleTimeout = 0) "read_idle_timeout 不能为 0"
  reject (p.eventBackpressureTimeoutMs = 0) "event_backpressure_timeout_ms 不能为 0"
  reject (p.eventSpoolCapacity < 1 || MAX_WINDOW_SIZE < p.eventSpoolCapacity)
    "event_spool_capacity 必须在 1 到 16384 之间"
  reject (p.writeBatchMaxFrames < 1 || MAX_WINDOW_SIZE < p.writeBatchMaxFrames)
    "write_batch_max_frames 必须在 1 到 16384 之间"
  reject (p.writeBatchMaxBytes = 0) "write_batch_max_bytes 不能为 0"
  reject p.keepaliveRejected "TCP keepalive 秒数须为正且换算毫秒后不超过 u32 上限"

end CmppProtocolParams

/-- `CmppConfig::validate`. -/
def CmppConfig.validate (c : CmppConfig) : Except String Unit := do
  reject (c.host = "") "host 不能为空"
  reject (c.port < 1 || 65535 < c.port) "port 必须在 1 到 65535 之间"
  reject (c.account = "") "account 不能为空"
  reject (6 < (Utf8.bytes c.account).length) "account 长度不能超过 6 bytes"
  reject (c.password = "") "password 不能为空"
  reject (c.version ≠ CMPP_VERSION_20) "仅支持 CMPP 2.0（version 0x20）"
  c.protocolParams.validate

/-! ## What passes -/

variable {rejected : Bool} {message : String} {m : Except String Unit}

theorem reject_bind_ok_iff :
    (reject rejected message >>= fun _ => m) = .ok () ↔ rejected = false ∧ m = .ok () := by
  unfold reject
  cases rejected with
  | true => simp [Bind.bind, Except.bind]
  | false => simp [Bind.bind, Except.bind]

theorem reject_ok_iff : reject rejected message = .ok () ↔ rejected = false := by
  unfold reject
  cases rejected with
  | true => simp
  | false => simp

/-- Parameters within their bounds. -/
structure CmppProtocolParams.Valid (p : CmppProtocolParams) : Prop where
  heartbeatInterval : 0 < p.heartbeatInterval
  responseTimeout : 0 < p.responseTimeout
  retryCount : 0 < p.retryCount
  windowSize : 0 < p.windowSize ∧ p.windowSize ≤ MAX_WINDOW_SIZE
  connectTimeout : 0 < p.connectTimeout
  readIdleTimeout : 0 < p.readIdleTimeout
  eventBackpressureTimeoutMs : 0 < p.eventBackpressureTimeoutMs
  eventSpoolCapacity : 0 < p.eventSpoolCapacity ∧ p.eventSpoolCapacity ≤ MAX_WINDOW_SIZE
  writeBatchMaxFrames : 0 < p.writeBatchMaxFrames ∧ p.writeBatchMaxFrames ≤ MAX_WINDOW_SIZE
  writeBatchMaxBytes : 0 < p.writeBatchMaxBytes
  keepalive : ∀ idle, p.tcpKeepaliveSecs = some idle →
    keepaliveSecsOk idle = true ∧ keepaliveSecsOk p.tcpKeepaliveIntervalSecs = true

structure CmppConfig.Valid (c : CmppConfig) : Prop where
  host : c.host ≠ ""
  port : 1 ≤ c.port ∧ c.port ≤ 65535
  account : c.account ≠ "" ∧ (Utf8.bytes c.account).length ≤ 6
  password : c.password ≠ ""
  version : c.version = CMPP_VERSION_20
  protocolParams : c.protocolParams.Valid

theorem CmppProtocolParams.validate_ok_iff {p : CmppProtocolParams} :
    p.validate = .ok () ↔ p.Valid := by
  have hkeep : p.keepaliveRejected = false ↔ ∀ idle, p.tcpKeepaliveSecs = some idle →
      keepaliveSecsOk idle = true ∧ keepaliveSecsOk p.tcpKeepaliveIntervalSecs = true := by
    unfold keepaliveRejected
    cases p.tcpKeepaliveSecs with
    | none => simp
    | some idle => simp
  simp only [validate, reject_bind_ok_iff, reject_ok_iff, hkeep, decide_eq_false_iff_not,
    Bool.or_eq_false_iff, not_lt, Nat.one_le_iff_ne_zero, ← Nat.pos_iff_ne_zero]
  constructor
  · rintro ⟨h₁, h₂, h₃, h₄, h₅, h₆, h₇, h₈, h₉, h₁₀, h₁₁⟩
    exact ⟨h₁, h₂, h₃, h₄, h₅, h₆, h₇, h₈, h₉, h₁₀, h₁₁⟩
  · intro h
    exact ⟨h.heartbeatInterval, h.responseTimeout, h.retryCount, h.windowSize, h.connectTimeout,
      h.readIdleTimeout, h.eventBackpressureTimeoutMs, h.eventSpoolCapacity, h.writeBatchMaxFrames,
      h.writeBatchMaxBytes, h.keepalive⟩

theorem CmppConfig.validate_ok_iff {c : CmppConfig} : c.validate = .ok () ↔ c.Valid := by
  simp only [validate, reject_bind_ok_iff, CmppProtocolParams.validate_ok_iff,
    decide_eq_false_iff_not, Bool.or_eq_false_iff, not_lt, not_not]
  constructor
  · rintro ⟨h₁, h₂, h₃, h₄, h₅, h₆, h₇⟩
    exact ⟨h₁, h₂, ⟨h₃, h₄⟩, h₅, h₆, h₇⟩
  · intro h
    exact ⟨h.host, h.port, h.account.1, h.account.2, h.password, h.version, h.protocolParams⟩

theorem CmppProtocolParams.default_valid : default.Valid :=
  validate_ok_iff.mp rfl

/-- The check at the start of the login. What passed it carries its bounds. -/
def CmppConfig.checked (c : CmppConfig) : Except Error {c : CmppConfig // c.Valid} :=
  match h : c.validate with
  | .error message => .error (.config message)
  | .ok () => .ok ⟨c, validate_ok_iff.mp h⟩

theorem CmppConfig.checked_of_valid {c : CmppConfig} (h : c.Valid) : c.checked = .ok ⟨c, h⟩ := by
  unfold checked
  split
  · next message hrejected =>
    rw [validate_ok_iff.mpr h] at hrejected
    cases hrejected
  · rfl

theorem CmppConfig.checked_of_not_valid {c : CmppConfig} (h : ¬ c.Valid) :
    ∃ message, c.checked = .error (.config message) := by
  unfold checked
  split
  · exact ⟨_, rfl⟩
  · next hok => exact absurd (validate_ok_iff.mp hok) h

/-- What the tasks of the connection take from parameters that were checked. -/
def CmppProtocolParams.connectionConfig (p : CmppProtocolParams) (h : p.Valid) :
    ConnectionConfig where
  responseTimeout := fromSecs p.responseTimeout
  retryCount := p.retryCount
  windowSize := p.windowSize
  writeBatchMaxFrames := p.writeBatchMaxFrames
  writeBatchMaxBytes := p.writeBatchMaxBytes
  responseTimeout_pos := Nat.mul_pos h.responseTimeout (by decide)
  retryCount_pos := h.retryCount
  windowSize_pos := h.windowSize.1
  writeBatchMaxFrames_pos := h.writeBatchMaxFrames.1
  writeBatchMaxBytes_pos := h.writeBatchMaxBytes

/-- The spool has room for all batches that a full window is dropped in. -/
def CmppProtocolParams.spoolCapacity (p : CmppProtocolParams) : ℕ :=
  max p.eventSpoolCapacity (divCeil p.windowSize SUBMIT_DROPPED_BATCH_SIZE)

end CmppProtocol
