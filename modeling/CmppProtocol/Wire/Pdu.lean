import CmppProtocol.Wire.Octets

/-! # Protocol data units

The ten PDUs with their encoders and decoders. An encoder appends to a buffer
and aborts where a count does not fit in one octet.
-/

namespace CmppProtocol

open Fallible BodyReader

def CMPP_HEADER_LENGTH : ℕ := 12
def CMPP_MAX_MESSAGE_LENGTH : ℕ := 65536

def CMPP_CONNECT : UInt32 := 0x00000001
def CMPP_CONNECT_RESP : UInt32 := 0x80000001
def CMPP_TERMINATE : UInt32 := 0x00000002
def CMPP_TERMINATE_RESP : UInt32 := 0x80000002
def CMPP_SUBMIT : UInt32 := 0x00000004
def CMPP_SUBMIT_RESP : UInt32 := 0x80000004
def CMPP_DELIVER : UInt32 := 0x00000005
def CMPP_DELIVER_RESP : UInt32 := 0x80000005
def CMPP_ACTIVE_TEST : UInt32 := 0x00000008
def CMPP_ACTIVE_TEST_RESP : UInt32 := 0x80000008

structure CmppHeader where
  totalLength : UInt32
  commandId : UInt32
  sequenceId : UInt32
  deriving DecidableEq, Repr

/-- `u8::try_from(len).expect(..)`. -/
def expectU8 {σ : Type} (len : ℕ) : Fallible Error σ UInt8 :=
  if len < 256 then pure (.ofNat len) else abort

/-! ## Connect -/

structure Connect where
  sourceAddr : String
  authenticatorSource : Vector UInt8 16
  version : UInt8
  timestamp : UInt32
  deriving DecidableEq, Repr

namespace Connect

def encodeBody (p : Connect) (buf : List UInt8) : List UInt8 :=
  let buf := putOctetStr buf p.sourceAddr 6
  let buf := putSlice buf p.authenticatorSource.toList
  let buf := putU8 buf p.version
  putU32 buf p.timestamp

def decode : Fallible Error BodyReader Connect := do
  let sourceAddr ← octetStr 6
  let authenticatorSource ← takeArray 16
  let version ← u8
  let timestamp ← u32
  finish "CMPP_CONNECT"
  pure { sourceAddr, authenticatorSource, version, timestamp }

end Connect

structure ConnectResp where
  status : UInt8
  authenticatorIsmg : Vector UInt8 16
  version : UInt8
  deriving DecidableEq, Repr

namespace ConnectResp

def encodeBody (p : ConnectResp) (buf : List UInt8) : List UInt8 :=
  let buf := putU8 buf p.status
  let buf := putSlice buf p.authenticatorIsmg.toList
  putU8 buf p.version

def decode : Fallible Error BodyReader ConnectResp := do
  let status ← u8
  let authenticatorIsmg ← takeArray 16
  let version ← u8
  finish "CMPP_CONNECT_RESP"
  pure { status, authenticatorIsmg, version }

end ConnectResp

/-! ## Submit -/

/-- One segment of a message. -/
structure Submit where
  msgId : Vector UInt8 8
  pkTotal : UInt8
  pkNumber : UInt8
  registeredDelivery : UInt8
  msgLevel : UInt8
  serviceId : String
  feeUserType : UInt8
  feeTerminalId : String
  tpPid : UInt8
  tpUdhi : UInt8
  msgFmt : UInt8
  msgSrc : String
  feeType : String
  feeCode : String
  validTime : String
  atTime : String
  srcId : String
  destTerminalIds : List String
  msgContent : List UInt8
  deriving DecidableEq, Repr

namespace Submit

def validateEncode (p : Submit) : Except Error Unit :=
  if 255 < p.destTerminalIds.length then .error (.config "SUBMIT destination 数量超过 255")
  else if 255 < p.msgContent.length then
    .error (.config "SUBMIT Msg_Content 长度超过 255 bytes")
  else .ok ()

def encodeBody {σ : Type} (p : Submit) (buf : List UInt8) : Fallible Error σ (List UInt8) := do
  let buf := putSlice buf p.msgId.toList
  let buf := putU8 buf p.pkTotal
  let buf := putU8 buf p.pkNumber
  let buf := putU8 buf p.registeredDelivery
  let buf := putU8 buf p.msgLevel
  let buf := putOctetStr buf p.serviceId 10
  let buf := putU8 buf p.feeUserType
  let buf := putOctetStr buf p.feeTerminalId 21
  let buf := putU8 buf p.tpPid
  let buf := putU8 buf p.tpUdhi
  let buf := putU8 buf p.msgFmt
  let buf := putOctetStr buf p.msgSrc 6
  let buf := putOctetStr buf p.feeType 2
  let buf := putOctetStr buf p.feeCode 6
  let buf := putOctetStr buf p.validTime 17
  let buf := putOctetStr buf p.atTime 17
  let buf := putOctetStr buf p.srcId 21
  let buf := putU8 buf (← expectU8 p.destTerminalIds.length)
  let buf := p.destTerminalIds.foldl (fun buf d => putOctetStr buf d 21) buf
  let buf := putU8 buf (← expectU8 p.msgContent.length)
  let buf := putSlice buf p.msgContent
  pure (putSlice buf (List.replicate 8 0))

def decode : Fallible Error BodyReader Submit := do
  let msgId ← takeArray 8
  let pkTotal ← u8
  let pkNumber ← u8
  let registeredDelivery ← u8
  let msgLevel ← u8
  let serviceId ← octetStr 10
  let feeUserType ← u8
  let feeTerminalId ← octetStr 21
  let tpPid ← u8
  let tpUdhi ← u8
  let msgFmt ← u8
  let msgSrc ← octetStr 6
  let feeType ← octetStr 2
  let feeCode ← octetStr 6
  let validTime ← octetStr 17
  let atTime ← octetStr 17
  let srcId ← octetStr 21
  let destCount ← u8
  let count := destCount.toNat
  match (checkedMul count 21).bind fun destBytes => checkedAdd destBytes (1 + 8) with
  | none => fail (.decode "CMPP_SUBMIT destination 长度溢出")
  | some minimumRemaining =>
    let left ← remaining
    if left < minimumRemaining then
      fail (.decode s!"CMPP_SUBMIT destination 数量与 body 长度不匹配: count={count}")
    else
      let destTerminalIds ← collect (octetStr 21) count
      let msgLength ← u8
      let msgContent ← take msgLength.toNat
      let _ ← take 8
      finish "CMPP_SUBMIT"
      pure {
        msgId, pkTotal, pkNumber, registeredDelivery, msgLevel, serviceId, feeUserType,
        feeTerminalId, tpPid, tpUdhi, msgFmt, msgSrc, feeType, feeCode, validTime, atTime,
        srcId, destTerminalIds, msgContent }

end Submit

structure SubmitResp where
  msgId : Vector UInt8 8
  result : UInt8
  deriving DecidableEq, Repr

namespace SubmitResp

def encodeBody (p : SubmitResp) (buf : List UInt8) : List UInt8 :=
  let buf := putSlice buf p.msgId.toList
  putU8 buf p.result

def decode : Fallible Error BodyReader SubmitResp := do
  let msgId ← takeArray 8
  let result ← u8
  finish "CMPP_SUBMIT_RESP"
  pure { msgId, result }

end SubmitResp

/-! ## Deliver -/

structure Deliver where
  msgId : Vector UInt8 8
  destId : String
  serviceId : String
  tpPid : UInt8
  tpUdhi : UInt8
  msgFmt : UInt8
  srcTerminalId : String
  registeredDelivery : UInt8
  msgContent : List UInt8
  deriving DecidableEq, Repr

namespace Deliver

def validateEncode (p : Deliver) : Except Error Unit :=
  if 255 < p.msgContent.length then .error (.config "DELIVER Msg_Content 长度超过 255 bytes")
  else .ok ()

def encodeBody {σ : Type} (p : Deliver) (buf : List UInt8) : Fallible Error σ (List UInt8) := do
  let buf := putSlice buf p.msgId.toList
  let buf := putOctetStr buf p.destId 21
  let buf := putOctetStr buf p.serviceId 10
  let buf := putU8 buf p.tpPid
  let buf := putU8 buf p.tpUdhi
  let buf := putU8 buf p.msgFmt
  let buf := putOctetStr buf p.srcTerminalId 21
  let buf := putU8 buf p.registeredDelivery
  let buf := putU8 buf (← expectU8 p.msgContent.length)
  let buf := putSlice buf p.msgContent
  pure (putSlice buf (List.replicate 8 0))

def decode : Fallible Error BodyReader Deliver := do
  let msgId ← takeArray 8
  let destId ← octetStr 21
  let serviceId ← octetStr 10
  let tpPid ← u8
  let tpUdhi ← u8
  let msgFmt ← u8
  let srcTerminalId ← octetStr 21
  let registeredDelivery ← u8
  let msgLength ← u8
  let msgContent ← take msgLength.toNat
  let _ ← take 8
  finish "CMPP_DELIVER"
  pure {
    msgId, destId, serviceId, tpPid, tpUdhi, msgFmt, srcTerminalId, registeredDelivery,
    msgContent }

end Deliver

structure DeliverResp where
  msgId : Vector UInt8 8
  result : UInt8
  deriving DecidableEq, Repr

namespace DeliverResp

def encodeBody (p : DeliverResp) (buf : List UInt8) : List UInt8 :=
  let buf := putSlice buf p.msgId.toList
  putU8 buf p.result

def decode : Fallible Error BodyReader DeliverResp := do
  let msgId ← takeArray 8
  let result ← u8
  finish "CMPP_DELIVER_RESP"
  pure { msgId, result }

end DeliverResp

/-! ## Pdu -/

inductive Pdu
  | connect (p : Connect)
  | connectResp (p : ConnectResp)
  | submit (p : Submit)
  | submitResp (p : SubmitResp)
  | deliver (p : Deliver)
  | deliverResp (p : DeliverResp)
  | activeTest
  | activeTestResp
  | terminate
  | terminateResp
  deriving DecidableEq, Repr

structure Frame where
  sequenceId : UInt32
  pdu : Pdu
  deriving DecidableEq, Repr

/-- `{:x}` of the lowest hexadecimal digits, the last argument their number. -/
def hexDigits (n : ℕ) : ℕ → String
  | 0 => ""
  | digits + 1 => hexDigits (n / 16) digits ++ String.singleton (Nat.digitChar (n % 16))

namespace Pdu

def commandId : Pdu → UInt32
  | connect _ => CMPP_CONNECT
  | connectResp _ => CMPP_CONNECT_RESP
  | submit _ => CMPP_SUBMIT
  | submitResp _ => CMPP_SUBMIT_RESP
  | deliver _ => CMPP_DELIVER
  | deliverResp _ => CMPP_DELIVER_RESP
  | activeTest => CMPP_ACTIVE_TEST
  | activeTestResp => CMPP_ACTIVE_TEST_RESP
  | terminate => CMPP_TERMINATE
  | terminateResp => CMPP_TERMINATE_RESP

def validateEncode : Pdu → Except Error Unit
  | submit p => p.validateEncode
  | deliver p => p.validateEncode
  | _ => .ok ()

def encodeBody {σ : Type} (pdu : Pdu) (buf : List UInt8) : Fallible Error σ (List UInt8) :=
  match pdu with
  | connect p => pure (p.encodeBody buf)
  | connectResp p => pure (p.encodeBody buf)
  | submit p => p.encodeBody buf
  | submitResp p => pure (p.encodeBody buf)
  | deliver p => p.encodeBody buf
  | deliverResp p => pure (p.encodeBody buf)
  | activeTest | terminate | terminateResp => pure buf
  | activeTestResp => pure (putU8 buf 0)

/-- Write a frame at the end of the buffer: the length is patched in when the body is there. -/
def encodeFrameInto (commandId sequenceId : UInt32)
    (encodeBody : List UInt8 → Fallible Error (List UInt8) (List UInt8)) :
    Fallible Error (List UInt8) Unit := do
  let dst ← state
  let start := dst.length
  let dst := putU32 dst 0
  let dst := putU32 dst commandId
  let dst := putU32 dst sequenceId
  let dst ← encodeBody dst
  let totalLength : UInt32 := .ofNat (dst.length - start)
  if start + 4 ≤ dst.length then
    put (dst.take start ++ toBeBytes totalLength ++ dst.drop (start + 4))
  else abort

def tryEncodeInto (pdu : Pdu) (sequenceId : UInt32) : Fallible Error (List UInt8) Unit :=
  match pdu.validateEncode with
  | .error e => fail e
  | .ok () => encodeFrameInto pdu.commandId sequenceId pdu.encodeBody

def decode {σ : Type} (header : CmppHeader) (body : List UInt8) : Fallible Error σ Pdu :=
  let commandId := header.commandId
  if commandId = CMPP_CONNECT then connect <$> run Connect.decode body
  else if commandId = CMPP_CONNECT_RESP then connectResp <$> run ConnectResp.decode body
  else if commandId = CMPP_SUBMIT then submit <$> run Submit.decode body
  else if commandId = CMPP_SUBMIT_RESP then submitResp <$> run SubmitResp.decode body
  else if commandId = CMPP_DELIVER then deliver <$> run Deliver.decode body
  else if commandId = CMPP_DELIVER_RESP then deliverResp <$> run DeliverResp.decode body
  else if commandId = CMPP_ACTIVE_TEST then do
    requireBodyLen body 0 "CMPP_ACTIVE_TEST"
    pure activeTest
  else if commandId = CMPP_ACTIVE_TEST_RESP then do
    requireBodyLen body 1 "CMPP_ACTIVE_TEST_RESP"
    pure activeTestResp
  else if commandId = CMPP_TERMINATE then do
    requireBodyLen body 0 "CMPP_TERMINATE"
    pure terminate
  else if commandId = CMPP_TERMINATE_RESP then do
    requireBodyLen body 0 "CMPP_TERMINATE_RESP"
    pure terminateResp
  else
    let digits := hexDigits commandId.toNat 8
    fail (.decode s!"未知 command id 0x{digits}")

end Pdu

/-! ## Frames in a byte stream -/

namespace CmppFrameCodec

def lengthInRange (totalLength : ℕ) : Bool :=
  CMPP_HEADER_LENGTH ≤ totalLength && totalLength ≤ CMPP_MAX_MESSAGE_LENGTH

def lengthError (totalLength : ℕ) : Error :=
  .decode
    s!"message length 无效: {totalLength}，期望范围 [{CMPP_HEADER_LENGTH}, {CMPP_MAX_MESSAGE_LENGTH}]"

/-- Take one frame off the buffer; `none` asks for more bytes. -/
def decode : Fallible Error (List UInt8) (Option Frame) := do
  let src ← state
  if src.length < CMPP_HEADER_LENGTH then pure none
  else
    let total ← fromBeBytes <$> index src 0 <*> index src 1 <*> index src 2 <*> index src 3
    let totalLength := total.toNat
    if ¬ lengthInRange totalLength then fail (lengthError totalLength)
    else if src.length < totalLength then pure none
    else
      let commandId ← fromBeBytes <$> index src 4 <*> index src 5 <*> index src 6 <*> index src 7
      let sequenceId ←
        fromBeBytes <$> index src 8 <*> index src 9 <*> index src 10 <*> index src 11
      let raw ← slice src 0 totalLength
      put (src.drop totalLength)
      let body ← slice raw CMPP_HEADER_LENGTH raw.length
      let pdu ← Pdu.decode { totalLength := total, commandId, sequenceId } body
      pure (some ⟨sequenceId, pdu⟩)

def encode (item : Frame) : Fallible Error (List UInt8) Unit :=
  item.pdu.tryEncodeInto item.sequenceId

end CmppFrameCodec

end CmppProtocol
