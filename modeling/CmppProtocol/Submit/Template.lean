import CmppProtocol.Encoding.Content
import CmppProtocol.Wire.Pdu

/-! # SUBMIT templates

The options of a message give one template; each segment overwrites the fields
that differ from segment to segment, and the result is encoded as one frame.
-/

namespace CmppProtocol

open Fallible

structure SubmitOptions where
  serviceId : String
  msgSrc : String
  srcId : String
  destTerminalIds : List String
  registeredDelivery : UInt8
  msgLevel : UInt8
  feeUserType : UInt8
  feeTerminalId : String
  feeType : String
  feeCode : String
  tpPid : UInt8
  validTime : String
  atTime : String
  deriving DecidableEq, Repr

namespace SubmitOptions

def new (serviceId msgSrc srcId destTerminalId : String) : SubmitOptions where
  serviceId := serviceId
  msgSrc := msgSrc
  srcId := srcId
  destTerminalIds := [destTerminalId]
  registeredDelivery := 1
  msgLevel := 0
  feeUserType := 2
  feeTerminalId := ""
  feeType := "01"
  feeCode := "000000"
  tpPid := 0
  validTime := ""
  atTime := ""

def buildSubmitTemplate (options : SubmitOptions) : Submit where
  msgId := .replicate 8 0
  pkTotal := 1
  pkNumber := 1
  registeredDelivery := options.registeredDelivery
  msgLevel := options.msgLevel
  serviceId := options.serviceId
  feeUserType := options.feeUserType
  feeTerminalId := options.feeTerminalId
  tpPid := options.tpPid
  tpUdhi := 0
  msgFmt := 0
  msgSrc := options.msgSrc
  feeType := options.feeType
  feeCode := options.feeCode
  validTime := options.validTime
  atTime := options.atTime
  srcId := options.srcId
  destTerminalIds := options.destTerminalIds
  msgContent := []

end SubmitOptions

namespace Submit

variable {template : Submit} {segment : SmsSegment}

def applySegment (submit : Submit) (segment : SmsSegment) : Submit :=
  { submit with
    pkTotal := segment.pkTotal
    pkNumber := segment.pkNumber
    tpUdhi := segment.tpUdhi
    msgFmt := segment.msgFmt
    msgContent := segment.content }

/-- Nothing of an earlier segment survives in a later one. -/
@[simp] theorem applySegment_applySegment (later : SmsSegment) :
    (template.applySegment segment).applySegment later = template.applySegment later := rfl

/-- The frame of a SUBMIT, in a buffer of its own. -/
def tryEncode {σ : Type} (submit : Submit) (sequenceId : UInt32) :
    Fallible Error σ (List UInt8) :=
  match submit.validateEncode with
  | .error e => fail e
  | .ok () =>
    match Pdu.encodeFrameInto CMPP_SUBMIT sequenceId submit.encodeBody [] with
    | some (.ok _, out) => pure out
    | some (.error e, _) => fail e
    | none => abort

end Submit

namespace SubmitOptions

def buildSubmitFromSegment (options : SubmitOptions) (segment : SmsSegment) : Submit :=
  options.buildSubmitTemplate.applySegment segment

def tryBuildSubmits (gbk : Gbk) (options : SubmitOptions) (content : String) :
    Fallible Error UInt32 (List Submit) :=
  if 255 < options.destTerminalIds.length then fail (.config "SUBMIT destination 数量超过 255")
  else do
    let segments ← trySplitContent gbk content
    pure (segments.map options.buildSubmitFromSegment)

end SubmitOptions

/-- The segments of one call, written one after another over the same template: each result is
the template as it is encoded and its frame. -/
def encodeSegments {σ : Type} (gbk : Gbk) (plan : SubmitContentPlan) (reference : Option UInt8)
    (sequenceIds : ℕ → UInt32) : Submit → List ℕ → Fallible Error σ (List (Submit × List UInt8))
  | _, [] => pure []
  | template, index :: indices => do
    let segment ← plan.segment gbk index reference
    let template := template.applySegment segment
    let bytes ← template.tryEncode (sequenceIds index)
    let later ← encodeSegments gbk plan reference sequenceIds template indices
    pure ((template, bytes) :: later)

end CmppProtocol
