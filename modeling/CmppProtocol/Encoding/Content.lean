import CmppProtocol.Error
import CmppProtocol.Library.Fallible
import CmppProtocol.Library.Greedy
import CmppProtocol.Library.Utf16

/-! # Message content

Content is sent as ASCII or UCS2. What does not fit in one message is cut into
segments with a six-octet header. The plan counts the segments in one pass and
computes their byte ranges in a second one.
-/

namespace CmppProtocol

open Fallible

def MSG_FMT_ASCII : UInt8 := 0
def MSG_FMT_UCS2 : UInt8 := 8
def MSG_FMT_GBK : UInt8 := 15

def SINGLE_MAX_BYTES : ℕ := 140
def MULTIPART_MAX_BYTES : ℕ := 134

inductive SmsEncoding
  | ascii
  | ucs2
  | gbk
  deriving DecidableEq, Repr

def SmsEncoding.msgFmt : SmsEncoding → UInt8
  | ascii => MSG_FMT_ASCII
  | ucs2 => MSG_FMT_UCS2
  | gbk => MSG_FMT_GBK

/-- The GBK coder and decoder, which an outside library supplies. -/
structure Gbk where
  encode : String → List UInt8
  decode : List UInt8 → String

structure SmsSegment where
  msgFmt : UInt8
  tpUdhi : UInt8
  pkTotal : UInt8
  pkNumber : UInt8
  content : List UInt8
  deriving DecidableEq, Repr

structure SubmitContentPlan where
  content : String
  encoding : SmsEncoding
  ranges : List (ℕ × ℕ)
  preferredRef : Option UInt8

def chooseEncoding (content : String) : SmsEncoding :=
  if content.toList.all fun c => c.toNat < 128 then .ascii else .ucs2

def encodeContent (gbk : Gbk) (content : String) : SmsEncoding → List UInt8
  | .ascii => content.toList.map fun c => .ofNat c.toNat
  | .ucs2 => (Utf16.encode content.toList).flatMap fun u => [.ofNat (u.toNat / 256), .ofNat u.toNat]
  | .gbk => gbk.encode content

/-- Pairs of bytes as big-endian units; a single last byte is left out. -/
def utf16Units : List UInt8 → List UInt16
  | b₀ :: b₁ :: rest => .ofNat (b₀.toNat * 256 + b₁.toNat) :: utf16Units rest
  | _ => []

def decodeMsgContent (gbk : Gbk) (msgFmt tpUdhi : UInt8) (content : List UInt8) : String :=
  let payload := if tpUdhi = 1 ∧ 6 < content.length then content.drop 6 else content
  if msgFmt = MSG_FMT_ASCII then Utf8.ofBytesLossy payload
  else if msgFmt = MSG_FMT_UCS2 then
    if payload.length % 2 ≠ 0 then Utf8.ofBytesLossy payload
    else .ofList (Utf16.decodeLossy (utf16Units payload))
  else if msgFmt = MSG_FMT_GBK then gbk.decode payload
  else Utf8.ofBytesLossy payload

namespace SubmitContentPlan

/-- A text slice, which aborts when its ends are not between characters. -/
def sliceText {σ : Type} (content : String) (start stop : ℕ) : Fallible Error σ String :=
  match Utf8.slice content.toList start stop with
  | some cs => pure (.ofList cs)
  | none => abort

def tryU8 {σ : Type} (n : ℕ) (message : String) : Fallible Error σ UInt8 :=
  if n < 256 then pure (.ofNat n) else fail (.config message)

def segment {σ : Type} (gbk : Gbk) (plan : SubmitContentPlan) (index : ℕ)
    (reference : Option UInt8) : Fallible Error σ SmsSegment :=
  match plan.ranges[index]? with
  | none => fail (.config "SMS segment 序号越界")
  | some (start, stop) => do
    let text ← sliceText plan.content start stop
    let encoded := encodeContent gbk text plan.encoding
    if plan.ranges.length = 1 then
      pure {
        msgFmt := plan.encoding.msgFmt, tpUdhi := 0, pkTotal := 1, pkNumber := 1,
        content := encoded }
    else
      let total ← tryU8 plan.ranges.length "long SMS segment 数量超过 255"
      let seq ← tryU8 (index + 1) "long SMS segment 序号超过 255"
      match reference.or plan.preferredRef with
      | none => fail (.config "long SMS 缺少 UDH reference")
      | some reference =>
        pure {
          msgFmt := plan.encoding.msgFmt, tpUdhi := 1, pkTotal := total, pkNumber := seq,
          content := [0x05, 0x00, 0x03, reference, total, seq] ++ encoded }

end SubmitContentPlan

/-! ## The two passes -/

def totalBytes {σ : Type} (content : String) : SmsEncoding → Fallible Error σ ℕ
  | .ascii => pure (Utf8.size content.toList)
  | .ucs2 => pure (content.toList.map fun c => Utf16.len c * 2).sum
  | .gbk => abort

/-- `usize::div_ceil`. -/
def divCeil (a b : ℕ) : ℕ := if a % b = 0 then a / b else a / b + 1

/-- The counting pass over one character: segments so far, bytes in the last one. -/
def countStep : ℕ × ℕ → Char → ℕ × ℕ
  | (count, currentBytes), c =>
    let encodedLen := Utf16.len c * 2
    if currentBytes ≠ 0 ∧ MULTIPART_MAX_BYTES < currentBytes + encodedLen then
      (count + 1, 0 + encodedLen)
    else (count, currentBytes + encodedLen)

def segmentCount {σ : Type} (content : String) (encoding : SmsEncoding) (total : ℕ) :
    Fallible Error σ ℕ :=
  if total ≤ SINGLE_MAX_BYTES then pure 1
  else
    match encoding with
    | .ascii => pure (divCeil total MULTIPART_MAX_BYTES)
    | .ucs2 => pure (content.toList.foldl countStep (1, 0)).1
    | .gbk => abort

/-- The range of one chunk: the ranges so far and where the next one starts. -/
def chunkStep : List (ℕ × ℕ) × ℕ → List UInt8 → List (ℕ × ℕ) × ℕ
  | (ranges, start), chunk => (ranges ++ [(start, start + chunk.length)], start + chunk.length)

/-- The second pass over one character: ranges, start and bytes of the last segment. -/
def rangeStep : List (ℕ × ℕ) × ℕ × ℕ → ℕ × Char → List (ℕ × ℕ) × ℕ × ℕ
  | (ranges, start, currentBytes), (offset, c) =>
    let encodedLen := Utf16.len c * 2
    if currentBytes ≠ 0 ∧ MULTIPART_MAX_BYTES < currentBytes + encodedLen then
      (ranges ++ [(start, offset)], offset, 0 + encodedLen)
    else (ranges, start, currentBytes + encodedLen)

def segmentRanges {σ : Type} (content : String) (encoding : SmsEncoding) (total : ℕ) :
    Fallible Error σ (List (ℕ × ℕ)) :=
  if total ≤ SINGLE_MAX_BYTES then pure [(0, Utf8.size content.toList)]
  else
    match encoding with
    | .ascii =>
      pure ((Greedy.chunks MULTIPART_MAX_BYTES (Utf8.bytes content)).foldl chunkStep ([], 0)).1
    | .ucs2 =>
      let (ranges, start, _) := (Utf8.charIndices 0 content.toList).foldl rangeStep ([], 0, 0)
      pure (ranges ++ [(start, Utf8.size content.toList)])
    | .gbk => abort

/-- The state is the rolling reference counter, which only a long message advances. -/
def prepareSubmitContent (content : String) : Fallible Error UInt32 SubmitContentPlan := do
  let encoding := chooseEncoding content
  let total ← totalBytes content encoding
  let count ← segmentCount content encoding total
  if 255 < count then fail (.config "long SMS segment 数量超过 255")
  else
    let ranges ← segmentRanges content encoding total
    if 1 < ranges.length then
      let counter ← state
      put (counter + 1)
      pure { content, encoding, ranges, preferredRef := some (counter &&& 0xFF).toUInt8 }
    else pure { content, encoding, ranges, preferredRef := none }

def trySplitContent (gbk : Gbk) (content : String) : Fallible Error UInt32 (List SmsSegment) := do
  let plan ← prepareSubmitContent content
  forEach (fun index => plan.segment gbk index plan.preferredRef) (List.range plan.ranges.length)

end CmppProtocol
