import CmppProtocol.Error
import CmppProtocol.Library.Cursor
import CmppProtocol.Library.Utf8
import Mathlib.Data.List.DropRight

/-! # Octets, text fields and the body reader

Numbers are big-endian. A text field has a fixed width: the writer truncates or
pads with NUL, the reader strips trailing NULs and spaces. The body reader
checks every length; its slices and conversions abort when they do not fit.
-/

namespace CmppProtocol

open Fallible

def usizeMax : ℕ := 18446744073709551615

def checkedAdd (x y : ℕ) : Option ℕ := if x + y ≤ usizeMax then some (x + y) else none

def checkedMul (x y : ℕ) : Option ℕ := if x * y ≤ usizeMax then some (x * y) else none

/-! ## Writing -/

def putSlice (buf bytes : List UInt8) : List UInt8 := buf ++ bytes

def putU8 (buf : List UInt8) (b : UInt8) : List UInt8 := buf ++ [b]

/-- `u32::to_be_bytes`. -/
def toBeBytes (x : UInt32) : List UInt8 :=
  [.ofNat (x.toNat / 16777216), .ofNat (x.toNat / 65536), .ofNat (x.toNat / 256), .ofNat x.toNat]

def putU32 (buf : List UInt8) (x : UInt32) : List UInt8 := buf ++ toBeBytes x

def putOctetStr (buf : List UInt8) (s : String) (len : ℕ) : List UInt8 :=
  let bytes := Utf8.bytes s
  let n := min bytes.length len
  putSlice buf (bytes.take n) ++ List.replicate (len - n) 0

/-! ## Reading -/

/-- `u32::from_be_bytes`. -/
def fromBeBytes (b₀ b₁ b₂ b₃ : UInt8) : UInt32 :=
  .ofNat (b₀.toNat * 16777216 + b₁.toNat * 65536 + b₂.toNat * 256 + b₃.toNat)

def isPadding (b : UInt8) : Bool := b == 0 || b == 32

def readOctetStr (bytes : List UInt8) : String :=
  Utf8.ofBytesLossy (bytes.rdropWhile isPadding)

def requireBodyLen {σ : Type} (body : List UInt8) (expected : ℕ) (pdu : String) :
    Fallible Error σ Unit :=
  let actual := body.length
  if actual ≠ expected then fail (.decode s!"{pdu} body 长度无效: 期望 {expected}，实际 {actual}")
  else pure ()

abbrev BodyReader := Cursor UInt8

namespace BodyReader

def new (buf : List UInt8) : BodyReader := ⟨buf, 0⟩

/-- Run a decoder on a body with a reader of its own. -/
def run {σ α : Type} (m : Fallible Error BodyReader α) (body : List UInt8) : Fallible Error σ α :=
  fun s => (m (new body)).map fun r => (r.1, s)

def take (n : ℕ) : Fallible Error BodyReader (List UInt8) := do
  let r ← state
  let start := r.pos
  match checkedAdd start n with
  | none => fail (.decode "body offset 溢出")
  | some stop =>
    let length := r.buf.length
    if length < stop then
      fail (.decode s!"body 意外结束: 需要 {n} bytes（offset {start}），实际有 {length}")
    else
      put { r with pos := stop }
      slice r.buf start stop

def u8 : Fallible Error BodyReader UInt8 := do
  let bytes ← take 1
  index bytes 0

def u32 : Fallible Error BodyReader UInt32 := do
  let b ← take 4
  let b₀ ← index b 0
  let b₁ ← index b 1
  let b₂ ← index b 2
  let b₃ ← index b 3
  pure (fromBeBytes b₀ b₁ b₂ b₃)

/-- The subtraction aborts when the position lies behind the buffer. -/
def remaining : Fallible Error BodyReader ℕ := do
  let r ← state
  if r.pos ≤ r.buf.length then pure (r.buf.length - r.pos) else abort

def finish (pdu : String) : Fallible Error BodyReader Unit := do
  let r ← state
  if r.pos ≠ r.buf.length then
    let trailing ← remaining
    fail (.decode s!"{pdu} body 存在 {trailing} 个尾随 bytes")
  else pure ()

/-- `take(n)?.try_into().unwrap()`. -/
def takeArray (n : ℕ) : Fallible Error BodyReader (Vector UInt8 n) := do
  let bytes ← take n
  array n bytes

def octetStr (n : ℕ) : Fallible Error BodyReader String := do
  let bytes ← take n
  pure (readOctetStr bytes)

end BodyReader

end CmppProtocol
