import CmppProtocol.Library.Utf8
import Mathlib.Tactic.SplitIfs

/-! # UTF-16 units of text

A character takes one unit or a pair of surrogates. Reading units back replaces
every surrogate that is not part of a pair.
-/

namespace Utf16

def len (c : Char) : ℕ := if c.toNat < 0x10000 then 1 else 2

def encodeChar (c : Char) : List UInt16 :=
  if c.toNat < 0x10000 then [.ofNat c.toNat]
  else [.ofNat (0xD800 + (c.toNat - 0x10000) / 0x400),
    .ofNat (0xDC00 + (c.toNat - 0x10000) % 0x400)]

def encode (cs : List Char) : List UInt16 := cs.flatMap encodeChar

def isSurrogate (u : UInt16) : Bool := 0xD800 ≤ u.toNat && u.toNat < 0xE000

def isLow (u : UInt16) : Bool := 0xDC00 ≤ u.toNat && u.toNat < 0xE000

/-- The character of a pair of surrogates. -/
def combine (u v : UInt16) : Char :=
  .ofNat (0x10000 + (u.toNat - 0xD800) * 0x400 + (v.toNat - 0xDC00))

def decodeLossy : List UInt16 → List Char
  | [] => []
  | [u] => if isSurrogate u then [Utf8.replacement] else [.ofNat u.toNat]
  | u :: v :: us =>
    if isSurrogate u then
      if isLow u || !isLow v then Utf8.replacement :: decodeLossy (v :: us)
      else combine u v :: decodeLossy us
    else .ofNat u.toNat :: decodeLossy (v :: us)

variable {c : Char} {u : UInt16}

theorem length_encodeChar (c : Char) : (encodeChar c).length = len c := by
  unfold encodeChar len
  split_ifs <;> rfl

@[simp] theorem encode_nil : encode [] = [] := rfl

@[simp] theorem encode_cons (c : Char) (cs : List Char) :
    encode (c :: cs) = encodeChar c ++ encode cs := rfl

theorem len_pos (c : Char) : 0 < len c := by
  unfold len
  split_ifs <;> decide

theorem len_le (c : Char) : len c ≤ 2 := by
  unfold len
  split_ifs <;> decide

theorem toNat_cases (c : Char) : c.toNat < 0xD800 ∨ 0xDFFF < c.toNat ∧ c.toNat < 0x110000 := c.valid

theorem decodeLossy_unit (h : isSurrogate u = false) (us : List UInt16) :
    decodeLossy (u :: us) = .ofNat u.toNat :: decodeLossy us := by
  cases us <;> simp [decodeLossy, h]

theorem decodeLossy_encodeChar_append (c : Char) (us : List UInt16) :
    decodeLossy (encodeChar c ++ us) = c :: decodeLossy us := by
  have hc := toNat_cases c
  unfold encodeChar
  split_ifs with hlt
  · have hu : (UInt16.ofNat c.toNat).toNat = c.toNat := UInt16.toNat_ofNat_of_lt' hlt
    have hs : isSurrogate (.ofNat c.toNat) = false := by
      simp only [isSurrogate, hu, Bool.and_eq_false_iff, decide_eq_false_iff_not]
      omega
    rw [List.singleton_append, decodeLossy_unit hs, hu, Char.ofNat_toNat]
  · have hhi : (UInt16.ofNat (0xD800 + (c.toNat - 0x10000) / 0x400)).toNat =
        0xD800 + (c.toNat - 0x10000) / 0x400 :=
      UInt16.toNat_ofNat_of_lt' (by unfold UInt16.size; omega)
    have hlo : (UInt16.ofNat (0xDC00 + (c.toNat - 0x10000) % 0x400)).toNat =
        0xDC00 + (c.toNat - 0x10000) % 0x400 :=
      UInt16.toNat_ofNat_of_lt' (by unfold UInt16.size; omega)
    have hs : isSurrogate (.ofNat (0xD800 + (c.toNat - 0x10000) / 0x400)) = true := by
      simp only [isSurrogate, hhi, Bool.and_eq_true, decide_eq_true_eq]
      omega
    have hl : isLow (.ofNat (0xD800 + (c.toNat - 0x10000) / 0x400)) = false := by
      simp only [isLow, hhi, Bool.and_eq_false_iff, decide_eq_false_iff_not]
      omega
    have hl' : isLow (.ofNat (0xDC00 + (c.toNat - 0x10000) % 0x400)) = true := by
      simp only [isLow, hlo, Bool.and_eq_true, decide_eq_true_eq]
      omega
    have hcomb : combine (.ofNat (0xD800 + (c.toNat - 0x10000) / 0x400))
        (.ofNat (0xDC00 + (c.toNat - 0x10000) % 0x400)) = c := by
      have hval : 0x10000 + (0xD800 + (c.toNat - 0x10000) / 0x400 - 0xD800) * 0x400 +
          (0xDC00 + (c.toNat - 0x10000) % 0x400 - 0xDC00) = c.toNat := by omega
      rw [combine, hhi, hlo, hval, Char.ofNat_toNat]
    simp only [List.cons_append, List.nil_append, decodeLossy, hs, if_true, hl, hl', Bool.not_true,
      Bool.or_self, Bool.false_eq_true, if_false, hcomb]

/-- Well-formed units are read back exactly. -/
theorem decodeLossy_encode (cs : List Char) : decodeLossy (encode cs) = cs := by
  induction cs with
  | nil => rfl
  | cons c cs ih => rw [encode_cons, decodeLossy_encodeChar_append, ih]

end Utf16
