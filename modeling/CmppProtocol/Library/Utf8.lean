import Mathlib.Data.List.Basic

/-! # UTF-8 bytes of text

Text is a list of characters; its bytes are the concatenated encodings. Reading
bytes back replaces every maximal ill-formed part by the replacement character.
-/

namespace Utf8

variable {c : Char} {cs : List Char} {bs xs : List UInt8} {skip : ℕ}

def encode (cs : List Char) : List UInt8 := cs.flatMap String.utf8EncodeChar

/-- The character whose encoding the bytes start with. -/
def decodeChar? (bs : List UInt8) : Option Char := bs.toByteArray.utf8DecodeChar? 0

def replacement : Char := Char.ofNat 0xFFFD

def isContinuation (b : UInt8) : Bool := 0x80 ≤ b && b ≤ 0xBF

/-- The second byte can follow the first one of a sequence of three or four. -/
def isSecond (b₀ b₁ : UInt8) : Bool :=
  (b₀ == 0xE0 && 0xA0 ≤ b₁ && b₁ ≤ 0xBF) || (0xE1 ≤ b₀ && b₀ ≤ 0xEC && isContinuation b₁) ||
  (b₀ == 0xED && 0x80 ≤ b₁ && b₁ ≤ 0x9F) || (0xEE ≤ b₀ && b₀ ≤ 0xEF && isContinuation b₁) ||
  (b₀ == 0xF0 && 0x90 ≤ b₁ && b₁ ≤ 0xBF) || (0xF1 ≤ b₀ && b₀ ≤ 0xF3 && isContinuation b₁) ||
  (b₀ == 0xF4 && 0x80 ≤ b₁ && b₁ ≤ 0x8F)

/-- The number of bytes replaced together where no character can be read. -/
def illFormedLength : List UInt8 → ℕ
  | b₀ :: b₁ :: b₂ :: _ =>
    if isSecond b₀ b₁ then if 0xF0 ≤ b₀ && isContinuation b₂ then 3 else 2 else 1
  | [b₀, b₁] => if isSecond b₀ b₁ then 2 else 1
  | _ => 1

/-- Decode after skipping bytes that belong to what was read before. -/
def decodeLossyFrom : ℕ → List UInt8 → List Char
  | _, [] => []
  | skip + 1, _ :: bs => decodeLossyFrom skip bs
  | 0, b :: bs =>
    match decodeChar? (b :: bs) with
    | some c => c :: decodeLossyFrom (c.utf8Size - 1) bs
    | none => replacement :: decodeLossyFrom (illFormedLength (b :: bs) - 1) bs

def decodeLossy (bs : List UInt8) : List Char := decodeLossyFrom 0 bs

@[simp] theorem encode_nil : encode [] = [] := rfl

@[simp] theorem encode_cons (c : Char) (cs : List Char) :
    encode (c :: cs) = String.utf8EncodeChar c ++ encode cs := rfl

theorem encode_append (cs ds : List Char) : encode (cs ++ ds) = encode cs ++ encode ds :=
  List.flatMap_append

theorem decodeChar?_encodeChar_append (c : Char) (bs : List UInt8) :
    decodeChar? (String.utf8EncodeChar c ++ bs) = some c := by
  rw [decodeChar?, List.toByteArray_append]
  exact ByteArray.utf8DecodeChar?_utf8EncodeChar_append

theorem decodeLossyFrom_append (h : xs.length = skip) :
    decodeLossyFrom skip (xs ++ bs) = decodeLossyFrom 0 bs := by
  induction xs generalizing skip with
  | nil =>
    subst h
    rfl
  | cons x xs ih =>
    subst h
    exact ih rfl

theorem decodeLossy_encodeChar_append (c : Char) (bs : List UInt8) :
    decodeLossy (String.utf8EncodeChar c ++ bs) = c :: decodeLossy bs := by
  have hd := decodeChar?_encodeChar_append c bs
  have hl := String.length_utf8EncodeChar c
  cases he : String.utf8EncodeChar c with
  | nil =>
    rw [he] at hl
    exact absurd hl (Nat.ne_of_lt c.utf8Size_pos)
  | cons x xs =>
    rw [he, List.cons_append] at hd
    rw [he] at hl
    rw [List.cons_append, decodeLossy, decodeLossyFrom, hd]
    exact congrArg _ (decodeLossyFrom_append (Nat.eq_sub_of_add_eq hl))

theorem decodeLossy_encode_append (cs : List Char) (bs : List UInt8) :
    decodeLossy (encode cs ++ bs) = cs ++ decodeLossy bs := by
  induction cs with
  | nil => rfl
  | cons c cs ih =>
    rw [encode_cons, List.append_assoc, decodeLossy_encodeChar_append, ih, List.cons_append]

/-- Well-formed bytes are read back exactly. -/
theorem decodeLossy_encode (cs : List Char) : decodeLossy (encode cs) = cs := by
  have h := decodeLossy_encode_append cs []
  rw [List.append_nil] at h
  rw [h]
  exact List.append_nil cs

/-- The bytes of a string. -/
def bytes (s : String) : List UInt8 := s.toUTF8.data.toList

def ofBytesLossy (bs : List UInt8) : String := String.ofList (decodeLossy bs)

theorem bytes_eq_encode (s : String) : bytes s = encode s.toList := by
  have h : s.toUTF8 = (encode s.toList).toByteArray := String.utf8Encode_toList.symm
  rw [bytes, h, List.data_toByteArray]

@[simp] theorem ofBytesLossy_bytes (s : String) : ofBytesLossy (bytes s) = s := by
  rw [ofBytesLossy, bytes_eq_encode, decodeLossy_encode, String.ofList_toList]

/-! ## Byte offsets -/

/-- The number of bytes. -/
def size (cs : List Char) : ℕ := (encode cs).length

@[simp] theorem size_nil : size [] = 0 := rfl

@[simp] theorem size_cons (c : Char) (cs : List Char) : size (c :: cs) = c.utf8Size + size cs := by
  simp [size]

theorem size_append (cs ds : List Char) : size (cs ++ ds) = size cs + size ds := by
  simp [size, encode_append]

/-- Every character with the offset of its first byte, counted from the given one. -/
def charIndices (offset : ℕ) : List Char → List (ℕ × Char)
  | [] => []
  | c :: cs => (offset, c) :: charIndices (offset + c.utf8Size) cs

/-- The text behind the first `n` bytes; nothing if they do not end between characters. -/
def dropBytes : ℕ → List Char → Option (List Char)
  | 0, cs => some cs
  | _ + 1, [] => none
  | n + 1, c :: cs => if c.utf8Size ≤ n + 1 then dropBytes (n + 1 - c.utf8Size) cs else none

def takeBytes : ℕ → List Char → Option (List Char)
  | 0, _ => some []
  | _ + 1, [] => none
  | n + 1, c :: cs =>
    if c.utf8Size ≤ n + 1 then (takeBytes (n + 1 - c.utf8Size) cs).map (c :: ·) else none

/-- The text between two byte offsets. -/
def slice (cs : List Char) (start stop : ℕ) : Option (List Char) :=
  if start ≤ stop then (dropBytes start cs).bind (takeBytes (stop - start)) else none

theorem dropBytes_append (cs ds : List Char) : dropBytes (size cs) (cs ++ ds) = some ds := by
  induction cs with
  | nil =>
    rw [size_nil, List.nil_append]
    cases ds <;> rfl
  | cons c cs ih =>
    obtain ⟨n, hn⟩ := Nat.exists_eq_succ_of_ne_zero (Nat.ne_of_gt c.utf8Size_pos)
    rw [size_cons, hn, Nat.succ_add, List.cons_append, dropBytes, hn, if_pos (by omega)]
    have hsub : n + size cs + 1 - n.succ = size cs := by omega
    rw [hsub]
    exact ih

theorem takeBytes_append (cs ds : List Char) : takeBytes (size cs) (cs ++ ds) = some cs := by
  induction cs with
  | nil =>
    rw [size_nil, List.nil_append]
    cases ds <;> rfl
  | cons c cs ih =>
    obtain ⟨n, hn⟩ := Nat.exists_eq_succ_of_ne_zero (Nat.ne_of_gt c.utf8Size_pos)
    rw [size_cons, hn, Nat.succ_add, List.cons_append, takeBytes, hn, if_pos (by omega)]
    have hsub : n + size cs + 1 - n.succ = size cs := by omega
    rw [hsub, ih, Option.map_some]

theorem slice_append (pre cs post : List Char) :
    slice (pre ++ (cs ++ post)) (size pre) (size pre + size cs) = some cs := by
  rw [slice, if_pos (Nat.le_add_right _ _), dropBytes_append, Nat.add_sub_cancel_left]
  exact takeBytes_append cs post

end Utf8
