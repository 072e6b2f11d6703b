import CmppProtocol.Encoding.Content

/-! # The two passes agree

Both passes cut the text greedily by its encoded length: the first counts the
pieces, the second lists their byte ranges. The ranges lie end to end and every
one can be sliced out of the text.
-/

namespace CmppProtocol

open Fallible

variable {content : String} {σ : Type}

/-- The encoded length of a character. -/
def encodedLen : SmsEncoding → Char → ℕ
  | .ascii, _ => 1
  | _, c => Utf16.len c * 2

/-- The texts of the segments. -/
def segmentTexts (content : String) : List (List Char) :=
  let width := encodedLen (chooseEncoding content)
  if Greedy.weight width content.toList ≤ SINGLE_MAX_BYTES then [content.toList]
  else Greedy.pieces width MULTIPART_MAX_BYTES content.toList

/-- The byte ranges of consecutive texts, from a given offset on. -/
def rangesFrom (start : ℕ) : List (List Char) → List (ℕ × ℕ)
  | [] => []
  | p :: ps => (start, start + Utf8.size p) :: rangesFrom (start + Utf8.size p) ps

theorem encodedLen_le (encoding : SmsEncoding) (c : Char) :
    encodedLen encoding c ≤ MULTIPART_MAX_BYTES := by
  have := Utf16.len_le c
  unfold encodedLen MULTIPART_MAX_BYTES
  split <;> omega

theorem encodedLen_pos (encoding : SmsEncoding) (c : Char) : 0 < encodedLen encoding c := by
  have := Utf16.len_pos c
  unfold encodedLen
  split <;> omega

@[simp] theorem flatten_segmentTexts (content : String) :
    (segmentTexts content).flatten = content.toList := by
  unfold segmentTexts
  dsimp only
  split_ifs
  · exact List.flatten_singleton
  · exact Greedy.flatten_pieces _ _ _

theorem segmentTexts_ne_nil (content : String) : segmentTexts content ≠ [] := by
  unfold segmentTexts
  dsimp only
  split_ifs with h
  · exact List.cons_ne_nil _ _
  · intro hp
    have hlong : MULTIPART_MAX_BYTES <
        Greedy.weight (encodedLen (chooseEncoding content)) content.toList := by
      unfold SINGLE_MAX_BYTES at h
      unfold MULTIPART_MAX_BYTES
      omega
    have := Greedy.one_lt_length_pieces (encodedLen_le _) hlong
    rw [hp] at this
    exact absurd this (Nat.not_lt_zero 1)

/-! ## ASCII text -/

theorem chooseEncoding_ascii :
    chooseEncoding content = .ascii ↔ ∀ c ∈ content.toList, c.toNat < 128 := by
  unfold chooseEncoding
  split_ifs with h <;> simpa using h

theorem chooseEncoding_ne_gbk : chooseEncoding content ≠ .gbk := by
  unfold chooseEncoding
  split_ifs <;> exact SmsEncoding.noConfusion

theorem utf8EncodeChar_ascii {c : Char} (h : c.toNat < 128) :
    String.utf8EncodeChar c = [.ofNat c.toNat] := by
  have hsize : c.utf8Size = 1 := by
    rw [Char.utf8Size_eq_one_iff, UInt32.le_iff_toNat_le]
    exact Nat.le_of_lt_succ h
  rw [String.utf8EncodeChar_eq_singleton hsize]
  refine congrArg (· :: []) (UInt8.toNat_inj.mp ?_)
  rw [UInt32.toNat_toUInt8, UInt8.toNat_ofNat']
  rfl

theorem encode_ascii {cs : List Char} (h : ∀ c ∈ cs, c.toNat < 128) :
    Utf8.encode cs = cs.map fun c => .ofNat c.toNat := by
  induction cs with
  | nil => rfl
  | cons c cs ih =>
    rw [Utf8.encode_cons, utf8EncodeChar_ascii (h c List.mem_cons_self),
      ih fun c hc => h c (List.mem_cons_of_mem _ hc)]
    rfl

theorem size_ascii {cs : List Char} (h : ∀ c ∈ cs, c.toNat < 128) : Utf8.size cs = cs.length := by
  rw [Utf8.size, encode_ascii h, List.length_map]

/-! ## The passes -/

theorem weight_ascii (cs : List Char) : Greedy.weight (encodedLen .ascii) cs = cs.length := by
  induction cs with
  | nil => rfl
  | cons c cs ih => rw [Greedy.weight_cons, ih, List.length_cons, encodedLen, Nat.add_comm]

theorem totalBytes_eq (content : String) :
    (totalBytes content (chooseEncoding content) : Fallible Error σ ℕ) =
      pure (Greedy.weight (encodedLen (chooseEncoding content)) content.toList) := by
  cases he : chooseEncoding content with
  | ascii => rw [totalBytes, size_ascii (chooseEncoding_ascii.mp he), weight_ascii]
  | ucs2 => rfl
  | gbk => exact absurd he chooseEncoding_ne_gbk

/-- The counting loop and the greedy pieces, with a piece begun. -/
theorem foldl_countStep (cs cur : List Char) (count : ℕ) :
    (cs.foldl countStep (count, Greedy.weight (encodedLen .ucs2) cur)).1 + 1 =
      count + (Greedy.piecesFrom (encodedLen .ucs2) MULTIPART_MAX_BYTES cur cs).length := by
  induction cs generalizing cur count with
  | nil => rfl
  | cons c cs ih =>
    rw [List.foldl_cons, countStep, Greedy.piecesFrom]
    have hc : Utf16.len c * 2 = encodedLen .ucs2 c := rfl
    simp only [hc]
    split_ifs
    · have h := ih [c] (count + 1)
      rw [Greedy.weight_singleton] at h
      rw [Nat.zero_add, h, List.length_cons]
      omega
    · have h := ih (cur ++ [c]) count
      rwa [Greedy.weight_append, Greedy.weight_singleton] at h

theorem foldl_rangeStep (cs cur : List Char) (ranges : List (ℕ × ℕ)) (start offset total : ℕ)
    (hoffset : offset = start + Utf8.size cur) (htotal : total = offset + Utf8.size cs)
    {r : List (ℕ × ℕ) × ℕ × ℕ} (hr : (Utf8.charIndices offset cs).foldl rangeStep
      (ranges, start, Greedy.weight (encodedLen .ucs2) cur) = r) :
    r.1 ++ [(r.2.1, total)] = ranges ++ rangesFrom start
      (Greedy.piecesFrom (encodedLen .ucs2) MULTIPART_MAX_BYTES cur cs) := by
  induction cs generalizing cur ranges start offset with
  | nil =>
    rw [Utf8.size_nil, Nat.add_zero] at htotal
    subst htotal hoffset hr
    rfl
  | cons c cs ih =>
    rw [Utf8.charIndices, List.foldl_cons, rangeStep] at hr
    rw [Utf8.size_cons] at htotal
    have hc : Utf16.len c * 2 = encodedLen .ucs2 c := rfl
    simp only [hc] at hr
    rw [Greedy.piecesFrom]
    split_ifs at hr ⊢
    · rw [Nat.zero_add, ← Greedy.weight_singleton (w := encodedLen .ucs2) c] at hr
      rw [ih [c] _ offset (offset + c.utf8Size) (by simp) (by omega) hr, rangesFrom, ← hoffset,
        List.append_assoc, List.singleton_append]
    · rw [← Greedy.weight_singleton (w := encodedLen .ucs2) c, ← Greedy.weight_append] at hr
      refine ih (cur ++ [c]) ranges start (offset + c.utf8Size) ?_ (by omega) hr
      rw [Utf8.size_append, Utf8.size_cons, Utf8.size_nil]
      omega

theorem foldl_chunkStep (ps : List (List Char)) (h : ∀ p ∈ ps, ∀ c ∈ p, c.toNat < 128)
    (ranges : List (ℕ × ℕ)) (start : ℕ) :
    ((ps.map (List.map fun c => UInt8.ofNat c.toNat)).foldl chunkStep (ranges, start)).1 =
      ranges ++ rangesFrom start ps := by
  induction ps generalizing ranges start with
  | nil => exact (List.append_nil ranges).symm
  | cons p ps ih =>
    rw [List.map_cons, List.foldl_cons, chunkStep, List.length_map,
      ih (fun q hq => h q (List.mem_cons_of_mem _ hq)), rangesFrom,
      size_ascii (h p List.mem_cons_self), List.append_assoc, List.singleton_append]

theorem segmentCount_eq (content : String) :
    (segmentCount content (chooseEncoding content)
      (Greedy.weight (encodedLen (chooseEncoding content)) content.toList) : Fallible Error σ ℕ) =
      pure (segmentTexts content).length := by
  unfold segmentCount segmentTexts
  dsimp only
  split_ifs with hfit
  · rfl
  cases he : chooseEncoding content with
  | ascii =>
    rw [he, weight_ascii] at hfit
    have hne : content.toList ≠ [] := by
      rintro hnil
      rw [hnil] at hfit
      exact hfit (Nat.zero_le _)
    have hpieces := Greedy.chunks_eq_pieces (n := MULTIPART_MAX_BYTES) (by decide) hne
    have hlen := Greedy.length_chunks (n := MULTIPART_MAX_BYTES) (by decide) content.toList
    rw [hpieces] at hlen
    refine congrArg pure ?_
    rw [weight_ascii]
    refine Eq.trans ?_ hlen.symm
    unfold divCeil MULTIPART_MAX_BYTES
    split_ifs <;> omega
  | ucs2 =>
    refine congrArg pure ?_
    have h := foldl_countStep content.toList [] 1
    rw [Greedy.weight_nil] at h
    exact Nat.add_right_cancel (h.trans (Nat.add_comm 1 _))
  | gbk => exact absurd he chooseEncoding_ne_gbk

theorem segmentRanges_eq (content : String) :
    (segmentRanges content (chooseEncoding content)
      (Greedy.weight (encodedLen (chooseEncoding content)) content.toList) :
      Fallible Error σ (List (ℕ × ℕ))) = pure (rangesFrom 0 (segmentTexts content)) := by
  unfold segmentRanges segmentTexts
  dsimp only
  split_ifs with hfit
  · simp [rangesFrom]
  cases he : chooseEncoding content with
  | ascii =>
    have hascii := chooseEncoding_ascii.mp he
    rw [he, weight_ascii] at hfit
    have hne : content.toList ≠ [] := by
      rintro hnil
      rw [hnil] at hfit
      exact hfit (Nat.zero_le _)
    have hpieces : Greedy.pieces (encodedLen .ascii) MULTIPART_MAX_BYTES content.toList =
        Greedy.chunks MULTIPART_MAX_BYTES content.toList :=
      (Greedy.chunks_eq_pieces (by decide) hne).symm
    have hmem : ∀ p ∈ Greedy.chunks MULTIPART_MAX_BYTES content.toList, ∀ c ∈ p, c.toNat < 128 := by
      intro p hp c hc
      refine hascii c ?_
      rw [← hpieces] at hp
      rw [← Greedy.flatten_pieces (encodedLen .ascii) MULTIPART_MAX_BYTES content.toList]
      exact List.mem_flatten_of_mem hp hc
    refine congrArg pure ?_
    rw [hpieces, Utf8.bytes_eq_encode, encode_ascii hascii, Greedy.chunks_map,
      foldl_chunkStep _ hmem, List.nil_append]
  | ucs2 =>
    refine congrArg pure ?_
    exact foldl_rangeStep content.toList [] [] 0 0 _ rfl (Nat.zero_add _).symm rfl
  | gbk => exact absurd he chooseEncoding_ne_gbk

end CmppProtocol
