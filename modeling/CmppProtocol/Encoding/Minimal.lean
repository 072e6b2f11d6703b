import CmppProtocol.Encoding.Segments
import Mathlib.Order.Bounds.Basic

/-! # The split is minimal

A message that fits into one segment is not cut, and a longer one is cut into as
few pieces as its characters allow. Only a message that needs more than 255 is
refused.
-/

namespace CmppProtocol

open Fallible

variable {gbk : Gbk} {content : String} {pieces : List (List Char)}

/-- A cut between characters into pieces that fit behind a header. -/
structure Cuts (gbk : Gbk) (content : String) (pieces : List (List Char)) : Prop where
  flatten_eq : pieces.flatten = content.toList
  fits : ∀ piece ∈ pieces, (encodeContent gbk (.ofList piece) (chooseEncoding content)).length ≤
    MULTIPART_MAX_BYTES

theorem carries_of_subset {cs : List Char} (h : ∀ c ∈ cs, c ∈ content.toList) :
    Carries (chooseEncoding content) cs := by
  cases he : chooseEncoding content with
  | ascii => exact fun c hc => chooseEncoding_ascii.mp he c (h c hc)
  | ucs2 => trivial
  | gbk => exact absurd he chooseEncoding_ne_gbk

theorem length_encodeContent_eq (gbk : Gbk) (content : String) :
    (encodeContent gbk content (chooseEncoding content)).length =
      Greedy.weight (encodedLen (chooseEncoding content)) content.toList := by
  have hlength := length_encodeContent gbk (carries_of_subset fun c (hc : c ∈ content.toList) => hc)
  rwa [String.ofList_toList] at hlength

theorem cuts_iff : Cuts gbk content pieces ↔ pieces.flatten = content.toList ∧ ∀ piece ∈ pieces,
    Greedy.weight (encodedLen (chooseEncoding content)) piece ≤ MULTIPART_MAX_BYTES := by
  have hlength (hflatten : pieces.flatten = content.toList) {piece : List Char}
      (hpiece : piece ∈ pieces) :
      (encodeContent gbk (.ofList piece) (chooseEncoding content)).length =
        Greedy.weight (encodedLen (chooseEncoding content)) piece := by
    apply length_encodeContent gbk
    apply carries_of_subset
    intro c hc
    rw [← hflatten]
    exact List.mem_flatten_of_mem hpiece hc
  constructor
  · rintro ⟨hflatten, hfits⟩
    exact ⟨hflatten, fun piece hpiece => hlength hflatten hpiece ▸ hfits piece hpiece⟩
  · rintro ⟨hflatten, hfits⟩
    exact ⟨hflatten, fun piece hpiece => (hlength hflatten hpiece).symm ▸ hfits piece hpiece⟩

theorem segmentTexts_fits
    (h : (encodeContent gbk content (chooseEncoding content)).length ≤ SINGLE_MAX_BYTES) :
    segmentTexts content = [content.toList] := by
  rw [length_encodeContent_eq] at h
  exact if_pos h

/-- The texts of the segments of a long message are a cut with the fewest pieces. -/
theorem segmentTexts_minimal (gbk : Gbk)
    (h : SINGLE_MAX_BYTES < (encodeContent gbk content (chooseEncoding content)).length) :
    IsLeast {n | ∃ pieces, Cuts gbk content pieces ∧ pieces.length = n}
      (segmentTexts content).length := by
  rw [length_encodeContent_eq] at h
  have htexts : segmentTexts content =
      Greedy.pieces (encodedLen (chooseEncoding content)) MULTIPART_MAX_BYTES content.toList :=
    if_neg (Nat.not_le.mpr h)
  rw [htexts]
  constructor
  · refine ⟨_, cuts_iff.mpr ⟨Greedy.flatten_pieces _ _ _, fun piece hpiece => ?_⟩, rfl⟩
    exact Greedy.weight_le_of_mem_pieces (encodedLen_le _) hpiece
  · rintro _ ⟨pieces, hcuts, rfl⟩
    obtain ⟨hflatten, hfits⟩ := cuts_iff.mp hcuts
    rw [← hflatten]
    apply Greedy.length_pieces_le hfits
    rintro rfl
    rw [← hflatten] at h
    exact absurd h (Nat.not_lt_zero _)

/-- A message is split into the fewest segments, and refused exactly when these are more than
255. -/
theorem split_minimal (gbk : Gbk) (content : String) (counter : UInt32) : ∃ n : ℕ,
    ((encodeContent gbk content (chooseEncoding content)).length ≤ SINGLE_MAX_BYTES → n = 1) ∧
    (SINGLE_MAX_BYTES < (encodeContent gbk content (chooseEncoding content)).length →
      IsLeast {k | ∃ pieces, Cuts gbk content pieces ∧ pieces.length = k} n) ∧
    (n ≤ 255 → ∃ segments counter',
      trySplitContent gbk content counter = some (.ok segments, counter') ∧ segments.length = n) ∧
    ((∃ error counter', trySplitContent gbk content counter = some (.error error, counter')) ↔
      255 < n) := by
  have hsplit : (segmentTexts content).length ≤ 255 → ∃ segments counter',
      trySplitContent gbk content counter = some (.ok segments, counter') ∧
        segments.length = (segmentTexts content).length := by
    intro hle
    have hpos := List.length_pos_iff.mpr (segmentTexts_ne_nil content)
    by_cases hone : (segmentTexts content).length = 1
    · exact ⟨_, _, trySplitContent_single gbk hone counter, hone.symm⟩
    · exact ⟨_, _, trySplitContent_long gbk (by omega) hle counter, length_longSegments gbk _⟩
  refine ⟨(segmentTexts content).length, fun hfits => ?_, segmentTexts_minimal gbk, hsplit, ?_, ?_⟩
  · rw [segmentTexts_fits hfits]
    rfl
  · rintro ⟨error, counter', herror⟩
    by_contra hle
    obtain ⟨segments, counter'', hok, _⟩ := hsplit (Nat.not_lt.mp hle)
    rw [herror] at hok
    cases hok
  · intro hlarge
    obtain ⟨error, herror⟩ := prepareSubmitContent_error hlarge counter
    exact ⟨error, _, bind_error herror⟩

end CmppProtocol
