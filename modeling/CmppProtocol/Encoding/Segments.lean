import CmppProtocol.Encoding.Split
import Mathlib.Data.List.Chain

/-! # Splitting loses nothing

Each segment carries the encoding of one text of the split, and decoding the
segments in order gives back the content.
-/

namespace CmppProtocol

open Fallible SubmitContentPlan

variable {content : String} {σ : Type} {start : ℕ} {pre post texts : List (List Char)}
  {t : List Char} {encoding : SmsEncoding}

/-! ## Ranges -/

theorem length_rangesFrom (start : ℕ) (texts : List (List Char)) :
    (rangesFrom start texts).length = texts.length := by
  induction texts generalizing start with
  | nil => rfl
  | cons t ts ih => rw [rangesFrom, List.length_cons, ih, List.length_cons]

theorem rangesFrom_append (start : ℕ) (pre post : List (List Char)) :
    rangesFrom start (pre ++ post) =
      rangesFrom start pre ++ rangesFrom (start + Utf8.size pre.flatten) post := by
  induction pre generalizing start with
  | nil => rfl
  | cons p ps ih =>
    rw [List.cons_append, rangesFrom, ih, rangesFrom, List.flatten_cons, Utf8.size_append,
      List.cons_append, Nat.add_assoc]

theorem rangesFrom_getElem (start : ℕ) (pre post : List (List Char)) (t : List Char) :
    (rangesFrom start (pre ++ t :: post))[pre.length]? =
      some (start + Utf8.size pre.flatten, start + Utf8.size pre.flatten + Utf8.size t) := by
  rw [rangesFrom_append, List.getElem?_append_right (Nat.le_of_eq (length_rangesFrom start pre)),
    length_rangesFrom, Nat.sub_self]
  rfl

/-- The ranges lie end to end from the start to the end of the text, at character boundaries. -/
structure Partitions (content : String) (ranges : List (ℕ × ℕ)) : Prop where
  starts : ranges.head?.map Prod.fst = some 0
  ends : ranges.getLast?.map Prod.snd = some (Utf8.size content.toList)
  adjacent : ranges.IsChain fun r r' => r.2 = r'.1
  boundaries : ∀ r ∈ ranges, (Utf8.slice content.toList r.1 r.2).isSome

theorem isChain_rangesFrom (start : ℕ) (texts : List (List Char)) :
    (rangesFrom start texts).IsChain fun r r' => r.2 = r'.1 := by
  induction texts generalizing start with
  | nil => exact List.IsChain.nil
  | cons t ts ih =>
    rw [rangesFrom, List.isChain_cons]
    refine ⟨?_, ih _⟩
    cases ts with
    | nil => simp [rangesFrom]
    | cons u us => simp [rangesFrom]

theorem getLast?_rangesFrom (h : texts ≠ []) :
    (rangesFrom start texts).getLast?.map Prod.snd = some (start + Utf8.size texts.flatten) := by
  rw [← List.dropLast_append_getLast h, rangesFrom_append]
  simp only [rangesFrom, List.getLast?_append_cons, List.getLast?_singleton, Option.map_some,
    List.flatten_append, List.flatten_singleton, Utf8.size_append, Nat.add_assoc]

theorem slice_text (hflat : (pre ++ t :: post).flatten = content.toList) :
    Utf8.slice content.toList (Utf8.size pre.flatten) (Utf8.size pre.flatten + Utf8.size t) =
      some t := by
  rw [← hflat, List.flatten_append, List.flatten_cons]
  exact Utf8.slice_append _ _ _

theorem partitions_rangesFrom (hne : texts ≠ []) (hflat : texts.flatten = content.toList) :
    Partitions content (rangesFrom 0 texts) := by
  refine ⟨?_, ?_, isChain_rangesFrom 0 texts, ?_⟩
  · cases texts with
    | nil => exact absurd rfl hne
    | cons t ts => rfl
  · rw [getLast?_rangesFrom hne, hflat, Nat.zero_add]
  · intro r hr
    obtain ⟨i, hi', rfl⟩ := List.mem_iff_getElem.mp hr
    have hi : i < texts.length := length_rangesFrom 0 texts ▸ hi'
    have hsplit : texts = texts.take i ++ texts[i] :: texts.drop (i + 1) := by
      rw [← List.drop_eq_getElem_cons hi, List.take_append_drop]
    have hget := rangesFrom_getElem 0 (texts.take i) (texts.drop (i + 1)) texts[i]
    rw [← hsplit, List.length_take, Nat.min_eq_left (Nat.le_of_lt hi), List.getElem?_eq_getElem hi',
      Option.some.injEq] at hget
    rw [hget, Nat.zero_add, slice_text (hsplit ▸ hflat)]
    rfl

/-! ## One segment -/

/-- The text is one that the encoding can carry. -/
def Carries : SmsEncoding → List Char → Prop
  | .ascii, t => ∀ c ∈ t, c.toNat < 128
  | .ucs2, _ => True
  | .gbk, _ => False

theorem carries_of_mem_segmentTexts (ht : t ∈ segmentTexts content) :
    Carries (chooseEncoding content) t := by
  cases he : chooseEncoding content with
  | ascii =>
    intro c hc
    refine chooseEncoding_ascii.mp he c ?_
    rw [← flatten_segmentTexts]
    exact List.mem_flatten_of_mem ht hc
  | ucs2 => trivial
  | gbk => exact absurd he chooseEncoding_ne_gbk

theorem length_encodeContent (gbk : Gbk) (h : Carries encoding t) :
    (encodeContent gbk (.ofList t) encoding).length = Greedy.weight (encodedLen encoding) t := by
  cases encoding with
  | ascii => rw [encodeContent, List.length_map, String.toList_ofList, weight_ascii]
  | ucs2 =>
    rw [encodeContent, String.toList_ofList]
    induction t with
    | nil => rfl
    | cons c t ih =>
      rw [Utf16.encode_cons, List.flatMap_append, List.length_append, ih trivial,
        Greedy.weight_cons, encodedLen, ← Utf16.length_encodeChar]
      · congr 1
        induction Utf16.encodeChar c with
        | nil => rfl
        | cons u us ih => rw [List.flatMap_cons, List.length_append, ih]; simp; omega
      · exact SmsEncoding.noConfusion
  | gbk => exact h.elim

theorem utf16Units_bytes (us : List UInt16) :
    utf16Units (us.flatMap fun u => [.ofNat (u.toNat / 256), .ofNat u.toNat]) = us := by
  induction us with
  | nil => rfl
  | cons u us ih =>
    have hu := u.toNat_lt
    have hword : UInt16.ofNat ((UInt8.ofNat (u.toNat / 256)).toNat * 256 +
        (UInt8.ofNat u.toNat).toNat) = u := by
      apply UInt16.toNat_inj.mp
      simp only [UInt8.toNat_ofNat', UInt16.toNat_ofNat']
      omega
    simp only [List.flatMap_cons, List.cons_append, List.nil_append, utf16Units, hword, ih]

theorem length_utf16Bytes (us : List UInt16) :
    (us.flatMap fun u => [UInt8.ofNat (u.toNat / 256), .ofNat u.toNat]).length % 2 = 0 := by
  induction us with
  | nil => rfl
  | cons u us ih =>
    rw [List.flatMap_cons, List.length_append, List.length_cons, List.length_singleton]
    omega

/-- A payload without a header is read back. -/
theorem decodeMsgContent_plain (gbk : Gbk) (h : Carries encoding t) :
    decodeMsgContent gbk encoding.msgFmt 0 (encodeContent gbk (.ofList t) encoding) =
      .ofList t := by
  have hpayload : ∀ bytes : List UInt8, (if (0 : UInt8) = 1 ∧ 6 < bytes.length then bytes.drop 6
      else bytes) = bytes := fun bytes => if_neg fun hc => absurd hc.1 (by decide)
  unfold decodeMsgContent
  simp only [hpayload]
  cases encoding with
  | ascii =>
    rw [SmsEncoding.msgFmt, if_pos rfl, encodeContent, String.toList_ofList, ← encode_ascii h,
      Utf8.ofBytesLossy, Utf8.decodeLossy_encode]
  | ucs2 =>
    rw [SmsEncoding.msgFmt, if_neg (by decide), if_pos rfl, encodeContent, String.toList_ofList,
      if_neg (not_not.mpr (length_utf16Bytes _)), utf16Units_bytes, Utf16.decodeLossy_encode]
  | gbk => exact h.elim

/-- A payload behind a header is read back when it is not empty. -/
theorem decodeMsgContent_header (gbk : Gbk) {fmt : UInt8} {header payload : List UInt8}
    (hheader : header.length = 6) (hpayload : payload ≠ []) :
    decodeMsgContent gbk fmt 1 (header ++ payload) = decodeMsgContent gbk fmt 0 payload := by
  have hlen : 6 < (header ++ payload).length := by
    have := List.length_pos_iff.mpr hpayload
    rw [List.length_append]
    omega
  have hdrop : (header ++ payload).drop 6 = payload := List.drop_left' hheader
  unfold decodeMsgContent
  simp only [true_and, hlen, if_true, hdrop]
  have hzero : ¬ ((0 : UInt8) = 1 ∧ 6 < payload.length) := fun hc => absurd hc.1 (by decide)
  simp only [hzero, if_false]

/-- The only segment of a message that fits. -/
def singleSegment (gbk : Gbk) (encoding : SmsEncoding) (t : List Char) : SmsSegment where
  msgFmt := encoding.msgFmt
  tpUdhi := 0
  pkTotal := 1
  pkNumber := 1
  content := encodeContent gbk (.ofList t) encoding

def longSegment (gbk : Gbk) (encoding : SmsEncoding) (total : ℕ) (reference : UInt8) (index : ℕ)
    (t : List Char) : SmsSegment where
  msgFmt := encoding.msgFmt
  tpUdhi := 1
  pkTotal := .ofNat total
  pkNumber := .ofNat (index + 1)
  content := [0x05, 0x00, 0x03, reference, .ofNat total, .ofNat (index + 1)] ++
    encodeContent gbk (.ofList t) encoding

/-- The segments of a message that does not fit in one. -/
def longSegments (gbk : Gbk) (content : String) (reference : UInt8) : List SmsSegment :=
  (List.range (segmentTexts content).length).map fun i =>
    longSegment gbk (chooseEncoding content) (segmentTexts content).length reference i
      ((segmentTexts content).getD i [])

/-- The plan that is prepared for a content. -/
def planOf (content : String) (preferredRef : Option UInt8) : SubmitContentPlan where
  content := content
  encoding := chooseEncoding content
  ranges := rangesFrom 0 (segmentTexts content)
  preferredRef := preferredRef

theorem prepareSubmitContent_error (h : 255 < (segmentTexts content).length) (counter : UInt32) :
    ∃ e, prepareSubmitContent content counter = some (.error e, counter) := by
  simp only [prepareSubmitContent, totalBytes_eq, segmentCount_eq, pure_bind', h,
    if_true, fail_apply]
  exact ⟨_, rfl⟩

theorem prepareSubmitContent_single (h : (segmentTexts content).length = 1) (counter : UInt32) :
    prepareSubmitContent content counter = some (.ok (planOf content none), counter) := by
  simp only [prepareSubmitContent, totalBytes_eq, segmentCount_eq, segmentRanges_eq, pure_bind',
    length_rangesFrom, h, Nat.lt_irrefl, if_false, Nat.reduceLT, pure_apply, planOf]

theorem prepareSubmitContent_long (h : 1 < (segmentTexts content).length)
    (hle : (segmentTexts content).length ≤ 255) (counter : UInt32) :
    prepareSubmitContent content counter =
      some (.ok (planOf content (some (counter &&& 0xFF).toUInt8)), counter + 1) := by
  simp only [prepareSubmitContent, totalBytes_eq, segmentCount_eq, segmentRanges_eq, pure_bind',
    length_rangesFrom, h, Nat.not_lt.mpr hle, if_false, if_true, state_bind, put_bind, pure_apply,
    planOf]

variable (gbk : Gbk) (hsplit : segmentTexts content = pre ++ t :: post)
include hsplit

theorem sliceText_planOf :
    (sliceText content (0 + Utf8.size pre.flatten) (0 + Utf8.size pre.flatten + Utf8.size t) :
      Fallible Error σ String) = pure (.ofList t) := by
  rw [Nat.zero_add, sliceText, slice_text (hsplit ▸ flatten_segmentTexts content)]

theorem segment_single (h : (segmentTexts content).length = 1)
    (reference preferred : Option UInt8) :
    ((planOf content preferred).segment gbk pre.length reference : Fallible Error σ SmsSegment) =
      pure (singleSegment gbk (chooseEncoding content) t) := by
  have hget := rangesFrom_getElem 0 pre post t
  rw [← hsplit] at hget
  simp only [SubmitContentPlan.segment, planOf, hget, sliceText_planOf hsplit, pure_bind',
    length_rangesFrom, h, if_true, singleSegment]

theorem segment_long (h : 1 < (segmentTexts content).length)
    (hle : (segmentTexts content).length ≤ 255) (reference : UInt8) (preferred : Option UInt8) :
    ((planOf content preferred).segment gbk pre.length (some reference) :
      Fallible Error σ SmsSegment) =
      pure (longSegment gbk (chooseEncoding content) (segmentTexts content).length reference
        pre.length t) := by
  have hget := rangesFrom_getElem 0 pre post t
  rw [← hsplit] at hget
  have hpre : pre.length + 1 ≤ (segmentTexts content).length := by
    rw [hsplit, List.length_append, List.length_cons]
    omega
  have htotal : ∀ msg, (tryU8 (segmentTexts content).length msg : Fallible Error σ UInt8) =
      pure (.ofNat _) := fun _ => if_pos (by omega)
  have hseq : ∀ msg, (tryU8 (pre.length + 1) msg : Fallible Error σ UInt8) = pure (.ofNat _) :=
    fun _ => if_pos (by omega)
  simp only [SubmitContentPlan.segment, planOf, hget, sliceText_planOf hsplit, pure_bind',
    length_rangesFrom, Nat.ne_of_gt h, if_false, htotal, hseq, Option.some_or, longSegment]

omit hsplit

/-! ## The whole message -/

theorem segmentTexts_single (h : (segmentTexts content).length = 1) :
    segmentTexts content = [content.toList] ∧
      Greedy.weight (encodedLen (chooseEncoding content)) content.toList ≤ SINGLE_MAX_BYTES := by
  unfold segmentTexts at h ⊢
  dsimp only at h ⊢
  split_ifs at h ⊢ with hfit
  · exact ⟨rfl, hfit⟩
  · have hlong : MULTIPART_MAX_BYTES < _ := lt_trans (by decide) (Nat.lt_of_not_le hfit)
    have hone := Greedy.one_lt_length_pieces (encodedLen_le (chooseEncoding content)) hlong
    omega

/-- Each text of a long message is not empty and fits behind the header. -/
theorem segmentTexts_long (h : 1 < (segmentTexts content).length) (ht : t ∈ segmentTexts content) :
    t ≠ [] ∧ Greedy.weight (encodedLen (chooseEncoding content)) t ≤ MULTIPART_MAX_BYTES := by
  unfold segmentTexts at h ht
  dsimp only at h ht
  split_ifs at h ht with hfit
  · exact absurd h (Nat.lt_irrefl 1)
  · refine ⟨Greedy.ne_nil_of_mem_pieces ?_ ht,
      Greedy.weight_le_of_mem_pieces (encodedLen_le (chooseEncoding content)) ht⟩
    intro hnil
    rw [hnil] at hfit
    exact hfit (Nat.zero_le _)

theorem exists_split {i : ℕ} (hi : i < texts.length) :
    ∃ pre post, texts = pre ++ texts.getD i [] :: post ∧ pre.length = i := by
  refine ⟨texts.take i, texts.drop (i + 1), ?_, ?_⟩
  · rw [List.getD_eq_getElem?_getD, List.getElem?_eq_getElem hi, Option.getD_some,
      ← List.drop_eq_getElem_cons hi, List.take_append_drop]
  · rw [List.length_take, Nat.min_eq_left (Nat.le_of_lt hi)]

theorem toList_foldl_append (texts : List (List Char)) (s : String) :
    ((texts.map String.ofList).foldl (· ++ ·) s).toList = s.toList ++ texts.flatten := by
  induction texts generalizing s with
  | nil => simp
  | cons t ts ih => simp [ih]

theorem join_texts (content : String) :
    String.join ((segmentTexts content).map String.ofList) = content := by
  apply String.toList_inj.mp
  have h := toList_foldl_append (segmentTexts content) ""
  rwa [flatten_segmentTexts] at h

theorem trySplitContent_single (h : (segmentTexts content).length = 1) (counter : UInt32) :
    trySplitContent gbk content counter =
      some (.ok [singleSegment gbk (chooseEncoding content) content.toList], counter) := by
  have htexts := (segmentTexts_single h).1
  have hseg : ((planOf content none).segment gbk 0 none : Fallible Error UInt32 SmsSegment) = _ :=
    segment_single gbk
      (show segmentTexts content = [] ++ content.toList :: [] from htexts) h none none
  refine Returns.bind (prepareSubmitContent_single h counter) ?_
  have hlen : (planOf content none).ranges.length = 1 := (length_rangesFrom _ _).trans h
  rw [hlen]
  change Returns (forEach _ [0]) counter ([0].map fun _ => singleSegment gbk _ _) counter
  exact Returns.forEach fun i hi => List.mem_singleton.mp hi ▸ congrFun hseg counter

theorem trySplitContent_long (h : 1 < (segmentTexts content).length)
    (hle : (segmentTexts content).length ≤ 255) (counter : UInt32) :
    trySplitContent gbk content counter =
      some (.ok (longSegments gbk content (counter &&& 0xFF).toUInt8), counter + 1) := by
  refine Returns.bind (prepareSubmitContent_long h hle counter) ?_
  have hlen : ∀ preferred, (planOf content preferred).ranges.length =
      (segmentTexts content).length := fun _ => length_rangesFrom _ _
  rw [hlen]
  refine Returns.forEach fun i hi => ?_
  obtain ⟨pre, post, hsplit, rfl⟩ := exists_split (List.mem_range.mp hi)
  exact congrFun (segment_long gbk hsplit h hle _ _) _

/-- The segments carry the content, whole characters in every one, and nothing else. -/
structure Carried (content : String) (segments : List SmsSegment) : Prop where
  nonempty : segments ≠ []
  same_fmt : ∀ s ∈ segments, s.msgFmt = (chooseEncoding content).msgFmt
  fits : ∀ s ∈ segments, s.content.length ≤ 140
  total : ∀ s ∈ segments, s.pkTotal.toNat = segments.length
  numbers : segments.map (fun s => s.pkNumber.toNat) = List.range' 1 segments.length
  single : segments.length = 1 → ∀ s ∈ segments, s.tpUdhi = 0
  long : segments.length ≠ 1 → ∃ reference, ∀ s ∈ segments, s.tpUdhi = 1 ∧ ∃ text : String,
    s.content = [0x05, 0x00, 0x03, reference, .ofNat segments.length, s.pkNumber] ++
      encodeContent gbk text (chooseEncoding content) ∧
    encodeContent gbk text (chooseEncoding content) ≠ [] ∧
    (encodeContent gbk text (chooseEncoding content)).length ≤ 134
  decoded : String.join (segments.map fun s => decodeMsgContent gbk s.msgFmt s.tpUdhi s.content) =
    content

theorem carried_single (h : (segmentTexts content).length = 1) :
    Carried gbk content [singleSegment gbk (chooseEncoding content) content.toList] := by
  obtain ⟨htexts, hfit⟩ := segmentTexts_single h
  have hcarries : Carries (chooseEncoding content) content.toList :=
    carries_of_mem_segmentTexts (htexts ▸ List.mem_singleton_self _)
  refine ⟨List.cons_ne_nil _ _, ?_, ?_, ?_, rfl, ?_, fun hne => absurd rfl hne, ?_⟩
  all_goals try
    intro s hs
    rw [List.mem_singleton.mp hs]
  · rfl
  · rw [singleSegment, length_encodeContent gbk hcarries]
    exact hfit
  · rfl
  · intro _ s hs
    rw [List.mem_singleton.mp hs]
    rfl
  · have hd := decodeMsgContent_plain gbk hcarries
    rw [List.map_singleton, singleSegment, hd]
    have hj := join_texts content
    rwa [htexts] at hj

theorem length_longSegments (reference : UInt8) :
    (longSegments gbk content reference).length = (segmentTexts content).length := by
  rw [longSegments, List.length_map, List.length_range]

theorem mem_segmentTexts {i : ℕ} (hi : i < (segmentTexts content).length) :
    (segmentTexts content).getD i [] ∈ segmentTexts content := by
  rw [List.getD_eq_getElem?_getD, List.getElem?_eq_getElem hi, Option.getD_some]
  exact List.getElem_mem hi

/-- The payload of a long segment is not empty and fits behind the header. -/
theorem payload_long (h : 1 < (segmentTexts content).length) (ht : t ∈ segmentTexts content) :
    encodeContent gbk (.ofList t) (chooseEncoding content) ≠ [] ∧
      (encodeContent gbk (.ofList t) (chooseEncoding content)).length ≤ MULTIPART_MAX_BYTES := by
  obtain ⟨hne, hw⟩ := segmentTexts_long h ht
  have hl := length_encodeContent gbk (carries_of_mem_segmentTexts ht)
  refine ⟨fun hnil => ?_, hl ▸ hw⟩
  obtain ⟨c, cs, hc⟩ := List.exists_cons_of_ne_nil hne
  rw [hnil, hc, Greedy.weight_cons, List.length_nil] at hl
  have := encodedLen_pos (chooseEncoding content) c
  omega

theorem numbers_longSegments (hle : (segmentTexts content).length ≤ 255) (reference : UInt8) :
    (longSegments gbk content reference).map (fun s => s.pkNumber.toNat) =
      List.range' 1 (segmentTexts content).length := by
  rw [longSegments, List.map_map, List.range'_eq_map_range]
  refine List.map_congr_left fun i hi => ?_
  have hlt : i + 1 < 256 := by
    have := List.mem_range.mp hi
    omega
  exact (UInt8.toNat_ofNat_of_lt' hlt).trans (Nat.add_comm i 1)

theorem decoded_longSegments (h : 1 < (segmentTexts content).length) (reference : UInt8) :
    (longSegments gbk content reference).map
      (fun s => decodeMsgContent gbk s.msgFmt s.tpUdhi s.content) =
      (segmentTexts content).map String.ofList := by
  refine List.ext_getElem (by simp [length_longSegments]) ?_
  intro i hi hi'
  have hlt : i < (segmentTexts content).length := by simpa using hi'
  have ht : (segmentTexts content)[i] ∈ segmentTexts content := List.getElem_mem hlt
  simp only [longSegments, longSegment, List.getElem_map, List.getElem_range,
    List.getD_eq_getElem?_getD, List.getElem?_eq_getElem hlt, Option.getD_some]
  rw [decodeMsgContent_header gbk rfl (payload_long gbk h ht).1,
    decodeMsgContent_plain gbk (carries_of_mem_segmentTexts ht)]

theorem carried_long (h : 1 < (segmentTexts content).length)
    (hle : (segmentTexts content).length ≤ 255) (reference : UInt8) :
    Carried gbk content (longSegments gbk content reference) := by
  have hmem : ∀ s ∈ longSegments gbk content reference, ∃ i t, t ∈ segmentTexts content ∧
      s = longSegment gbk (chooseEncoding content) (segmentTexts content).length reference i t := by
    intro s hs
    obtain ⟨i, hi, rfl⟩ := List.mem_map.mp hs
    exact ⟨i, _, mem_segmentTexts (List.mem_range.mp hi), rfl⟩
  have hlen := @length_longSegments content gbk reference
  refine ⟨?_, ?_, ?_, ?_, ?_, fun hone => ?_, fun _ => ⟨reference, ?_⟩, ?_⟩
  · intro hnil
    rw [hnil, List.length_nil] at hlen
    omega
  · intro s hs
    obtain ⟨i, t, _, rfl⟩ := hmem s hs
    rfl
  · intro s hs
    obtain ⟨i, t, ht, rfl⟩ := hmem s hs
    have := (payload_long gbk h ht).2
    unfold MULTIPART_MAX_BYTES at this
    simp only [longSegment, List.length_append, List.length_cons, List.length_nil]
    omega
  · intro s hs
    obtain ⟨i, t, _, rfl⟩ := hmem s hs
    rw [hlen]
    exact UInt8.toNat_ofNat_of_lt' (Nat.lt_succ_of_le hle)
  · rw [hlen]
    exact numbers_longSegments gbk hle reference
  · rw [hlen] at hone
    omega
  · intro s hs
    obtain ⟨i, t, ht, rfl⟩ := hmem s hs
    obtain ⟨hne, hfit⟩ := payload_long gbk h ht
    exact ⟨rfl, .ofList t, by rw [hlen]; rfl, hne, hfit⟩
  · rw [decoded_longSegments gbk h]
    exact join_texts content

/-- Splitting loses nothing: the passes agree, the ranges partition the content, and the
content is refused or carried by the segments. -/
theorem splitting_loses_nothing (content : String) (counter : UInt32) :
    ∃ total n ranges,
      totalBytes content (chooseEncoding content) counter = some (.ok total, counter) ∧
      segmentCount content (chooseEncoding content) total counter = some (.ok n, counter) ∧
      segmentRanges content (chooseEncoding content) total counter = some (.ok ranges, counter) ∧
      n = ranges.length ∧ Partitions content ranges ∧
      ((∃ e, trySplitContent gbk content counter = some (.error e, counter)) ∨
        ∃ segments counter', trySplitContent gbk content counter = some (.ok segments, counter') ∧
          segments.length = n ∧ Carried gbk content segments) := by
  have hne := segmentTexts_ne_nil content
  have hpos := List.length_pos_iff.mpr hne
  refine ⟨_, (segmentTexts content).length, rangesFrom 0 (segmentTexts content),
    congrFun (totalBytes_eq content) counter, congrFun (segmentCount_eq content) counter,
    congrFun (segmentRanges_eq content) counter, (length_rangesFrom _ _).symm,
    partitions_rangesFrom hne (flatten_segmentTexts content), ?_⟩
  by_cases hlarge : 255 < (segmentTexts content).length
  · obtain ⟨e, he⟩ := prepareSubmitContent_error hlarge counter
    exact Or.inl ⟨e, bind_error he⟩
  by_cases hone : (segmentTexts content).length = 1
  · exact Or.inr ⟨_, _, trySplitContent_single gbk hone counter, hone.symm,
      carried_single gbk hone⟩
  · have hlong : 1 < (segmentTexts content).length := by omega
    have hle := Nat.not_lt.mp hlarge
    exact Or.inr ⟨_, _, trySplitContent_long gbk hlong hle counter, length_longSegments gbk _,
      carried_long gbk hlong hle _⟩

end CmppProtocol
