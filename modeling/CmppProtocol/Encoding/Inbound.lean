import CmppProtocol.Encoding.Segments

/-! # Inbound content

The peer chooses the header of what it sends. The decoder knows one header only,
the six octets that the splitter itself writes, and takes anything else as text.
-/

namespace CmppProtocol

variable {gbk : Gbk} {msgFmt : UInt8} {content payload : List UInt8}

/-- What follows a complete user data header: the first octet counts the others. -/
def afterHeader : List UInt8 → Option (List UInt8)
  | [] => none
  | length :: rest => if length.toNat ≤ rest.length then some (rest.drop length.toNat) else none

theorem afterHeader_eq_some (h : afterHeader content = some payload) :
    ∃ length header, content = length :: header ++ payload ∧ header.length = length.toNat := by
  cases content with
  | nil => exact nomatch h
  | cons length rest =>
    rw [afterHeader, Option.ite_none_right_eq_some, Option.some.injEq] at h
    obtain ⟨hle, hdrop⟩ := h
    refine ⟨length, rest.take length.toNat, ?_, List.length_take_of_le hle⟩
    rw [List.cons_append, ← hdrop, List.take_append_drop]

/-- No octet of a six-octet header before a payload reaches the text. -/
theorem six_octet_header_stripped (h : afterHeader content = some payload)
    (hsix : content.head? = some 5) (hne : payload ≠ []) :
    decodeMsgContent gbk msgFmt 1 content = decodeMsgContent gbk msgFmt 0 payload := by
  obtain ⟨length, header, rfl, hheader⟩ := afterHeader_eq_some h
  have hlength : length = 5 := Option.some.inj hsix
  have hfive : (length :: header).length = 6 := by
    rw [List.length_cons, hheader, hlength]
    rfl
  exact decodeMsgContent_header gbk hfive hne

theorem six_octet_header_stripped_concatenated :
    decodeMsgContent ⟨fun _ => [], fun _ => ""⟩ MSG_FMT_UCS2 1 [5, 0, 3, 7, 2, 1, 0x4E, 0x2D] =
      decodeMsgContent ⟨fun _ => [], fun _ => ""⟩ MSG_FMT_UCS2 0 [0x4E, 0x2D] :=
  six_octet_header_stripped rfl rfl (List.cons_ne_nil _ _)

/-- The last octet of a seven-octet header is decoded as text, and so is a header with
nothing after it. -/
theorem other_headers_reach_text :
    (afterHeader [6, 8, 4, 1, 7, 2, 1, 65] = some [65] ∧
      decodeMsgContent ⟨fun _ => [], fun _ => ""⟩ MSG_FMT_ASCII 1 [6, 8, 4, 1, 7, 2, 1, 65] ≠
        decodeMsgContent ⟨fun _ => [], fun _ => ""⟩ MSG_FMT_ASCII 0 [65]) ∧
    afterHeader [5, 0, 3, 7, 2, 1] = some [] ∧
      decodeMsgContent ⟨fun _ => [], fun _ => ""⟩ MSG_FMT_ASCII 1 [5, 0, 3, 7, 2, 1] ≠
        decodeMsgContent ⟨fun _ => [], fun _ => ""⟩ MSG_FMT_ASCII 0 [] := by
  refine ⟨⟨rfl, ?_⟩, rfl, ?_⟩
  · decide +kernel
  · decide +kernel

end CmppProtocol
