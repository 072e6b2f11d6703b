import Mathlib.Algebra.GroupWithZero.Nat
import CmppProtocol.Wire.Stream

/-! # Accepted bodies

A body that is decoded falls into fields: raw octets, text of a fixed width and
reserved octets. Encoding what was decoded writes the raw octets and the texts
again, the padding and the reserved octets as NUL.
-/

namespace CmppProtocol

open Fallible

inductive FieldKind
  | raw
  | text
  | reserved
  deriving DecidableEq, Repr

structure Field where
  kind : FieldKind
  octets : List UInt8
  deriving DecidableEq, Repr

/-- Cut the front of a body into fields of the given kinds and widths. -/
def dissect : List (FieldKind × ℕ) → List UInt8 → List Field
  | [], _ => []
  | (kind, width) :: layout, body => ⟨kind, body.take width⟩ :: dissect layout (body.drop width)

namespace Field

def shape (field : Field) : FieldKind × ℕ := (field.kind, field.octets.length)

/-- The octets in front of the trailing NULs and spaces. -/
def stripped (field : Field) : List UInt8 := field.octets.rdropWhile isPadding

/-- A text field in which the octets before the padding are well-formed. -/
def Valid (field : Field) : Prop :=
  field.kind = .text → ∃ s : String, Utf8.bytes s = field.stripped

/-- The field with its padding, or as a whole when it is reserved, overwritten by NULs. -/
def normalized (field : Field) : List UInt8 :=
  match field.kind with
  | .raw => field.octets
  | .text => field.stripped ++ List.replicate (field.octets.length - field.stripped.length) 0
  | .reserved => List.replicate field.octets.length 0

/-- The octets that encoding writes for what was read from the field. -/
def rewritten (field : Field) : List UInt8 :=
  match field.kind with
  | .raw => field.octets
  | .text => CmppProtocol.octets (readOctetStr field.octets) field.octets.length
  | .reserved => List.replicate field.octets.length 0

/-- What is read from a text field, with its width. -/
def text? (field : Field) : Option (String × ℕ) :=
  match field.kind with
  | .text => some (readOctetStr field.octets, field.octets.length)
  | _ => none

variable {field : Field} {fields : List Field} {layout : List (FieldKind × ℕ)} {xs : List UInt8}

@[simp] theorem text?_text : (mk .text xs).text? = some (readOctetStr xs, xs.length) := rfl

@[simp] theorem text?_raw : (mk .raw xs).text? = none := rfl

@[simp] theorem text?_reserved : (mk .reserved xs).text? = none := rfl

@[simp] theorem rewritten_text :
    (mk .text xs).rewritten = CmppProtocol.octets (readOctetStr xs) xs.length := rfl

@[simp] theorem rewritten_raw : (mk .raw xs).rewritten = xs := rfl

@[simp] theorem rewritten_reserved :
    (mk .reserved xs).rewritten = List.replicate xs.length 0 := rfl

theorem dissect_flatMap (h : fields.map shape = layout) :
    dissect layout (fields.flatMap octets) = fields := by
  induction fields generalizing layout with
  | nil =>
    subst h
    rfl
  | cons field fields ih =>
    subst h
    rw [List.flatMap_cons, List.map_cons, shape, dissect, List.take_left, List.drop_left, ih rfl]

theorem length_flatMap (h : fields.map shape = layout) :
    (fields.flatMap octets).length = (layout.map Prod.snd).sum := by
  induction fields generalizing layout with
  | nil =>
    subst h
    rfl
  | cons field fields ih =>
    subst h
    rw [List.flatMap_cons, List.length_append, ih rfl]
    rfl

/-! ### Texts of one width -/

section Texts

variable {xss : List (List UInt8)} {width : ℕ}

theorem shapes_texts (h : ∀ xs ∈ xss, xs.length = width) :
    (xss.map (mk .text)).map shape = List.replicate xss.length (.text, width) := by
  rw [List.map_map, List.eq_replicate_iff]
  refine ⟨List.length_map _, fun shape hshape => ?_⟩
  obtain ⟨xs, hxs, rfl⟩ := List.mem_map.mp hshape
  exact congrArg (Prod.mk FieldKind.text) (h xs hxs)

theorem text?_texts (h : ∀ xs ∈ xss, xs.length = width) :
    (xss.map (mk .text)).filterMap text? = (xss.map readOctetStr).map fun d => (d, width) := by
  rw [List.filterMap_map, List.map_map, ← List.filterMap_eq_map]
  refine List.filterMap_congr fun xs hxs => ?_
  exact congrArg (fun width => some (readOctetStr xs, width)) (h xs hxs)

theorem rewritten_texts (h : ∀ xs ∈ xss, xs.length = width) :
    (xss.map (mk .text)).flatMap rewritten =
      (xss.map readOctetStr).flatMap (CmppProtocol.octets · width) := by
  rw [List.flatMap_map, List.flatMap_map]
  refine List.flatMap_congr fun xs hxs => ?_
  exact congrArg (CmppProtocol.octets (readOctetStr xs)) (h xs hxs)

theorem length_texts (h : ∀ xs ∈ xss, xs.length = width) :
    ((xss.map (mk .text)).flatMap octets).length = width * xss.length := by
  rw [length_flatMap (shapes_texts h), List.map_replicate, List.sum_replicate_nat, Nat.mul_comm]

end Texts

theorem length_rewritten (field : Field) : field.rewritten.length = field.octets.length := by
  unfold rewritten
  split
  · rfl
  · exact CmppProtocol.length_octets _ _
  · exact List.length_replicate

theorem length_flatMap_rewritten (fields : List Field) :
    (fields.flatMap rewritten).length = (fields.flatMap octets).length := by
  induction fields with
  | nil => rfl
  | cons field fields ih =>
    rw [List.flatMap_cons, List.flatMap_cons, List.length_append, List.length_append, ih,
      length_rewritten]

theorem length_stripped_le (xs : List UInt8) : (xs.rdropWhile isPadding).length ≤ xs.length :=
  (List.rdropWhile_prefix isPadding xs).length_le

/-- The bytes of a well-formed text are the octets before the padding. -/
theorem bytes_readOctetStr (h : (Field.mk .text xs).Valid) :
    Utf8.bytes (readOctetStr xs) = xs.rdropWhile isPadding := by
  obtain ⟨s, hs⟩ := h rfl
  have hs' : Utf8.bytes s = xs.rdropWhile isPadding := hs
  rw [readOctetStr, ← hs', Utf8.ofBytesLossy_bytes]

theorem rewritten_eq (h : field.Valid) : field.rewritten = field.normalized := by
  obtain ⟨kind, xs⟩ := field
  cases kind with
  | raw => rfl
  | reserved => rfl
  | text =>
    have hbytes := bytes_readOctetStr h
    rw [rewritten, octets_eq, hbytes, List.take_of_length_le (length_stripped_le xs)]
    rfl

/-- Only reserved octets change, and spaces behind a text, which become NULs. -/
theorem normalized_differs {i : ℕ} (h : field.normalized[i]? ≠ field.octets[i]?) :
    field.kind = .reserved ∨ field.kind = .text ∧ field.stripped.length ≤ i ∧
      field.octets[i]? = some 32 ∧ field.normalized[i]? = some 0 := by
  obtain ⟨kind, xs⟩ := field
  cases kind with
  | raw => exact absurd rfl h
  | reserved => exact Or.inl rfl
  | text =>
    right
    have hsplit : xs.rdropWhile isPadding ++ xs.rtakeWhile isPadding = xs :=
      List.rdropWhile_append_rtakeWhile
    have hlength := congrArg List.length hsplit
    rw [List.length_append] at hlength
    have hoctets : (mk .text xs).octets[i]? =
        (xs.rdropWhile isPadding ++ xs.rtakeWhile isPadding)[i]? := by rw [hsplit]
    have hnormalized : (mk .text xs).normalized[i]? = (xs.rdropWhile isPadding ++
        List.replicate (xs.length - (xs.rdropWhile isPadding).length) 0)[i]? := rfl
    rw [hoctets, hnormalized] at h ⊢
    by_cases hi : i < (xs.rdropWhile isPadding).length
    · rw [List.getElem?_append_left hi, List.getElem?_append_left hi] at h
      exact absurd rfl h
    have hle := not_lt.mp hi
    rw [List.getElem?_append_right hle, List.getElem?_append_right hle] at h ⊢
    have hrest : (xs.rtakeWhile isPadding).length =
        xs.length - (xs.rdropWhile isPadding).length := by omega
    by_cases hin : i - (xs.rdropWhile isPadding).length < (xs.rtakeWhile isPadding).length
    · have hmem := List.getElem_mem hin
      rw [List.getElem?_replicate_of_lt (hrest ▸ hin), List.getElem?_eq_getElem hin] at h ⊢
      have hpad := List.mem_rtakeWhile_imp hmem
      simp only [isPadding, Bool.or_eq_true, beq_iff_eq] at hpad
      rcases hpad with hpad | hpad
      · rw [hpad] at h
        exact absurd rfl h
      · exact ⟨rfl, hle, congrArg some hpad, rfl⟩
    · rw [List.getElem?_eq_none (not_lt.mp hin), List.getElem?_eq_none] at h
      · exact absurd rfl h
      · rw [List.length_replicate, ← hrest]
        exact not_lt.mp hin

/-- What is read from a well-formed text field fits the field. -/
theorem fitsField_readOctetStr {width : ℕ} (h : (Field.mk .text xs).Valid)
    (hwidth : xs.length = width) : FitsField (readOctetStr xs) width := by
  have hbytes := bytes_readOctetStr h
  constructor
  · rw [hbytes, ← hwidth]
    exact length_stripped_le xs
  · intro b hb
    rw [hbytes] at hb
    have hne : xs.rdropWhile isPadding ≠ [] := by
      rintro hnil
      rw [hnil] at hb
      cases hb
    have hlast := List.rdropWhile_last_not isPadding xs hne
    rw [List.getLast?_eq_some_getLast hne, Option.some.injEq] at hb
    rw [hb] at hlast
    exact Bool.eq_false_iff.mpr hlast

end Field

/-! ## What a reader has read -/

theorem toBeBytes_fromBeBytes (b₀ b₁ b₂ b₃ : UInt8) :
    toBeBytes (fromBeBytes b₀ b₁ b₂ b₃) = [b₀, b₁, b₂, b₃] := by
  have h₀ := b₀.toNat_lt
  have h₁ := b₁.toNat_lt
  have h₂ := b₂.toNat_lt
  have h₃ := b₃.toNat_lt
  simp only [toBeBytes, fromBeBytes, UInt32.toNat_ofNat', List.cons.injEq, and_true,
    ← UInt8.toNat_inj, UInt8.toNat_ofNat']
  omega

namespace BodyReader

variable {β : Type} {c c' : BodyReader} {n : ℕ}
  {xs : List UInt8} {Q : β → List Field → Prop}

/-- A reader that returns has read all that was left, field by field. -/
def Accepts (m : Fallible Error BodyReader β) (Q : β → List Field → Prop) : Prop :=
  ∀ c b c', Returns m c b c' → ∃ fields, c.buf.drop c.pos = fields.flatMap Field.octets ∧ Q b fields

theorem returns_take (h : Returns (take n) c xs c') :
    xs.length = n ∧ c.buf.drop c.pos = xs ++ c'.buf.drop c'.pos := by
  obtain ⟨buf, pos⟩ := c
  unfold Returns at h
  simp only [take, state_bind] at h
  cases hadd : checkedAdd pos n with
  | none =>
    rw [hadd] at h
    cases h
  | some stop =>
  have hstop : stop = pos + n := by
    unfold checkedAdd at hadd
    split_ifs at hadd
    exact (Option.some.inj hadd).symm
  subst hstop
  rw [hadd] at h
  dsimp only at h
  split_ifs at h with hlt
  · cases h
  rw [put_bind, slice_eq (Nat.le_add_right _ _) (not_lt.mp hlt)] at h
  cases h
  have hle := not_lt.mp hlt
  refine ⟨?_, ?_⟩
  · rw [List.length_drop, List.length_take]
    omega
  · have hdrop : buf.drop (pos + n) = (buf.drop pos).drop n := by rw [List.drop_drop]
    have htake : (buf.take (pos + n)).drop pos = (buf.drop pos).take n := by
      rw [List.drop_take]
      congr 1
      omega
    dsimp only
    rw [hdrop, htake, List.take_append_drop]

theorem Accepts.take {f : List UInt8 → Fallible Error BodyReader β} (kind : FieldKind)
    (hf : ∀ xs : List UInt8, xs.length = n →
      Accepts (f xs) fun b fields => Q b (⟨kind, xs⟩ :: fields)) :
    Accepts (BodyReader.take n >>= f) Q := by
  intro c b c'' h
  obtain ⟨xs, c', hxs, hrest⟩ := h.of_bind
  obtain ⟨hlen, hdrop⟩ := returns_take hxs
  obtain ⟨fields, hfields, hQ⟩ := hf xs hlen c' b c'' hrest
  exact ⟨⟨kind, xs⟩ :: fields, by rw [hdrop, hfields]; rfl, hQ⟩

theorem Accepts.u8 {f : UInt8 → Fallible Error BodyReader β}
    (hf : ∀ x, Accepts (f x) fun b fields => Q b (⟨.raw, [x]⟩ :: fields)) :
    Accepts (BodyReader.u8 >>= f) Q := by
  intro c b c'' h
  obtain ⟨x, c', hx, hrest⟩ := h.of_bind
  obtain ⟨xs, c₁, hxs, hindex⟩ := hx.of_bind
  obtain ⟨hlen, hdrop⟩ := returns_take hxs
  obtain ⟨y, rfl⟩ := List.length_eq_one_iff.mp hlen
  cases hindex
  obtain ⟨fields, hfields, hQ⟩ := hf y _ b c'' hrest
  exact ⟨⟨.raw, [y]⟩ :: fields, by rw [hdrop, hfields]; rfl, hQ⟩

theorem Accepts.u32 {f : UInt32 → Fallible Error BodyReader β}
    (hf : ∀ x, Accepts (f x) fun b fields => Q b (⟨.raw, toBeBytes x⟩ :: fields)) :
    Accepts (BodyReader.u32 >>= f) Q := by
  intro c b c'' h
  obtain ⟨x, c', hx, hrest⟩ := h.of_bind
  obtain ⟨xs, c₁, hxs, hindex⟩ := hx.of_bind
  obtain ⟨hlen, hdrop⟩ := returns_take hxs
  obtain ⟨b₀, b₁, b₂, b₃, rfl⟩ : ∃ b₀ b₁ b₂ b₃, xs = [b₀, b₁, b₂, b₃] := by
    match xs, hlen with
    | [b₀, b₁, b₂, b₃], _ => exact ⟨b₀, b₁, b₂, b₃, rfl⟩
  cases hindex
  obtain ⟨fields, hfields, hQ⟩ := hf _ _ b c'' hrest
  refine ⟨_, ?_, hQ⟩
  rw [hdrop, hfields, List.flatMap_cons, toBeBytes_fromBeBytes]
  rfl

theorem Accepts.takeArray {f : Vector UInt8 n → Fallible Error BodyReader β}
    (hf : ∀ v, Accepts (f v) fun b fields => Q b (⟨.raw, v.toList⟩ :: fields)) :
    Accepts (BodyReader.takeArray n >>= f) Q := by
  intro c b c'' h
  obtain ⟨v, c', hv, hrest⟩ := h.of_bind
  obtain ⟨xs, c₁, hxs, harray⟩ := hv.of_bind
  obtain ⟨hlen, hdrop⟩ := returns_take hxs
  rw [array, dif_pos hlen] at harray
  cases harray
  obtain ⟨fields, hfields, hQ⟩ := hf _ _ b c'' hrest
  refine ⟨_, ?_, hQ⟩
  rw [hdrop, hfields, List.flatMap_cons]
  rfl

theorem Accepts.octetStr {f : String → Fallible Error BodyReader β}
    (hf : ∀ xs : List UInt8, xs.length = n →
      Accepts (f (readOctetStr xs)) fun b fields => Q b (⟨.text, xs⟩ :: fields)) :
    Accepts (BodyReader.octetStr n >>= f) Q := by
  intro c b c'' h
  obtain ⟨s, c', hs, hrest⟩ := h.of_bind
  obtain ⟨xs, c₁, hxs, hpure⟩ := hs.of_bind
  obtain ⟨hlen, hdrop⟩ := returns_take hxs
  cases hpure
  obtain ⟨fields, hfields, hQ⟩ := hf xs hlen _ b c'' hrest
  refine ⟨_, ?_, hQ⟩
  rw [hdrop, hfields, List.flatMap_cons]

theorem Accepts.collect {f : List String → Fallible Error BodyReader β} (count : ℕ)
    (hf : ∀ xss : List (List UInt8), xss.length = count → (∀ xs ∈ xss, xs.length = n) →
      Accepts (f (xss.map readOctetStr)) fun b fields => Q b (xss.map (.mk .text) ++ fields)) :
    Accepts (Fallible.collect (BodyReader.octetStr n) count >>= f) Q := by
  induction count generalizing f Q with
  | zero => exact hf [] rfl fun _ h => absurd h List.not_mem_nil
  | succ count ih =>
    intro c b c'' h
    obtain ⟨_, c', hall, hrest⟩ := h.of_bind
    obtain ⟨s, c₁, hs, hall⟩ := hall.of_bind
    obtain ⟨ss, c₂, hss, hpure⟩ := hall.of_bind
    cases hpure
    have hsteps : Returns (BodyReader.octetStr n >>= fun s =>
        Fallible.collect (BodyReader.octetStr n) count >>= fun ss => f (s :: ss)) c b c'' :=
      hs.bind (hss.bind hrest)
    refine Accepts.octetStr (fun xs hxs => ih fun xss hlen hxss => ?_) c b c'' hsteps
    refine hf (xs :: xss) (congrArg Nat.succ hlen) ?_
    intro ys hys
    rcases List.mem_cons.mp hys with rfl | hys
    · exact hxs
    · exact hxss ys hys

theorem Accepts.remaining {f : ℕ → Fallible Error BodyReader β} (hf : ∀ left, Accepts (f left) Q) :
    Accepts (BodyReader.remaining >>= f) Q := by
  intro c b c'' h
  obtain ⟨left, c', hleft, hrest⟩ := h.of_bind
  unfold Returns at hleft
  simp only [BodyReader.remaining, state_bind] at hleft
  split_ifs at hleft
  · cases hleft
    exact hf _ c b c'' hrest
  · cases hleft

theorem Accepts.finish (pdu : String) {b : β} (hQ : Q b []) :
    Accepts (do BodyReader.finish pdu; pure b) Q := by
  intro c b' c'' h
  obtain ⟨_, c', hfinish, hpure⟩ := h.of_bind
  cases hpure
  unfold Returns at hfinish
  simp only [BodyReader.finish, state_bind] at hfinish
  split_ifs at hfinish with hend
  · obtain ⟨_, _, _, hfail⟩ := Returns.of_bind hfinish
    cases hfail
  · exact ⟨[], List.drop_of_length_le (not_not.mp hend).ge, hQ⟩

theorem Accepts.fail (e : Error) : Accepts (fail e) Q := by
  intro c b c' h
  cases h

/-- The whole body is read. -/
theorem Accepts.run {σ : Type} {m : Fallible Error BodyReader β} (hm : Accepts m Q)
    {body : List UInt8} {s s' : σ} {b : β} (h : Returns (run m body) s b s') :
    ∃ fields, body = fields.flatMap Field.octets ∧ Q b fields := by
  unfold Returns BodyReader.run at h
  rw [Option.map_eq_some_iff] at h
  obtain ⟨⟨r, c⟩, hr, heq⟩ := h
  obtain ⟨rfl, rfl⟩ := Prod.mk.inj heq
  exact hm _ _ _ hr

end BodyReader

/-! ## The fields of a PDU -/

namespace Pdu

/-- The kinds and widths of the fields that a body has, given the counts in it. -/
def layout : Pdu → List (FieldKind × ℕ)
  | connect _ => [(.text, 6), (.raw, 16), (.raw, 1), (.raw, 4)]
  | connectResp _ => [(.raw, 1), (.raw, 16), (.raw, 1)]
  | submit p =>
    [(.raw, 8), (.raw, 1), (.raw, 1), (.raw, 1), (.raw, 1), (.text, 10), (.raw, 1), (.text, 21),
      (.raw, 1), (.raw, 1), (.raw, 1), (.text, 6), (.text, 2), (.text, 6), (.text, 17), (.text, 17),
      (.text, 21), (.raw, 1)] ++ List.replicate p.destTerminalIds.length (.text, 21) ++
      [(.raw, 1), (.raw, p.msgContent.length), (.reserved, 8)]
  | submitResp _ | deliverResp _ => [(.raw, 8), (.raw, 1)]
  | deliver p =>
    [(.raw, 8), (.text, 21), (.text, 10), (.raw, 1), (.raw, 1), (.raw, 1), (.text, 21), (.raw, 1),
      (.raw, 1), (.raw, p.msgContent.length), (.reserved, 8)]
  | activeTest | terminate | terminateResp => []
  | activeTestResp => [(.reserved, 1)]

/-- The length of a body according to the counts that stand in it. -/
def countedLength : Pdu → List UInt8 → ℕ
  | connect _, _ => 27
  | connectResp _, _ => 18
  | submit _, body =>
    let destinations := (body.getD 116 0).toNat
    126 + 21 * destinations + (body.getD (117 + 21 * destinations) 0).toNat
  | submitResp _, _ | deliverResp _, _ => 9
  | deliver _, body => 73 + (body.getD 64 0).toNat
  | activeTest, _ | terminate, _ | terminateResp, _ => 0
  | activeTestResp, _ => 1

variable {pdu : Pdu} {fields : List Field} {body : List UInt8}

/-- The fields are those of a body from which the PDU is read. -/
structure ReadFrom (pdu : Pdu) (fields : List Field) : Prop where
  shapes : fields.map Field.shape = pdu.layout
  texts : fields.filterMap Field.text? = pdu.textFields
  body : fields.flatMap Field.rewritten = pdu.body
  encodable : ¬ pdu.Oversized
  counted : (fields.flatMap Field.octets).length = pdu.countedLength (fields.flatMap Field.octets)

theorem ReadFrom.fits (h : pdu.ReadFrom fields) (hvalid : ∀ field ∈ fields, field.Valid) :
    pdu.Fits := by
  intro t ht
  rw [← h.texts] at ht
  obtain ⟨⟨kind, xs⟩, hfield, htext⟩ := List.mem_filterMap.mp ht
  cases kind with
  | text =>
    obtain rfl := Option.some.inj htext
    exact Field.fitsField_readOctetStr (hvalid _ hfield) rfl
  | raw => cases htext
  | reserved => cases htext

end Pdu

open BodyReader

theorem getD_append_cons (front back : List UInt8) (x : UInt8) {n : ℕ} (h : front.length = n) :
    (front ++ x :: back).getD n 0 = x := by
  subst h
  rw [List.getD_eq_getElem?_getD, List.getElem?_append_right le_rfl, Nat.sub_self]
  rfl

theorem Connect.accepts_decode : Accepts decode fun p => (Pdu.connect p).ReadFrom := by
  refine .octetStr fun sourceAddr hs => .takeArray fun authenticator => .u8 fun version =>
    .u32 fun timestamp => .finish _ ?_
  constructor
  · simp [Field.shape, Pdu.layout, hs]
  · simp [List.filterMap_cons, Pdu.textFields, hs]
  · simp [Pdu.body, Connect.body, hs]
  · exact not_false
  · simp [Pdu.countedLength, hs]

theorem ConnectResp.accepts_decode : Accepts decode fun p => (Pdu.connectResp p).ReadFrom := by
  refine .u8 fun status => .takeArray fun authenticator => .u8 fun version => .finish _ ?_
  constructor
  · simp [Field.shape, Pdu.layout]
  · simp [List.filterMap_cons, Pdu.textFields]
  · simp [Pdu.body, ConnectResp.body]
  · exact not_false
  · simp [Pdu.countedLength]

theorem SubmitResp.accepts_decode : Accepts decode fun p => (Pdu.submitResp p).ReadFrom := by
  refine .takeArray fun msgId => .u8 fun result => .finish _ ?_
  constructor
  · simp [Field.shape, Pdu.layout]
  · simp [List.filterMap_cons, Pdu.textFields]
  · simp [Pdu.body, SubmitResp.body]
  · exact not_false
  · simp [Pdu.countedLength]

theorem DeliverResp.accepts_decode : Accepts decode fun p => (Pdu.deliverResp p).ReadFrom := by
  refine .takeArray fun msgId => .u8 fun result => .finish _ ?_
  constructor
  · simp [Field.shape, Pdu.layout]
  · simp [List.filterMap_cons, Pdu.textFields]
  · simp [Pdu.body, DeliverResp.body]
  · exact not_false
  · simp [Pdu.countedLength]

theorem Deliver.accepts_decode : Accepts decode fun p => (Pdu.deliver p).ReadFrom := by
  refine .takeArray fun msgId => .octetStr fun destId hd => .octetStr fun serviceId hs =>
    .u8 fun tpPid => .u8 fun tpUdhi => .u8 fun msgFmt => .octetStr fun srcTerminalId ht =>
    .u8 fun registeredDelivery => .u8 fun msgLength => .take .raw fun msgContent hc =>
    .take .reserved fun reserved hr => .finish _ ?_
  have hlength := msgLength.toNat_lt
  constructor
  · simp [Field.shape, Pdu.layout, hd, hs, ht, hr]
  · simp [List.filterMap_cons, Pdu.textFields, hd, hs, ht]
  · simp [Pdu.body, Deliver.body, hd, hs, ht, hc, hr]
  · exact not_lt.mpr (by dsimp only; omega)
  · have hbody :=
      getD_append_cons (msgId.toList ++ destId ++ serviceId ++ [tpPid, tpUdhi, msgFmt] ++
        srcTerminalId ++ [registeredDelivery]) (msgContent ++ reserved) msgLength (n := 64)
        (by simp [hd, hs, ht])
    simp only [List.append_assoc, List.cons_append, List.nil_append,
      List.getD_eq_getElem?_getD] at hbody
    simp [Pdu.countedLength, hbody, hd, hs, ht, hc, hr]
    omega

theorem Submit.accepts_decode : Accepts decode fun p => (Pdu.submit p).ReadFrom := by
  refine .takeArray fun msgId => .u8 fun pkTotal => .u8 fun pkNumber =>
    .u8 fun registeredDelivery => .u8 fun msgLevel => .octetStr fun serviceId h₁ =>
    .u8 fun feeUserType => .octetStr fun feeTerminalId h₂ => .u8 fun tpPid => .u8 fun tpUdhi =>
    .u8 fun msgFmt => .octetStr fun msgSrc h₃ => .octetStr fun feeType h₄ =>
    .octetStr fun feeCode h₅ => .octetStr fun validTime h₆ => .octetStr fun atTime h₇ =>
    .octetStr fun srcId h₈ => .u8 fun destCount => ?_
  dsimp only
  split
  · exact .fail _
  refine .remaining fun left => ?_
  split_ifs
  · exact .fail _
  refine .collect _ fun ids hcount hids => .u8 fun msgLength => .take .raw fun msgContent hc =>
    .take .reserved fun reserved hr => .finish _ ?_
  have hcountLt := destCount.toNat_lt
  have hlengthLt := msgLength.toNat_lt
  have hshapes := Field.shapes_texts hids
  have htexts := Field.text?_texts hids
  have hoctets := Field.length_texts hids
  constructor
  · simp [Field.shape, Pdu.layout, h₁, h₂, h₃, h₄, h₅, h₆, h₇, h₈, hr]
    rw [← List.map_map, hshapes]
  · simp [List.filterMap_cons, Pdu.textFields, h₁, h₂, h₃, h₄, h₅, h₆, h₇, h₈]
    rw [← List.filterMap_map, htexts, List.map_map]
  · simp [Pdu.body, Submit.body, head, tail, h₁, h₂, h₃, h₄, h₅, h₆, h₇, h₈, hc, hr]
    refine ⟨?_, Field.rewritten_texts hids⟩
    rw [hcount, UInt8.ofNat_toNat]
  · refine not_or.mpr ⟨not_lt.mpr ?_, not_lt.mpr ?_⟩
    · dsimp only
      rw [List.length_map]
      omega
    · dsimp only
      omega
  · have hcountAt := getD_append_cons
      (msgId.toList ++ [pkTotal, pkNumber, registeredDelivery, msgLevel] ++ serviceId ++
        [feeUserType] ++ feeTerminalId ++ [tpPid, tpUdhi, msgFmt] ++ msgSrc ++ feeType ++ feeCode ++
        validTime ++ atTime ++ srcId)
      ((ids.map (Field.mk .text)).flatMap Field.octets ++ [msgLength] ++ msgContent ++ reserved)
      destCount (n := 116) (by simp [h₁, h₂, h₃, h₄, h₅, h₆, h₇, h₈])
    have hlengthAt := getD_append_cons
      (msgId.toList ++ [pkTotal, pkNumber, registeredDelivery, msgLevel] ++ serviceId ++
        [feeUserType] ++ feeTerminalId ++ [tpPid, tpUdhi, msgFmt] ++ msgSrc ++ feeType ++ feeCode ++
        validTime ++ atTime ++ srcId ++ [destCount] ++
        (ids.map (Field.mk .text)).flatMap Field.octets)
      (msgContent ++ reserved) msgLength (n := 117 + 21 * destCount.toNat)
      (by simp [h₁, h₂, h₃, h₄, h₅, h₆, h₇, h₈, hoctets, hcount]; omega)
    simp only [List.append_assoc, List.cons_append, List.nil_append,
      List.getD_eq_getElem?_getD] at hcountAt hlengthAt
    simp [Pdu.countedLength, h₁, h₂, h₃, h₄, h₅, h₆, h₇, h₈, hc, hr, hoctets, hcountAt, hlengthAt]
    omega

namespace Pdu

variable {σ : Type} {t t' : σ} {header : CmppHeader} {pdu : Pdu} {body : List UInt8}

theorem readFrom_run {α : Type} {m : Fallible Error BodyReader α} {make : α → Pdu}
    (hm : Accepts m fun p => (make p).ReadFrom) (h : Returns (make <$> run m body) t pdu t') :
    ∃ p fields, pdu = make p ∧ body = fields.flatMap Field.octets ∧ pdu.ReadFrom fields := by
  obtain ⟨p, t₁, hp, hpure⟩ := Returns.of_bind h
  cases hpure
  obtain ⟨fields, hbody, hread⟩ := hm.run hp
  exact ⟨p, fields, rfl, hbody, hread⟩

theorem length_of_require {pdu' : Pdu} {n : ℕ} {name : String}
    (h : Returns (do requireBodyLen body n name; pure pdu') t pdu t') :
    pdu = pdu' ∧ body.length = n := by
  obtain ⟨_, t₁, hlen, hpure⟩ := Returns.of_bind h
  cases hpure
  unfold Returns requireBodyLen at hlen
  split_ifs at hlen with hne
  · cases hlen
  · exact ⟨rfl, not_not.mp hne⟩

/-- Every body that is decoded falls into the fields of the PDU. -/
theorem readFrom_of_decode (h : Returns (decode header body) t pdu t') :
    pdu.commandId = header.commandId ∧
      ∃ fields, body = fields.flatMap Field.octets ∧ pdu.ReadFrom fields := by
  have hempty : ∀ {pdu : Pdu}, body.length = 0 → pdu.ReadFrom [] →
      ∃ fields, body = fields.flatMap Field.octets ∧ pdu.ReadFrom fields :=
    fun hlen hread => ⟨[], List.length_eq_zero_iff.mp hlen, hread⟩
  unfold decode at h
  dsimp only at h
  split_ifs at h with h₁ h₂ h₃ h₄ h₅ h₆ h₇ h₈ h₉ h₁₀
  · obtain ⟨p, fields, rfl, hbody, hread⟩ := readFrom_run Connect.accepts_decode h
    exact ⟨h₁.symm, fields, hbody, hread⟩
  · obtain ⟨p, fields, rfl, hbody, hread⟩ := readFrom_run ConnectResp.accepts_decode h
    exact ⟨h₂.symm, fields, hbody, hread⟩
  · obtain ⟨p, fields, rfl, hbody, hread⟩ := readFrom_run Submit.accepts_decode h
    exact ⟨h₃.symm, fields, hbody, hread⟩
  · obtain ⟨p, fields, rfl, hbody, hread⟩ := readFrom_run SubmitResp.accepts_decode h
    exact ⟨h₄.symm, fields, hbody, hread⟩
  · obtain ⟨p, fields, rfl, hbody, hread⟩ := readFrom_run Deliver.accepts_decode h
    exact ⟨h₅.symm, fields, hbody, hread⟩
  · obtain ⟨p, fields, rfl, hbody, hread⟩ := readFrom_run DeliverResp.accepts_decode h
    exact ⟨h₆.symm, fields, hbody, hread⟩
  · obtain ⟨rfl, hlen⟩ := length_of_require h
    exact ⟨h₇.symm, hempty hlen ⟨rfl, rfl, rfl, not_false, rfl⟩⟩
  · obtain ⟨rfl, hlen⟩ := length_of_require h
    obtain ⟨x, rfl⟩ := List.length_eq_one_iff.mp hlen
    exact ⟨h₈.symm, [⟨.reserved, [x]⟩], rfl, rfl, rfl, rfl, not_false, rfl⟩
  · obtain ⟨rfl, hlen⟩ := length_of_require h
    exact ⟨h₉.symm, hempty hlen ⟨rfl, rfl, rfl, not_false, rfl⟩⟩
  · obtain ⟨rfl, hlen⟩ := length_of_require h
    exact ⟨h₁₀.symm, hempty hlen ⟨rfl, rfl, rfl, not_false, rfl⟩⟩
  · cases h

end Pdu

/-! ## Frames -/

namespace CmppFrameCodec

variable {src rest : List UInt8} {f : Frame}

theorem take_header (h : CMPP_HEADER_LENGTH ≤ src.length) : src.take CMPP_HEADER_LENGTH =
    toBeBytes (wordAt src 0) ++ toBeBytes (wordAt src 4) ++ toBeBytes (wordAt src 8) := by
  have htake : src.take CMPP_HEADER_LENGTH = (List.range 12).map fun i => src.getD i 0 := by
    apply List.ext_getElem
    · rw [List.length_take, List.length_map, List.length_range]
      exact min_eq_left h
    · intro i hi _
      rw [List.getElem_take, List.getElem_map, List.getElem_range, List.getD_eq_getElem?_getD,
        List.getElem?_eq_getElem, Option.getD_some]
  rw [htake]
  simp only [wordAt, toBeBytes_fromBeBytes]
  rfl

theorem pdu_of_decodeFrame {s s' : List UInt8}
    (h : Returns (decodeFrame src) s (some f) s') :
    ∃ pdu, Returns (Pdu.decode ⟨wordAt src 0, wordAt src 4, wordAt src 8⟩
        ((src.take (announced src)).drop CMPP_HEADER_LENGTH)) s pdu s' ∧
      f = ⟨wordAt src 8, pdu⟩ := by
  unfold decodeFrame at h
  obtain ⟨pdu, t, hpdu, hpure⟩ := Returns.of_bind h
  rw [Returns, pure_apply, Option.some.injEq, Prod.mk.injEq, Except.ok.injEq,
    Option.some.injEq] at hpure
  obtain ⟨rfl, rfl⟩ := hpure
  exact ⟨pdu, hpdu, rfl⟩

/-- What a frame that is taken off the buffer consists of. -/
theorem read_of_decode (h : decode src = some (.ok (some f), rest)) :
    LengthOk src ∧ announced src ≤ src.length ∧ f.pdu.commandId = wordAt src 4 ∧
      f.sequenceId = wordAt src 8 ∧
      ∃ fields, (src.take (announced src)).drop CMPP_HEADER_LENGTH = fields.flatMap Field.octets ∧
        f.pdu.ReadFrom fields := by
  cases outcome_of_decode h with
  | taken _ hok hlong hframe =>
    obtain ⟨pdu, hpdu, rfl⟩ := pdu_of_decodeFrame (hframe src)
    obtain ⟨hcommand, hfields⟩ := Pdu.readFrom_of_decode hpdu
    exact ⟨hok, hlong, hcommand, rfl, hfields⟩

/-- Encoding what was decoded writes a frame of the same length. When the texts are well-formed
the frame is the same but for padding and reserved octets, and is decoded to the same value. -/
theorem decode_then_encode (h : decode src = some (.ok (some f), rest)) (dst : List UInt8) :
    let frame := src.take (announced src)
    let body := frame.drop CMPP_HEADER_LENGTH
    let fields := dissect f.pdu.layout body
    body.length = f.pdu.countedLength body ∧ fields.flatMap Field.octets = body ∧
    ∃ encoded, encode f dst = some (.ok (), dst ++ encoded) ∧ encoded.length = frame.length ∧
      ((∀ field ∈ fields, field.Valid) →
        (∀ more, decode (encoded ++ more) = some (.ok (some f), more)) ∧
        encoded = frame.take CMPP_HEADER_LENGTH ++ fields.flatMap Field.normalized ∧
        ∀ field ∈ fields, ∀ i, field.normalized[i]? ≠ field.octets[i]? →
          field.kind = .reserved ∨ field.kind = .text ∧ field.stripped.length ≤ i ∧
            field.octets[i]? = some 32 ∧ field.normalized[i]? = some 0) := by
  obtain ⟨hok, hlong, hcommand, hsequence, fields, hbody, hread⟩ := read_of_decode h
  have hmin := (lengthOk_iff.mp hok).1
  have hlen : (src.take (announced src)).length = announced src := List.length_take_of_le hlong
  have hfields : dissect f.pdu.layout ((src.take (announced src)).drop CMPP_HEADER_LENGTH) =
      fields := hbody ▸ Field.dissect_flatMap hread.shapes
  have hsize : CMPP_HEADER_LENGTH + f.pdu.body.length = announced src := by
    rw [← hread.body, Field.length_flatMap_rewritten, ← hbody, List.length_drop, hlen]
    omega
  have hheader : f.octets = (src.take (announced src)).take CMPP_HEADER_LENGTH ++ f.pdu.body := by
    have hannounced : UInt32.ofNat (announced src) = wordAt src 0 := UInt32.ofNat_toNat
    rw [List.take_take, min_eq_left hmin, take_header (hmin.trans hlong), Frame.octets, hsize,
      hannounced, hcommand, hsequence]
  intro frame body fields'
  have hfields' : fields' = fields := hfields
  rw [hfields']
  refine ⟨?_, hbody.symm, f.octets, encode_appends hread.encodable dst, ?_, fun hvalid => ?_⟩
  · have hcounted := hread.counted
    rwa [← hbody] at hcounted
  · rw [Frame.length_octets, hsize]
    exact hlen.symm
  · have honWire : f.onWire = f := by
      rw [Frame.onWire, Pdu.onWire_of_fits (hread.fits hvalid)]
    refine ⟨fun more => ?_, ?_, fun field _ i hne => Field.normalized_differs hne⟩
    · have hdecode := decode_octets hread.encodable more
      rwa [honWire] at hdecode
    · have hnormalized : fields.flatMap Field.rewritten = fields.flatMap Field.normalized :=
        List.flatMap_congr fun field hfield => Field.rewritten_eq (hvalid field hfield)
      rw [hheader, ← hread.body, hnormalized]

/-- A CONNECT whose source address is followed by a space. -/
def paddedConnect : List UInt8 :=
  [0, 0, 0, 39, 0, 0, 0, 1, 0, 0, 0, 7, 57, 48, 49, 50, 32, 0] ++ List.replicate 16 9 ++
    [0x20, 0, 0, 0, 1]

theorem decode_then_encode_padded : ∃ encoded,
    encode ⟨7, .connect ⟨"9012", .replicate 16 9, 0x20, 1⟩⟩ [] = some (.ok (), encoded) ∧
      encoded = paddedConnect.set 16 0 := by
  have hdecode : decode paddedConnect =
      some (.ok (some ⟨7, .connect ⟨"9012", .replicate 16 9, 0x20, 1⟩⟩), []) := by decide +kernel
  have hfields : dissect [(.text, 6), (.raw, 16), (.raw, 1), (.raw, 4)]
      ((paddedConnect.take (announced paddedConnect)).drop CMPP_HEADER_LENGTH) =
        [⟨.text, [57, 48, 49, 50, 32, 0]⟩, ⟨.raw, List.replicate 16 9⟩, ⟨.raw, [0x20]⟩,
          ⟨.raw, [0, 0, 0, 1]⟩] := by decide +kernel
  obtain ⟨-, -, encoded, hencode, -, hvalid⟩ := decode_then_encode hdecode []
  refine ⟨encoded, hencode, (hvalid fun field hfield => ?_).2.1.trans (by decide +kernel)⟩
  rw [Pdu.layout, hfields] at hfield
  simp only [List.mem_cons, List.not_mem_nil, or_false] at hfield
  rcases hfield with rfl | rfl | rfl | rfl
  · exact fun _ => ⟨"9012", by decide +kernel⟩
  · exact fun hkind => absurd hkind (by decide)
  · exact fun hkind => absurd hkind (by decide)
  · exact fun hkind => absurd hkind (by decide)

end CmppFrameCodec

end CmppProtocol
