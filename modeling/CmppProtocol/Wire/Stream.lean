import CmppProtocol.Library.Loop
import CmppProtocol.Wire.RoundTrip

/-! # Byte streams

Bytes arrive in pieces. After each piece the codec takes frames off the buffer
until it asks for more bytes or fails. What comes out depends on the bytes only,
not on where the stream was cut.
-/

namespace CmppProtocol

open Fallible

namespace CmppFrameCodec

variable {src rest more : List UInt8} {r : Except Error (Option Frame)}

/-! ## One call -/

theorem decodeFrame_total (src : List UInt8) :
    ∃ r : Except Error (Option Frame), (∀ s, decodeFrame src s = some (r, s)) ∧ r ≠ .ok none := by
  obtain ⟨r, hr⟩ := Pdu.decode_uniform (σ := List UInt8) ⟨wordAt src 0, wordAt src 4, wordAt src 8⟩
    ((src.take (announced src)).drop CMPP_HEADER_LENGTH)
  cases r with
  | ok pdu =>
    refine ⟨.ok (some ⟨wordAt src 8, pdu⟩), fun s => ?_, by simp⟩
    rw [decodeFrame]
    exact Returns.bind (hr s) (Returns.pure _ s)
  | error e =>
    refine ⟨.error e, fun s => ?_, by simp⟩
    rw [decodeFrame]
    exact bind_error (hr s)

/-- The four ways a call ends. -/
inductive Outcome (src : List UInt8) : Except Error (Option Frame) → List UInt8 → Prop
  | short : src.length < CMPP_HEADER_LENGTH → Outcome src (.ok none) src
  | rejected : CMPP_HEADER_LENGTH ≤ src.length → ¬ LengthOk src →
    Outcome src (.error (lengthError (announced src))) src
  | waits : CMPP_HEADER_LENGTH ≤ src.length → LengthOk src → src.length < announced src →
    Outcome src (.ok none) src
  | taken (r : Except Error (Option Frame)) : LengthOk src → announced src ≤ src.length →
    (∀ s, decodeFrame src s = some (r, s)) → r ≠ .ok none →
    Outcome src r (src.drop (announced src))

/-- No call aborts. -/
theorem decode_outcome (src : List UInt8) :
    ∃ r rest, decode src = some (r, rest) ∧ Outcome src r rest := by
  by_cases hshort : src.length < CMPP_HEADER_LENGTH
  · exact ⟨_, _, decode_short hshort, .short hshort⟩
  have h := not_lt.mp hshort
  by_cases hlen : LengthOk src
  swap
  · exact ⟨_, _, decode_rejected h hlen, .rejected h hlen⟩
  by_cases hwait : src.length < announced src
  · exact ⟨_, _, decode_waits h hlen hwait, .waits h hlen hwait⟩
  have hlong := not_lt.mp hwait
  obtain ⟨r, hr, hne⟩ := decodeFrame_total src
  exact ⟨r, _, (decode_takes hlen hlong).trans (hr _), .taken r hlen hlong hr hne⟩

theorem outcome_of_decode (h : decode src = some (r, rest)) : Outcome src r rest := by
  obtain ⟨r', rest', h', ho⟩ := decode_outcome src
  rw [h] at h'
  cases h'
  exact ho

theorem announced_append (h : CMPP_HEADER_LENGTH ≤ src.length) (more : List UInt8) :
    announced (src ++ more) = announced src := by
  unfold announced
  rw [wordAt_append (le_trans (by decide) h)]

theorem decodeFrame_append (h : CMPP_HEADER_LENGTH ≤ src.length)
    (hlong : announced src ≤ src.length) (more : List UInt8) :
    decodeFrame (src ++ more) = decodeFrame src := by
  have hword : ∀ i, i + 4 ≤ CMPP_HEADER_LENGTH → wordAt (src ++ more) i = wordAt src i :=
    fun i hi => wordAt_append (hi.trans h) more
  rw [decodeFrame, decodeFrame, announced_append h, List.take_append_of_le_length hlong,
    hword 0 (by decide), hword 4 (by decide), hword 8 (by decide)]

/-- What a call has decided does not change when more bytes stand behind. -/
theorem decode_append (h : decode src = some (r, rest)) (hr : r ≠ .ok none) (more : List UInt8) :
    decode (src ++ more) = some (r, rest ++ more) := by
  have hge : ∀ {n : ℕ}, n ≤ src.length → n ≤ (src ++ more).length := by
    intro n hn
    rw [List.length_append]
    exact hn.trans (Nat.le_add_right _ _)
  cases outcome_of_decode h with
  | short => exact absurd rfl hr
  | waits => exact absurd rfl hr
  | rejected hlen hbad =>
    have hann := announced_append hlen more
    have hbad' : ¬ LengthOk (src ++ more) := by
      unfold LengthOk
      rwa [hann]
    rw [decode_rejected (hge hlen) hbad', hann]
  | taken _ hok hlong hframe =>
    have hlen := (lengthOk_iff.mp hok).1.trans hlong
    have hann := announced_append hlen more
    have hok' : LengthOk (src ++ more) := by
      unfold LengthOk
      rwa [hann]
    rw [decode_takes hok' (hann.symm ▸ hge hlong), decodeFrame_append hlen hlong, hann,
      List.drop_append_of_le_length hlong, hframe]

/-! ## Many calls -/

/-- What has been taken off the stream, and the bytes that are left. -/
structure Inbound where
  frames : List Frame
  error : Option Error
  buffer : List UInt8

/-- One call, when the codec is called until it asks for more bytes or fails. -/
def drainRound : List Frame × List UInt8 → (List Frame × List UInt8) ⊕ Option Inbound
  | (frames, buffer) =>
    match decode buffer with
    | some (.ok (some f), rest) => .inl (frames ++ [f], rest)
    | some (.ok none, rest) => .inr (some ⟨frames, none, rest⟩)
    | some (.error e, rest) => .inr (some ⟨frames, some e, rest⟩)
    | none => .inr none

namespace Inbound

def start : Inbound := ⟨[], none, []⟩

/-- A read appends its bytes to the buffer and calls the codec; nothing is read after an error. -/
def read (i : Inbound) (chunk : List UInt8) : Option Inbound :=
  match i.error with
  | some _ => some i
  | none =>
    let buffer := i.buffer ++ chunk
    (Loop.run drainRound (buffer.length + 1) (i.frames, buffer)).join

def readAll (i : Inbound) : List (List UInt8) → Option Inbound
  | [] => some i
  | chunk :: chunks =>
    match i.read chunk with
    | some i' => i'.readAll chunks
    | none => none

end Inbound

/-- Calling the codec on the buffer ends in the given state. -/
def Drains (frames : List Frame) (buffer : List UInt8) (i : Inbound) : Prop :=
  Loop.Returns drainRound (frames, buffer) (some i)

variable {frames fs : List Frame} {buffer : List UInt8} {i j : Inbound} {e : Error}

theorem drain_terminates (frames : List Frame) (buffer : List UInt8) :
    ∃ i, Loop.run drainRound (buffer.length + 1) (frames, buffer) = some (some i) := by
  obtain ⟨r, hr⟩ : ∃ r, Loop.run drainRound (buffer.length + 1) (frames, buffer) = some r := by
    refine Loop.run_of_measure (I := fun _ => True)
      (fun s : List Frame × List UInt8 => s.2.length) trivial ?_
    rintro ⟨frames, buffer⟩ ⟨frames', buffer'⟩ - hb
    refine ⟨trivial, ?_⟩
    simp only [drainRound] at hb
    split at hb
    · next f rest hd =>
      cases hb
      cases outcome_of_decode hd with
      | taken _ hok hlong =>
        have := (lengthOk_iff.mp hok).1
        simp only [List.length_drop]
        unfold CMPP_HEADER_LENGTH at this
        omega
    all_goals cases hb
  cases r with
  | some i => exact ⟨i, hr⟩
  | none =>
    have hne : (none : Option Inbound) ≠ none := by
      refine Loop.Returns.invariant (I := fun _ => True) (Q := fun r => r ≠ none) ⟨_, hr⟩ trivial
        (fun _ _ _ _ => trivial) ?_
      rintro ⟨frames, buffer⟩ r - hb rfl
      obtain ⟨r', rest, hd, _⟩ := decode_outcome buffer
      simp only [drainRound, hd] at hb
      split at hb <;> simp_all
    exact absurd rfl hne

theorem Drains.unique (h : Drains frames buffer i) (h' : Drains frames buffer j) : i = j :=
  Option.some.inj (Loop.Returns.unique h h')

theorem read_eq (hi : i.error = none) {chunk : List UInt8}
    (h : Drains i.frames (i.buffer ++ chunk) j) : i.read chunk = some j := by
  obtain ⟨k, hk⟩ := drain_terminates i.frames (i.buffer ++ chunk)
  obtain rfl := h.unique ⟨_, hk⟩
  simp only [Inbound.read, hi, hk, Option.join_some]

/-- A drained buffer can be drained on when more bytes have arrived. -/
theorem Drains.append (h : Drains frames buffer ⟨fs, none, rest⟩)
    (h' : Drains fs (rest ++ more) j) : Drains frames (buffer ++ more) j := by
  refine Loop.Returns.induct (P := fun s => Drains s.1 (s.2 ++ more) j) h ?_ ?_
  · rintro ⟨frames, buffer⟩ hb
    simp only [drainRound] at hb
    split at hb
    · cases hb
    · next rest' hd =>
      cases hb
      cases outcome_of_decode hd <;> first | exact h' | contradiction
    all_goals cases hb
  · rintro ⟨frames, buffer⟩ ⟨frames', buffer'⟩ hb _ ih
    simp only [drainRound] at hb
    split at hb
    · next f rest' hd =>
      cases hb
      refine Loop.Returns.again ?_ ih
      simp only [drainRound, decode_append hd (by simp) more]
    all_goals cases hb

theorem Drains.append_error (h : Drains frames buffer ⟨fs, some e, rest⟩) (more : List UInt8) :
    Drains frames (buffer ++ more) ⟨fs, some e, rest ++ more⟩ := by
  refine Loop.Returns.induct (P := fun s => Drains s.1 (s.2 ++ more) ⟨fs, some e, rest ++ more⟩)
    h ?_ ?_
  · rintro ⟨frames, buffer⟩ hb
    simp only [drainRound] at hb
    split at hb
    · cases hb
    · cases hb
    · next hd =>
      cases hb
      exact Loop.Returns.exit (by simp only [drainRound, decode_append hd (by simp) more])
    · cases hb
  · rintro ⟨frames, buffer⟩ ⟨frames', buffer'⟩ hb _ ih
    simp only [drainRound] at hb
    split at hb
    · next f rest' hd =>
      cases hb
      refine Loop.Returns.again ?_ ih
      simp only [drainRound, decode_append hd (by simp) more]
    all_goals cases hb

/-- The buffer that is left asks for more bytes. -/
theorem Drains.settled (h : Drains frames buffer ⟨fs, none, rest⟩) :
    Drains fs rest ⟨fs, none, rest⟩ := by
  refine Loop.Returns.induct (P := fun _ => Drains fs rest ⟨fs, none, rest⟩) h ?_
    (fun _ _ _ _ ih => ih)
  rintro ⟨frames, buffer⟩ hb
  have hb' := hb
  simp only [drainRound] at hb
  split at hb
  · cases hb
  · next rest' hd =>
    cases hb
    cases outcome_of_decode hd <;> first | exact Loop.Returns.exit hb' | contradiction
  all_goals cases hb

theorem readAll_error (hi : i.error ≠ none) (chunks : List (List UInt8)) :
    i.readAll chunks = some i := by
  obtain ⟨e, he⟩ := Option.ne_none_iff_exists'.mp hi
  induction chunks with
  | nil => rfl
  | cons chunk chunks ih =>
    rw [Inbound.readAll, Inbound.read, he]
    exact ih

/-- Two streams agree: the same frames and error, and without an error the same bytes left. -/
def Agree (i j : Inbound) : Prop :=
  i.frames = j.frames ∧ i.error = j.error ∧ (i.error = none → i.buffer = j.buffer)

/-- Reading the bytes in pieces gives what draining them at once gives. -/
theorem readAll_agrees (hi : i.error = none) (hsettled : Drains i.frames i.buffer i)
    {chunks : List (List UInt8)} (h : Drains i.frames (i.buffer ++ chunks.flatten) j) :
    ∃ k, i.readAll chunks = some k ∧ Agree k j := by
  induction chunks generalizing i with
  | nil =>
    rw [List.flatten_nil, List.append_nil] at h
    exact ⟨i, rfl, hsettled.unique h ▸ ⟨rfl, rfl, fun _ => rfl⟩⟩
  | cons chunk chunks ih =>
    obtain ⟨⟨fs, e, rest⟩, hrun⟩ := drain_terminates i.frames (i.buffer ++ chunk)
    have hd : Drains i.frames (i.buffer ++ chunk) ⟨fs, e, rest⟩ := ⟨_, hrun⟩
    have hread : i.readAll (chunk :: chunks) = Inbound.readAll ⟨fs, e, rest⟩ chunks := by
      rw [Inbound.readAll, read_eq hi hd]
    rw [List.flatten_cons, ← List.append_assoc] at h
    cases e with
    | none =>
      obtain ⟨j', hrun'⟩ := drain_terminates fs (rest ++ chunks.flatten)
      have hd' : Drains fs (rest ++ chunks.flatten) j' := ⟨_, hrun'⟩
      obtain rfl := (hd.append hd').unique h
      rw [hread]
      exact ih rfl hd.settled hd'
    | some e =>
      obtain rfl := (hd.append_error chunks.flatten).unique h
      rw [hread, readAll_error (by simp)]
      exact ⟨_, rfl, rfl, rfl, fun he => by cases he⟩

/-- Framing does not depend on how the stream is cut, and no input aborts a decoder. -/
theorem framing_independent_of_cuts :
    (∀ chunks chunks' : List (List UInt8), chunks.flatten = chunks'.flatten →
      ∃ i j, Inbound.start.readAll chunks = some i ∧ Inbound.start.readAll chunks' = some j ∧
        i.frames = j.frames ∧ i.error = j.error ∧ (i.error = none → i.buffer = j.buffer)) ∧
    (∀ src rest, decode src = some (.ok none, rest) → rest = src) ∧
    (∀ src rest f, decode src = some (.ok (some f), rest) →
      announced src ≤ src.length ∧ rest = src.drop (announced src)) ∧
    (∀ src, 12 ≤ src.length → ¬ (12 ≤ announced src ∧ announced src ≤ 65536) →
      ∃ e, decode src = some (.error e, src)) ∧
    (∀ src, decode src ≠ none) ∧
    ∀ (header : CmppHeader) (body src : List UInt8), Pdu.decode header body src ≠ none := by
  refine ⟨?_, ?_, ?_, ?_, ?_, ?_⟩
  · intro chunks chunks' hflat
    obtain ⟨j, hrun⟩ := drain_terminates [] chunks.flatten
    have hstart : Drains Inbound.start.frames Inbound.start.buffer Inbound.start := by
      refine Loop.Returns.exit ?_
      rw [Inbound.start, drainRound, decode_short (by decide)]
    have hd : Drains [] chunks.flatten j := ⟨_, hrun⟩
    obtain ⟨i, hi, hij⟩ := readAll_agrees rfl hstart hd
    rw [hflat] at hd
    obtain ⟨i', hi', hij'⟩ := readAll_agrees rfl hstart hd
    refine ⟨i, i', hi, hi', hij.1.trans hij'.1.symm, hij.2.1.trans hij'.2.1.symm, fun he => ?_⟩
    exact (hij.2.2 he).trans (hij'.2.2 ((hij.2.1.trans hij'.2.1.symm).symm.trans he)).symm
  · intro src rest h
    cases outcome_of_decode h <;> first | rfl | contradiction
  · intro src rest f h
    cases outcome_of_decode h with
    | taken _ hok hlong => exact ⟨hlong, rfl⟩
  · intro src hlen hbad
    exact ⟨_, decode_rejected hlen (mt lengthOk_iff.mp hbad)⟩
  · intro src h
    obtain ⟨r, rest, hd, _⟩ := decode_outcome src
    rw [h] at hd
    cases hd
  · intro header body src h
    obtain ⟨r, hr⟩ := Pdu.decode_uniform (σ := List UInt8) header body
    rw [hr] at h
    cases h

end CmppFrameCodec

end CmppProtocol
