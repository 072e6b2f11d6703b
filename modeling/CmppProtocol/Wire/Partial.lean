import CmppProtocol.Wire.Stream

/-! # Streams that are cut short

Some part of a stream of frames has arrived. The frames that lie whole in it are
read, and the octets behind them wait for the rest of the next frame.
-/

namespace CmppProtocol

namespace CmppFrameCodec

/-- `decode_eof`: bytes that are left over at the end of the stream are an error. -/
def decodeEof : Fallible Error (List UInt8) (Option Frame) := do
  match ← decode with
  | some frame => pure (some frame)
  | none =>
    let buffer ← Fallible.state
    if buffer = [] then pure none else Fallible.fail (.io "bytes remaining on stream")

variable {f : Frame} {fs frames : List Frame} {sent rest : List UInt8} {n : ℕ}

/-- Where the codec asks for more bytes, the end of the stream gives no frame. -/
theorem decodeEof_waits (h : decode sent = some (.ok none, sent)) :
    decodeEof sent =
      some (if sent = [] then .ok none else .error (.io "bytes remaining on stream"), sent) := by
  have hwaits : Fallible.Returns decode sent none sent := h
  by_cases hempty : sent = []
  · rw [if_pos hempty]
    refine hwaits.bind ?_
    simp only [Fallible.Returns, Fallible.state_bind, hempty, if_true, Fallible.pure_apply]
  · rw [if_neg hempty, decodeEof]
    simp only [Bind.bind, h, Fallible.state, if_neg hempty, Fallible.fail_apply]

/-- The front of a frame asks for the rest of it. -/
theorem decode_front (h : ¬ f.pdu.Oversized) (hfront : sent <+: f.octets)
    (hlt : sent.length < f.octets.length) : decode sent = some (.ok none, sent) := by
  by_cases hshort : sent.length < CMPP_HEADER_LENGTH
  · exact decode_short hshort
  have hlen := not_lt.mp hshort
  obtain ⟨more, hmore⟩ := hfront
  have hannounced : announced sent = f.octets.length := by
    have hall := Frame.announced_octets h []
    rwa [List.append_nil, ← hmore, announced_append hlen, hmore] at hall
  have hok : LengthOk sent := by
    apply lengthOk_iff.mpr
    rw [hannounced]
    exact ⟨hlen.trans hlt.le, Frame.length_octets_le h⟩
  apply decode_waits hlen hok
  rwa [hannounced]

/-! ## The first frame -/

/-- Calling the codec adds to the frames. -/
theorem Drains.grows {i : Inbound} (h : Drains frames sent i) :
    ∃ later, i.frames = frames ++ later := by
  refine Loop.Returns.induct (P := fun s => ∃ later, i.frames = s.1 ++ later) h ?_ ?_
  · rintro ⟨frames, buffer⟩ hround
    refine ⟨[], ?_⟩
    simp only [drainRound] at hround
    split at hround <;> cases hround <;> exact (List.append_nil _).symm
  · rintro ⟨frames, buffer⟩ ⟨frames', buffer'⟩ hround _ ⟨later, hlater⟩
    simp only [drainRound] at hround
    split at hround
    · next f rest hd =>
      cases hround
      refine ⟨f :: later, hlater.trans ?_⟩
      rw [List.append_assoc, List.singleton_append]
    all_goals cases hround

/-- A frame that is decoded is the next one of the stream. -/
theorem Drains.decoded {i : Inbound} (h : Drains frames sent i)
    (hd : decode sent = some (.ok (some f), rest)) : Drains (frames ++ [f]) rest i := by
  obtain ⟨j, hj⟩ := drain_terminates (frames ++ [f]) rest
  have hrest : Drains (frames ++ [f]) rest j := ⟨_, hj⟩
  have hwhole : Drains frames sent j := by
    refine Loop.Returns.again ?_ hrest
    rw [drainRound, hd]
  rwa [h.unique hwhole]

theorem Drains.waits {i : Inbound} (h : Drains frames sent i)
    (hd : decode sent = some (.ok none, rest)) : i = ⟨frames, none, sent⟩ := by
  have hrest : rest = sent := by
    cases outcome_of_decode hd <;> first | rfl | contradiction
  refine h.unique (Loop.Returns.exit ?_)
  rw [drainRound, hd, hrest]

theorem Drains.fails {i : Inbound} {e : Error} (h : Drains frames sent i)
    (hd : decode sent = some (.error e, rest)) : i = ⟨frames, some e, rest⟩ := by
  refine h.unique (Loop.Returns.exit ?_)
  rw [drainRound, hd]

/-- What is decoded does not depend on the frames before. -/
theorem Drains.after {i : Inbound} (h : Drains frames sent i) (before : List Frame) :
    Drains (before ++ frames) sent { i with frames := before ++ i.frames } := by
  refine Loop.Returns.induct (P := fun s => Drains (before ++ s.1) s.2
    { i with frames := before ++ i.frames }) h ?_ ?_
  · rintro ⟨frames, buffer⟩ hround
    apply Loop.Returns.exit
    simp only [drainRound] at hround ⊢
    split at hround <;> cases hround <;> rfl
  · rintro ⟨frames, buffer⟩ ⟨frames', buffer'⟩ hround _ ih
    simp only [drainRound] at hround
    split at hround
    · next f rest hd =>
      cases hround
      rw [← List.append_assoc] at ih
      refine Loop.Returns.again ?_ ih
      simp only [drainRound, hd]
    all_goals cases hround

theorem Drains.forget {i : Inbound} {before later : List Frame} (h : Drains before sent i)
    (hframes : i.frames = before ++ later) : Drains [] sent { i with frames := later } := by
  obtain ⟨j, hj⟩ := drain_terminates [] sent
  have hfresh : Drains [] sent j := ⟨_, hj⟩
  have hafter := hfresh.after before
  rw [List.append_nil] at hafter
  have heq := h.unique hafter
  have hsame : before ++ later = before ++ j.frames := by
    rw [← hframes, heq]
  have hlater : later = j.frames := List.append_cancel_left hsame
  rwa [heq, hlater]

/-- The bytes of one read are drained. -/
theorem drains_of_readAll {i : Inbound} (h : Inbound.start.readAll [sent] = some i) :
    Drains [] sent i := by
  obtain ⟨j, hj⟩ := drain_terminates [] sent
  have hread : Inbound.start.read sent = some j := read_eq rfl ⟨_, hj⟩
  simp only [Inbound.readAll, hread] at h
  cases h
  exact ⟨_, hj⟩

/-! ## Parts of a stream -/

/-- The first `n` frames lie whole in the octets; of the next one only a part does. -/
structure Whole (fs : List Frame) (sent : List UInt8) (n : ℕ) (rest : List UInt8) : Prop where
  sent_eq : (fs.take n).flatMap Frame.octets ++ rest = sent
  front : rest <+: ((fs.drop n).flatMap Frame.octets)
  part : ∀ f, fs[n]? = some f → rest.length < f.octets.length

theorem exists_whole (h : sent <+: fs.flatMap Frame.octets) : ∃ n rest, Whole fs sent n rest := by
  induction fs generalizing sent with
  | nil => exact ⟨0, sent, rfl, h, by simp⟩
  | cons f fs ih =>
    by_cases hlt : sent.length < f.octets.length
    · refine ⟨0, sent, rfl, h, fun g hg => ?_⟩
      cases hg
      exact hlt
    · rw [List.flatMap_cons] at h
      have hfirst : f.octets <+: sent :=
        List.prefix_of_prefix_length_le (List.prefix_append _ _) h (not_lt.mp hlt)
      obtain ⟨more, rfl⟩ := hfirst
      obtain ⟨n, rest, hwhole⟩ := ih ((List.prefix_append_right_inj _).mp h)
      refine ⟨n + 1, rest, ?_, hwhole.front, hwhole.part⟩
      rw [List.take_succ_cons, List.flatMap_cons, List.append_assoc, hwhole.sent_eq]

/-- In the whole stream every frame is whole. -/
theorem Whole.complete (h : Whole fs (fs.flatMap Frame.octets) n rest) :
    fs.take n = fs ∧ rest = [] := by
  have hall : rest = (fs.drop n).flatMap Frame.octets := by
    have hsplit : (fs.take n).flatMap Frame.octets ++ (fs.drop n).flatMap Frame.octets =
        fs.flatMap Frame.octets := by
      rw [← List.flatMap_append, List.take_append_drop]
    exact List.append_cancel_left (h.sent_eq.trans hsplit.symm)
  cases hdrop : fs.drop n with
  | nil =>
    rw [hdrop] at hall
    exact ⟨List.take_of_length_le (List.drop_eq_nil_iff.mp hdrop), hall⟩
  | cons f later =>
    have hnext : fs[n]? = some f := by
      rw [← List.head?_drop, hdrop, List.head?_cons]
    have hpart := h.part f hnext
    rw [hall, hdrop, List.flatMap_cons, List.length_append] at hpart
    omega

theorem drains_front (hfront : rest <+: (fs.flatMap Frame.octets))
    (hpart : ∀ f, fs.head? = some f → rest.length < f.octets.length)
    (hfs : ∀ f ∈ fs, ¬ f.pdu.Oversized) : Drains frames rest ⟨frames, none, rest⟩ := by
  have hwaits : decode rest = some (.ok none, rest) := by
    cases fs with
    | nil =>
      rw [List.flatMap_nil, List.prefix_nil] at hfront
      subst hfront
      exact decode_short (by decide)
    | cons f fs =>
      have hlt := hpart f rfl
      refine decode_front (hfs f List.mem_cons_self) ?_ hlt
      rw [List.flatMap_cons] at hfront
      exact List.prefix_of_prefix_length_le hfront (List.prefix_append _ _) hlt.le
  apply Loop.Returns.exit
  rw [drainRound, hwaits]

theorem drains_frames (hfs : ∀ f ∈ fs, ¬ f.pdu.Oversized) {j : Inbound}
    (hrest : Drains (frames ++ fs.map Frame.onWire) rest j) :
    Drains frames (fs.flatMap Frame.octets ++ rest) j := by
  induction fs generalizing frames with
  | nil =>
    rw [List.map_nil, List.append_nil] at hrest
    exact hrest
  | cons f fs ih =>
    have hfirst := decode_octets (hfs f List.mem_cons_self) (fs.flatMap Frame.octets ++ rest)
    rw [List.map_cons, List.append_cons] at hrest
    rw [List.flatMap_cons, List.append_assoc]
    refine Loop.Returns.again ?_ (ih (fun g hg => hfs g (List.mem_cons_of_mem _ hg)) hrest)
    rw [drainRound, hfirst]

/-- However much of the stream has arrived and wherever it was cut, the frames that lie whole in it
are read, without an error. -/
theorem reads_front (hfs : ∀ f ∈ fs, ¬ f.pdu.Oversized) (h : sent <+: fs.flatMap Frame.octets)
    {chunks : List (List UInt8)} (hchunks : chunks.flatten = sent) :
    ∃ n rest, Whole fs sent n rest ∧
      Inbound.start.readAll chunks = some ⟨(fs.take n).map Frame.onWire, none, rest⟩ := by
  obtain ⟨n, rest, hwhole⟩ := exists_whole h
  have hstart : Drains Inbound.start.frames Inbound.start.buffer Inbound.start := by
    apply Loop.Returns.exit
    rw [Inbound.start, drainRound, decode_short (by decide)]
  have hdrains : Drains [] sent ⟨(fs.take n).map Frame.onWire, none, rest⟩ := by
    rw [← hwhole.sent_eq]
    refine drains_frames (fun f hf => hfs f (List.mem_of_mem_take hf)) ?_
    refine drains_front hwhole.front (fun f hf => hwhole.part f ?_)
      fun f hf => hfs f (List.mem_of_mem_drop hf)
    rwa [List.head?_drop] at hf
  obtain ⟨⟨read, error, buffer⟩, hread, hagree⟩ := readAll_agrees rfl hstart (hchunks ▸ hdrains)
  obtain ⟨rfl, rfl, hbuffer⟩ := hagree
  have hrest : buffer = rest := hbuffer rfl
  rw [hrest] at hread
  exact ⟨n, rest, hwhole, hread⟩

end CmppFrameCodec

end CmppProtocol
