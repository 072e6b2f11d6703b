import CmppProtocol.Reader.Batching
import CmppProtocol.Wire.Partial

/-! # The reader on bytes

The loops of the reader around the codec: the frames that are buffered whole are
handled one after the other, then the socket is read again. Reading in pieces is
a stutter of the reader that has all bytes at once.
-/

namespace CmppProtocol

open CmppFrameCodec

/-- What comes after the last bytes: nothing in time, the end of the stream or an error. The last
one is the closing of the connection by another task, which ends the wait. -/
inductive ReadEnd
  | idle
  | eof
  | failed (message : String)
  | closed
  deriving DecidableEq, Repr

/-- The loops keep the number of frames handled, to find what each of them meets. -/
structure ReaderLoop (eventSpoolCapacity capacity : ℕ) where
  task : ReaderTask eventSpoolCapacity capacity
  handled : ℕ
  buffer : List UInt8
  reads : List (List UInt8)

/-- What the reader meets: for each frame the outcome of what it awaits, how many frames are handled
when the phase is seen closed, and how the stream ends. -/
structure ReaderEnv where
  outcomes : ℕ → FrameOutcome
  closedAfter : Option ℕ
  ending : ReadEnd

def ReadEnd.reader (ending : ReadEnd) (buffer : List UInt8) : Option ReaderEnding :=
  match ending with
  | .idle => some .idle
  | .failed message => some (.readError message)
  | .closed => some .closedWhileReading
  | .eof => (decodeEof buffer).map fun (r, _) => .eof (r.map fun _ => ())

namespace ReaderLoop

variable {eventSpoolCapacity capacity : ℕ} (env : ReaderEnv)

/-- One round of the inner loop, or the read behind it. A frame may end the task. -/
def round (l : ReaderLoop eventSpoolCapacity capacity) :
    ReaderLoop eventSpoolCapacity capacity ⊕ Option (ReaderTask eventSpoolCapacity capacity) :=
  if env.closedAfter = some l.handled then .inr (some (l.task.finishLoop .closed))
  else
    match decode l.buffer with
    | none => .inr none
    | some (.error e, _) => .inr (some (l.task.finishLoop (.decodeError e)))
    | some (.ok (some frame), buffer) =>
      let task := l.task.step (.frame frame (env.outcomes l.handled))
      if task.exit.isSome then .inr (some task)
      else .inl { l with task, handled := l.handled + 1, buffer }
    | some (.ok none, buffer) =>
      match l.reads with
      | [] => .inr ((env.ending.reader buffer).map l.task.finishLoop)
      | chunk :: reads =>
        .inl { l with task := l.task.step .exhausted, buffer := buffer ++ chunk, reads }

/-- `reader_task`, on the bytes that the login left over and those of the reads. -/
def run (shared : ReaderShared eventSpoolCapacity capacity) (readBuf : List UInt8)
    (reads : List (List UInt8)) : Option (ReaderTask eventSpoolCapacity capacity) :=
  (Loop.run (round env) (readBuf.length + reads.flatten.length + reads.length + 1)
    ⟨.start shared, 0, readBuf, reads⟩).join

end ReaderLoop

/-! ## The reader with all bytes at once -/

section Alone

variable {eventSpoolCapacity capacity : ℕ} (env : ReaderEnv)

/-- The frames that are handled, each with what it meets. -/
def ReaderEnv.inputs (n : ℕ) (frames : List Frame) : List (Frame × FrameOutcome) :=
  (frames.zipIdx n).map fun (frame, k) => (frame, env.outcomes k)

/-- How a stream ends whose frames have been taken off. -/
def ReaderEnv.endingOf (error : Option Error) (buffer : List UInt8) : ReaderEnding :=
  match error with
  | some e => .decodeError e
  | none =>
    match env.ending with
    | .idle => .idle
    | .failed message => .readError message
    | .closed => .closedWhileReading
    | .eof => .eof (if buffer = [] then .ok () else .error (.io "bytes remaining on stream"))

/-- The frame-by-frame reader on a stream: the frames of the stream in order, up to the number at
which the phase is seen closed. -/
def ReaderEnv.alone (a : ReaderTask eventSpoolCapacity capacity) (n : ℕ) (frames : List Frame)
    (error : Option Error) (buffer : List UInt8) : ReaderTask eventSpoolCapacity capacity :=
  match env.closedAfter with
  | some k =>
    if n ≤ k ∧ k ≤ n + frames.length then
      ((env.inputs n (frames.take (k - n))).foldl ReaderTask.stepAlone a).finishAlone .closed
    else ((env.inputs n frames).foldl ReaderTask.stepAlone a).finishAlone
      (env.endingOf error buffer)
  | none => ((env.inputs n frames).foldl ReaderTask.stepAlone a).finishAlone
      (env.endingOf error buffer)

variable {env} {a : ReaderTask eventSpoolCapacity capacity} {n : ℕ} {frame : Frame}
  {frames : List Frame} {error : Option Error} {buffer : List UInt8}

theorem stepsAlone_exited (h : a.exit.isSome = true) (inputs : List (Frame × FrameOutcome)) :
    inputs.foldl ReaderTask.stepAlone a = a := by
  induction inputs with
  | nil => rfl
  | cons input inputs ih => rw [List.foldl_cons, ReaderTask.stepAlone, if_pos h, ih]

theorem finishAlone_exited (h : a.exit.isSome = true) (ending : ReaderEnding) :
    a.finishAlone ending = a := if_pos h

theorem alone_exited (h : a.exit.isSome = true) : env.alone a n frames error buffer = a := by
  unfold ReaderEnv.alone
  split
  · split_ifs <;> rw [stepsAlone_exited h, finishAlone_exited h]
  · rw [stepsAlone_exited h, finishAlone_exited h]

/-- The next frame is handled, unless the phase is seen closed before it. -/
theorem alone_cons (h : env.closedAfter ≠ some n) :
    env.alone a n (frame :: frames) error buffer =
      env.alone (a.stepAlone (frame, env.outcomes n)) (n + 1) frames error buffer := by
  have hinputs : ∀ later, env.inputs n (frame :: later) =
      (frame, env.outcomes n) :: env.inputs (n + 1) later := fun _ => rfl
  unfold ReaderEnv.alone
  cases hclosed : env.closedAfter with
  | none =>
    dsimp only
    rw [hinputs, List.foldl_cons]
  | some k =>
    have hk : n ≠ k := fun heq => h (hclosed.trans (congrArg some heq.symm))
    have hiff : (n ≤ k ∧ k ≤ n + (frame :: frames).length) ↔
        (n + 1 ≤ k ∧ k ≤ n + 1 + frames.length) := by
      rw [List.length_cons]
      omega
    dsimp only
    by_cases hin : n + 1 ≤ k ∧ k ≤ n + 1 + frames.length
    · have htake : k - n = k - (n + 1) + 1 := by omega
      rw [if_pos (hiff.mpr hin), if_pos hin, htake, List.take_succ_cons, hinputs, List.foldl_cons]
    · rw [if_neg (fun h => hin (hiff.mp h)), if_neg hin, hinputs, List.foldl_cons]

theorem alone_closed (h : env.closedAfter = some n) :
    env.alone a n frames error buffer = a.finishAlone .closed := by
  unfold ReaderEnv.alone
  rw [h]
  dsimp only
  rw [if_pos ⟨le_rfl, Nat.le_add_right _ _⟩, Nat.sub_self, List.take_zero]
  rfl

theorem alone_nil (h : env.closedAfter ≠ some n) :
    env.alone a n [] error buffer = a.finishAlone (env.endingOf error buffer) := by
  unfold ReaderEnv.alone
  split
  · next k hclosed =>
    have hk : ¬ (n ≤ k ∧ k ≤ n + ([] : List Frame).length) := by
      rintro ⟨hle, hge⟩
      rw [List.length_nil, Nat.add_zero] at hge
      exact h (hclosed.trans (congrArg some (le_antisymm hge hle)))
    rw [if_neg hk]
    rfl
  · rfl

end Alone

namespace ReaderLoop

open ReaderTask

variable {eventSpoolCapacity capacity : ℕ} {env : ReaderEnv}
  {l : ReaderLoop eventSpoolCapacity capacity} {a : ReaderTask eventSpoolCapacity capacity}

/-- Every round handles a frame or takes a read. -/
theorem round_terminates (env : ReaderEnv) (l : ReaderLoop eventSpoolCapacity capacity) :
    ∃ r, Loop.run (round env) (l.buffer.length + l.reads.flatten.length + l.reads.length + 1) l =
      some r := by
  refine Loop.run_of_measure (I := fun _ => True)
    (fun l : ReaderLoop eventSpoolCapacity capacity =>
      l.buffer.length + l.reads.flatten.length + l.reads.length) trivial ?_
  rintro l l' - h
  refine ⟨trivial, ?_⟩
  unfold round at h
  split_ifs at h
  split at h
  · cases h
  · cases h
  · next frame buffer hd =>
    dsimp only at h
    split_ifs at h
    cases h
    cases outcome_of_decode hd with
    | taken _ hok hlong =>
      have := (lengthOk_iff.mp hok).1
      simp only [List.length_drop]
      unfold CMPP_HEADER_LENGTH at this
      omega
  · next buffer hd =>
    split at h
    · cases h
    · next chunk reads hreads =>
      cases h
      have hsame : buffer = l.buffer := by
        cases outcome_of_decode hd <;> first | rfl | contradiction
      rw [hsame, hreads]
      simp only [List.length_append, List.flatten_cons, List.length_cons]
      omega

/-- The frame-by-frame reader with the rest of the stream ends as the loops do. -/
theorem ends_alone {r : Option (ReaderTask eventSpoolCapacity capacity)}
    (h : Loop.Returns (round env) l r) (hsame : Buffers l.task a) (hrunning : a.exit = none)
    {fs later : List Frame} {error : Option Error} {buffer : List UInt8}
    (hdrains : Drains fs (l.buffer ++ l.reads.flatten) ⟨fs ++ later, error, buffer⟩) :
    ∃ t, r = some t ∧ Buffers t (env.alone a l.handled later error buffer) ∧
      t.pendingResps = [] := by
  refine Loop.Returns.induct (P := fun l => ∀ a fs later error buffer, Buffers l.task a →
    a.exit = none → Drains fs (l.buffer ++ l.reads.flatten) ⟨fs ++ later, error, buffer⟩ →
    ∃ t, r = some t ∧ Buffers t (env.alone a l.handled later error buffer) ∧ t.pendingResps = [])
    h ?_ ?_ a fs later error buffer hsame hrunning hdrains
  · intro l hround a fs later error buffer hsame hrunning hdrains
    unfold round at hround
    by_cases hclosed : env.closedAfter = some l.handled
    · rw [if_pos hclosed] at hround
      cases hround
      rw [alone_closed hclosed]
      exact ⟨_, rfl, hsame.finishLoop .closed⟩
    rw [if_neg hclosed] at hround
    split at hround
    · next hd =>
      obtain ⟨r, rest, hr, _⟩ := decode_outcome l.buffer
      rw [hd] at hr
      cases hr
    · next e rest hd =>
      cases hround
      have hfails := hdrains.fails (decode_append hd (by simp) l.reads.flatten)
      have hlater : later = [] := List.append_right_eq_self.mp (congrArg Inbound.frames hfails)
      have herror : error = some e := congrArg Inbound.error hfails
      rw [hlater, herror, alone_nil hclosed]
      exact ⟨_, rfl, hsame.finishLoop (.decodeError e)⟩
    · next f rest hd =>
      dsimp only at hround
      split_ifs at hround with hexit
      cases hround
      obtain ⟨rest', hgrows⟩ :=
        (hdrains.decoded (decode_append hd (by simp) l.reads.flatten)).grows
      have hlater : later = f :: rest' := by
        rw [List.append_assoc] at hgrows
        exact List.append_cancel_left hgrows
      have hstep : Buffers (l.task.step (.frame f (env.outcomes l.handled)))
          (a.stepAlone (f, env.outcomes l.handled)) :=
        hsame.step (.frame f (env.outcomes l.handled))
      have hended : (a.stepAlone (f, env.outcomes l.handled)).exit.isSome = true := by
        rw [hstep.exit, hexit]
      rw [hlater, alone_cons hclosed, alone_exited hended]
      exact ⟨_, rfl, hstep, hstep.flushed hexit⟩
    · next rest hd =>
      split at hround
      · next hreads =>
        cases hround
        rw [hreads, List.flatten_nil, List.append_nil] at hdrains
        have hwaits := hdrains.waits hd
        have hlater : later = [] := List.append_right_eq_self.mp (congrArg Inbound.frames hwaits)
        have herror : error = none := congrArg Inbound.error hwaits
        have hbuffer : buffer = l.buffer := congrArg Inbound.buffer hwaits
        have hrest : rest = l.buffer := by
          cases outcome_of_decode hd <;> first | rfl | contradiction
        have hending : env.ending.reader l.buffer = some (env.endingOf none l.buffer) := by
          rw [hrest] at hd
          unfold ReadEnd.reader ReaderEnv.endingOf
          cases env.ending with
          | eof =>
            rw [decodeEof_waits hd]
            by_cases hempty : l.buffer = []
            · simp only [hempty, if_true, Option.map_some, Except.map]
            · simp only [hempty, if_false, Option.map_some, Except.map]
          | _ => rfl
        rw [hlater, herror, hbuffer, alone_nil hclosed, hrest, hending]
        exact ⟨_, rfl, hsame.finishLoop _⟩
      · cases hround
  · intro l l' hround _ ih a fs later error buffer hsame hrunning hdrains
    unfold round at hround
    split_ifs at hround with hclosed
    split at hround
    · cases hround
    · cases hround
    · next f rest hd =>
      dsimp only at hround
      split_ifs at hround with hexit
      cases hround
      have hdecoded := hdrains.decoded (decode_append hd (by simp) l.reads.flatten)
      obtain ⟨rest', hgrows⟩ := hdecoded.grows
      have hgrows : fs ++ later = fs ++ [f] ++ rest' := hgrows
      have hlater : later = f :: rest' := by
        rw [List.append_assoc] at hgrows
        exact List.append_cancel_left hgrows
      have hstep : Buffers (l.task.step (.frame f (env.outcomes l.handled)))
          (a.stepAlone (f, env.outcomes l.handled)) :=
        hsame.step (.frame f (env.outcomes l.handled))
      have hgoes : (a.stepAlone (f, env.outcomes l.handled)).exit = none := by
        rw [hstep.exit]
        exact Option.not_isSome_iff_eq_none.mp hexit
      rw [hgrows] at hdecoded
      rw [hlater, alone_cons hclosed]
      exact ih _ _ _ _ _ hstep hgoes hdecoded
    · next rest hd =>
      split at hround
      · cases hround
      · next chunk reads hreads =>
        cases hround
        have hrest : rest = l.buffer := by
          cases outcome_of_decode hd <;> first | rfl | contradiction
        have hread : Buffers (l.task.step .exhausted) a := hsame.step .exhausted
        rw [hreads, List.flatten_cons, ← List.append_assoc, ← hrest] at hdrains
        exact ih _ _ _ _ _ hread hrunning hdrains

/-- The loops end, and they leave what the frame-by-frame reader leaves that has all bytes at
once. -/
theorem run_alone (env : ReaderEnv) (shared : ReaderShared eventSpoolCapacity capacity)
    {readBuf : List UInt8} {reads : List (List UInt8)} {i : Inbound}
    (h : Drains [] (readBuf ++ reads.flatten) i) :
    ∃ t, run env shared readBuf reads = some t ∧
      Buffers t (env.alone (.start shared) 0 i.frames i.error i.buffer) ∧ t.pendingResps = [] := by
  have hstart : Buffers (start shared) (start shared) :=
    ⟨ReaderShared.flush_nil.symm, rfl, rfl, fun _ => rfl, List.forall_mem_nil _⟩
  obtain ⟨r, hr⟩ := round_terminates env ⟨.start shared, 0, readBuf, reads⟩
  have hreturns : Loop.Returns (round env) ⟨.start shared, 0, readBuf, reads⟩ r := ⟨_, hr⟩
  have hdrains : Drains [] (readBuf ++ reads.flatten) ⟨[] ++ i.frames, i.error, i.buffer⟩ := h
  obtain ⟨t, rfl, hsame, hempty⟩ := ends_alone hreturns hstart rfl hdrains
  refine ⟨t, ?_, hsame, hempty⟩
  unfold run
  rw [hr, Option.join_some]

end ReaderLoop

end CmppProtocol
