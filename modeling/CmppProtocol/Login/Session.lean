import CmppProtocol.Connection.Outgoing
import CmppProtocol.Login.Connect
import CmppProtocol.Reader.Bytes

/-! # From the login to the reader

The login takes one frame off the stream and hands the rest of its buffer to the
reader. The two together are the check of the first frame and the frame-by-frame
reader on the other ones, however the bytes were cut.
-/

namespace CmppProtocol

open CmppFrameCodec

/-- The first frame of a stream that was decoded, or how its end is reported. -/
def CmppFrameCodec.Inbound.first (ending : StreamEnd) (i : Inbound) : Except Error (Option Frame) :=
  match i.frames, i.error with
  | frame :: _, _ => .ok (some frame)
  | [], some e => .error e
  | [], none =>
    match ending with
    | .silent => .error (.connect "CONNECT_RESP 超时")
    | .failed message => .error (.io message)
    | .eof => if i.buffer = [] then .ok none else .error (.io "bytes remaining on stream")

namespace FramedRead

variable {ending : StreamEnd} {sent buffer rest : List UInt8} {chunks : List (List UInt8)}
  {r : Except Error (Option Frame)}

/-- What the first frame is decides, and the bytes behind it are in the buffer or still to be
read. -/
theorem nextFrom_decides (ending : StreamEnd) (sent : List UInt8)
    (hwaits : decode buffer = some (.ok none, buffer))
    (h : decode (buffer ++ chunks.flatten) = some (r, rest)) (hr : r ≠ .ok none) :
    ∃ later reads, nextFrom ending sent chunks buffer = some (r, ⟨sent, later, reads⟩) ∧
      later ++ reads.flatten = rest := by
  induction chunks generalizing buffer with
  | nil =>
    rw [List.flatten_nil, List.append_nil, hwaits] at h
    cases h
    exact absurd rfl hr
  | cons chunk chunks ih =>
    rw [List.flatten_cons, ← List.append_assoc] at h
    obtain ⟨r', rest', hd, hout⟩ := decode_outcome (buffer ++ chunk)
    rw [nextFrom, hd]
    by_cases hmore : r' = .ok none
    · subst hmore
      have hsame : rest' = buffer ++ chunk := by cases hout <;> first | rfl | contradiction
      rw [hsame] at hd ⊢
      exact ih hd h
    · have hwhole := decode_append hd hmore chunks.flatten
      rw [h, Option.some.injEq, Prod.mk.injEq] at hwhole
      obtain ⟨hsame, hrest⟩ := hwhole
      refine ⟨rest', chunks, ?_, hrest.symm⟩
      rw [hsame]
      cases r' with
      | error e => rfl
      | ok frame =>
        cases frame with
        | none => exact absurd rfl hmore
        | some frame => rfl

/-- Bytes that are not a whole frame leave the end of the stream to decide. -/
theorem nextFrom_ends (h : decode (buffer ++ chunks.flatten) =
    some (.ok none, buffer ++ chunks.flatten)) :
    nextFrom ending sent chunks buffer = nextFrom ending sent [] (buffer ++ chunks.flatten) := by
  induction chunks generalizing buffer with
  | nil => rw [List.flatten_nil, List.append_nil]
  | cons chunk chunks ih =>
    rw [List.flatten_cons, ← List.append_assoc] at h
    obtain ⟨r', rest', hd, hout⟩ := decode_outcome (buffer ++ chunk)
    have hmore : r' = .ok none := by
      by_contra hne
      rw [decode_append hd hne chunks.flatten, Option.some.injEq, Prod.mk.injEq] at h
      exact hne h.1
    subst hmore
    have hsame : rest' = buffer ++ chunk := by cases hout <;> first | rfl | contradiction
    rw [hsame] at hd
    rw [nextFrom, hd, List.flatten_cons, ← List.append_assoc]
    exact ih h

/-- The login learns the first frame of the stream, and the other ones are left to be decoded. -/
theorem next_first (ending : StreamEnd) (sent : List UInt8) {i : Inbound}
    (h : Drains [] chunks.flatten i) :
    ∃ later reads, next ending ⟨sent, [], chunks⟩ =
        some (i.first ending, ⟨sent, later, reads⟩) ∧
      ∀ frame frames, i.frames = frame :: frames →
        Drains [] (later ++ reads.flatten) ⟨frames, i.error, i.buffer⟩ := by
  obtain ⟨r, rest, hd, hout⟩ := decode_outcome chunks.flatten
  have hwaits : decode [] = some (.ok none, []) := decode_short (by decide)
  cases r with
  | error e =>
    obtain ⟨later, reads, hnext, _⟩ := nextFrom_decides ending sent hwaits hd
      (by simp)
    refine ⟨later, reads, ?_, ?_⟩
    · rw [h.fails hd]
      exact hnext
    · intro frame frames hframes
      rw [h.fails hd] at hframes
      cases hframes
  | ok first =>
    cases first with
    | none =>
      have hrest : rest = chunks.flatten := by cases hout <;> first | rfl | contradiction
      rw [hrest] at hd
      refine ⟨chunks.flatten, [], ?_, ?_⟩
      · rw [h.waits hd]
        change nextFrom ending sent chunks [] = _
        rw [nextFrom_ends hd, List.nil_append]
        cases ending with
        | silent => rfl
        | failed message => rfl
        | eof =>
          rw [nextFrom, decodeEof_waits hd]
          rfl
      · intro frame frames hframes
        rw [h.waits hd] at hframes
        cases hframes
    | some first =>
      obtain ⟨later, reads, hnext, hrest⟩ := nextFrom_decides ending sent
        hwaits hd (by simp)
      have hdecoded := h.decoded hd
      obtain ⟨others, hgrows⟩ := hdecoded.grows
      refine ⟨later, reads, ?_, ?_⟩
      · simp only [Inbound.first, hgrows]
        exact hnext
      · intro frame frames hframes
        rw [hrest]
        rw [hframes] at hgrows
        cases hgrows
        exact hdecoded.forget hframes

end FramedRead

/-! ## The login -/

section Login

open Login

variable (md5 : List UInt8 → Vector UInt8 16) (c : CmppConfig) (env : LoginEnv)
  (udhReferenceCooldown : ℕ)

/-- Everything before the first write goes well. -/
structure Login.Admitted : Prop where
  valid : c.Valid
  cooldown_pos : 0 < udhReferenceCooldown
  cooldown_le : udhReferenceCooldown ≤ MAX_UDH_REFERENCE_COOLDOWN
  connected : env.connected = .completed

/-- Everything before the first read goes well. -/
structure Login.Ready : Prop extends Login.Admitted c env udhReferenceCooldown where
  written : env.written = .completed

/-- The first frame on the wire. -/
def Login.connectFrame : Frame := ⟨1, .connect (connectPdu md5 c env)⟩

variable {c env udhReferenceCooldown}

theorem Login.connect_admitted (h : Admitted c env udhReferenceCooldown) :
    connect md5 c env udhReferenceCooldown =
      (do
        writeConnect md5 c env
        let frame ← FramedRead.next env.ending
        ofExcept (checkResponse md5 c env frame)
        pure (.of c h.valid udhReferenceCooldown) : Fallible Error LoginSocket Established) := by
  have hin : ¬ (udhReferenceCooldown = 0 ∨ MAX_UDH_REFERENCE_COOLDOWN < udhReferenceCooldown) := by
    have := h.cooldown_pos
    have := h.cooldown_le
    omega
  rw [connect, CmppConfig.checked_of_valid h.valid]
  simp only [ofExcept, Fallible.pure_bind', if_neg hin]
  rw [setupTcp, h.connected]
  rfl

theorem Login.encode_connect :
    encodePdu (.connect (connectPdu md5 c env)) 1 = (connectFrame md5 c env).octets :=
  encodePdu_octets id 1

theorem Login.connect_ready (h : Ready c env udhReferenceCooldown) (socket : LoginSocket) :
    connect md5 c env udhReferenceCooldown socket =
      (do
        let frame ← FramedRead.next env.ending
        ofExcept (checkResponse md5 c env frame)
        pure (.of c h.valid udhReferenceCooldown) : Fallible Error LoginSocket Established)
        { socket with sent := socket.sent ++ (connectFrame md5 c env).octets } := by
  rw [connect_admitted md5 h.toAdmitted, writeConnect, h.written, encode_connect]
  rfl

/-- Of a CONNECT whose write does not complete the front has gone out, and the stream is not looked
at. -/
theorem Login.connect_unwritten (h : Admitted c env udhReferenceCooldown)
    (hwritten : env.written ≠ .completed) :
    ∃ e, ∀ socket, connect md5 c env udhReferenceCooldown socket =
      some (.error e, { socket with
        sent := socket.sent ++ (connectFrame md5 c env).octets.take env.octetsWritten }) := by
  rw [connect_admitted md5 h, writeConnect, encode_connect]
  cases hwrite : env.written with
  | completed => exact absurd hwrite hwritten
  | timedOut => exact ⟨_, fun _ => rfl⟩
  | failed message => exact ⟨_, fun _ => rfl⟩

/-- Before the write nothing has gone out, and the stream is not looked at. -/
theorem Login.connect_not_admitted (h : ¬ Admitted c env udhReferenceCooldown) :
    ∃ e, ∀ socket, connect md5 c env udhReferenceCooldown socket = some (.error e, socket) := by
  by_cases hvalid : c.Valid
  · rw [connect, CmppConfig.checked_of_valid hvalid]
    by_cases hin : udhReferenceCooldown = 0 ∨ MAX_UDH_REFERENCE_COOLDOWN < udhReferenceCooldown
    · simp only [ofExcept, Fallible.pure_bind', if_pos hin]
      exact ⟨_, fun _ => rfl⟩
    · simp only [ofExcept, Fallible.pure_bind', if_neg hin]
      cases hconnected : env.connected with
      | timedOut =>
        rw [setupTcp, hconnected]
        exact ⟨_, fun _ => rfl⟩
      | failed message =>
        rw [setupTcp, hconnected]
        exact ⟨_, fun _ => rfl⟩
      | completed => exact absurd ⟨hvalid, by omega, by omega, hconnected⟩ h
  · obtain ⟨message, hrejected⟩ := CmppConfig.checked_of_not_valid hvalid
    rw [connect, hrejected]
    exact ⟨_, fun _ => rfl⟩

/-- What the login makes of the stream. -/
def Login.verdict (env : LoginEnv) (i : Inbound) : Except Error Unit :=
  match i.first env.ending with
  | .error e => .error e
  | .ok frame => checkResponse md5 c env frame

/-- The login takes the first frame and no other byte. -/
theorem Login.connect_first (h : Ready c env udhReferenceCooldown) {chunks : List (List UInt8)}
    {i : Inbound} (hstream : Drains [] chunks.flatten i) :
    ∃ later reads, connect md5 c env udhReferenceCooldown ⟨[], [], chunks⟩ =
        some ((verdict (c := c) md5 env i).map fun _ => .of c h.valid udhReferenceCooldown,
          ⟨(connectFrame md5 c env).octets, later, reads⟩) ∧
      ∀ frame frames, i.frames = frame :: frames →
        Drains [] (later ++ reads.flatten) ⟨frames, i.error, i.buffer⟩ := by
  obtain ⟨later, reads, hnext, hrest⟩ := FramedRead.next_first env.ending
    (connectFrame md5 c env).octets hstream
  refine ⟨later, reads, ?_, hrest⟩
  rw [connect_ready md5 h, List.nil_append, verdict]
  cases hfirst : i.first env.ending with
  | error e =>
    rw [hfirst] at hnext
    exact Fallible.bind_error hnext
  | ok frame =>
    rw [hfirst] at hnext
    simp only [Bind.bind, hnext]
    cases checkResponse md5 c env frame with
    | error e => rfl
    | ok _ => rfl

/-- Only a frame is accepted. -/
theorem Login.verdict_frames {i : Inbound} (h : verdict (c := c) md5 env i = .ok ()) :
    ∃ frame frames, i.frames = frame :: frames ∧ checkResponse md5 c env (some frame) = .ok () := by
  unfold verdict Inbound.first at h
  cases hframes : i.frames with
  | cons frame frames =>
    rw [hframes] at h
    exact ⟨frame, frames, rfl, h⟩
  | nil =>
    rw [hframes] at h
    cases herror : i.error with
    | some e =>
      rw [herror] at h
      cases h
    | none =>
      rw [herror] at h
      cases hending : env.ending with
      | silent =>
        rw [hending] at h
        cases h
      | failed message =>
        rw [hending] at h
        cases h
      | eof =>
        rw [hending] at h
        dsimp only at h
        split_ifs at h
        all_goals cases h

/-! ## The session -/

section Session

variable {eventSpoolCapacity capacity : ℕ}

/-- What the tasks were given, and the reader where it left. -/
structure SessionResult (eventSpoolCapacity capacity : ℕ) where
  established : Established
  shared : ReaderShared eventSpoolCapacity capacity
  exit : Option ReaderExit

/-- The login, and then the reader on what the login has left over. -/
def session (c : CmppConfig) (env : LoginEnv) (readerEnv : ReaderEnv) (udhReferenceCooldown : ℕ)
    (shared : ReaderShared eventSpoolCapacity capacity) (chunks : List (List UInt8)) :
    Option (List UInt8 × Except Error (SessionResult eventSpoolCapacity capacity)) :=
  match connect md5 c env udhReferenceCooldown ⟨[], [], chunks⟩ with
  | none => none
  | some (.error e, socket) => some (socket.sent, .error e)
  | some (.ok established, socket) =>
    (ReaderLoop.run readerEnv shared socket.buffer socket.reads).map fun t =>
      (socket.sent, .ok ⟨established, t.shared, t.exit⟩)

/-- The session on a stream that was decoded: the first frame is checked and the frame-by-frame
reader has the other ones. -/
def sessionOf (readerEnv : ReaderEnv) (h : Ready c env udhReferenceCooldown)
    (shared : ReaderShared eventSpoolCapacity capacity) (i : Inbound) :
    Except Error (SessionResult eventSpoolCapacity capacity) :=
  (verdict (c := c) md5 env i).map fun _ =>
    let t := readerEnv.alone (.start shared) 0 i.frames.tail i.error i.buffer
    ⟨.of c h.valid udhReferenceCooldown, t.shared, t.exit⟩

theorem session_eq (readerEnv : ReaderEnv) (h : Ready c env udhReferenceCooldown)
    (shared : ReaderShared eventSpoolCapacity capacity) {chunks : List (List UInt8)} {i : Inbound}
    (hstream : Drains [] chunks.flatten i) :
    session md5 c env readerEnv udhReferenceCooldown shared chunks =
      some ((connectFrame md5 c env).octets, sessionOf md5 readerEnv h shared i) := by
  obtain ⟨later, reads, hconnect, hrest⟩ := connect_first md5 h hstream
  unfold session sessionOf
  rw [hconnect]
  cases hverdict : verdict (c := c) md5 env i with
  | error e => rfl
  | ok accepted =>
    obtain ⟨frame, frames, hframes, _⟩ := verdict_frames md5 hverdict
    obtain ⟨t, ht, hsame, hempty⟩ := ReaderLoop.run_alone readerEnv shared (hrest _ _ hframes)
    have hshared : (readerEnv.alone (.start shared) 0 frames i.error i.buffer).shared =
        t.shared := by
      have hflushed := hsame.shared
      rw [ReaderTask.flush, hempty] at hflushed
      exact hflushed.trans ReaderShared.flush_nil
    simp only [Except.map, ht, Option.map_some, hframes, List.tail_cons, hshared, hsame.exit]

/-- The login and the reader see the bytes of the peer as one stream. However it is cut into reads,
the first frame decides the login, every frame behind it goes to the reader once and in order, and
what the session leaves is what the frame-by-frame reader leaves. A login that is refused before it
can write sends nothing, and of a CONNECT whose write fails the front has gone out; neither looks at
the stream. -/
theorem session_refines (c : CmppConfig) (env : LoginEnv) (readerEnv : ReaderEnv)
    (udhReferenceCooldown : ℕ) (shared : ReaderShared eventSpoolCapacity capacity) :
    (∀ h : Ready c env udhReferenceCooldown, ∀ chunks i,
      Inbound.start.readAll [chunks.flatten] = some i →
      session md5 c env readerEnv udhReferenceCooldown shared chunks =
        some ((connectFrame md5 c env).octets, sessionOf md5 readerEnv h shared i)) ∧
    (¬ Admitted c env udhReferenceCooldown → ∃ e, ∀ chunks,
      session md5 c env readerEnv udhReferenceCooldown shared chunks = some ([], .error e)) ∧
    (Admitted c env udhReferenceCooldown → env.written ≠ .completed → ∃ e, ∀ chunks,
      session md5 c env readerEnv udhReferenceCooldown shared chunks =
        some ((connectFrame md5 c env).octets.take env.octetsWritten, .error e)) ∧
    ∀ chunks chunks' : List (List UInt8), chunks.flatten = chunks'.flatten →
      session md5 c env readerEnv udhReferenceCooldown shared chunks =
        session md5 c env readerEnv udhReferenceCooldown shared chunks' := by
  have hrefused : ¬ Admitted c env udhReferenceCooldown → ∃ e, ∀ chunks,
      session md5 c env readerEnv udhReferenceCooldown shared chunks = some ([], .error e) := by
    intro hadmitted
    obtain ⟨e, he⟩ := connect_not_admitted md5 hadmitted
    refine ⟨e, fun chunks => ?_⟩
    rw [session, he]
  have hunwritten : Admitted c env udhReferenceCooldown → env.written ≠ .completed →
      ∃ e, ∀ chunks, session md5 c env readerEnv udhReferenceCooldown shared chunks =
        some ((connectFrame md5 c env).octets.take env.octetsWritten, .error e) := by
    intro hadmitted hwritten
    obtain ⟨e, he⟩ := connect_unwritten md5 hadmitted hwritten
    refine ⟨e, fun chunks => ?_⟩
    rw [session, he]
    rfl
  refine ⟨?_, hrefused, hunwritten, ?_⟩
  · intro h chunks i hstream
    exact session_eq md5 readerEnv h shared (drains_of_readAll hstream)
  · intro chunks chunks' hflat
    by_cases hadmitted : Admitted c env udhReferenceCooldown
    · by_cases hwritten : env.written = .completed
      · obtain ⟨i, hi⟩ := drain_terminates [] chunks.flatten
        have hready : Ready c env udhReferenceCooldown := ⟨hadmitted, hwritten⟩
        have hstream : Drains [] chunks.flatten i := ⟨_, hi⟩
        have hstream' : Drains [] chunks'.flatten i := hflat ▸ hstream
        rw [session_eq md5 readerEnv hready shared hstream,
          session_eq md5 readerEnv hready shared hstream']
      · obtain ⟨e, he⟩ := hunwritten hadmitted hwritten
        rw [he chunks, he chunks']
    · obtain ⟨e, he⟩ := hrefused hadmitted
      rw [he chunks, he chunks']

end Session

end Login

end CmppProtocol
