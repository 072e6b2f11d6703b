import CmppProtocol.Connection.Outgoing

/-! # What the other side reads

The other side reads the frames that were said, as far as their octets have come.
No two requests go out under one id.
-/

namespace CmppProtocol

open SequenceState

namespace Outbound

/-- What a frame asks the peer for. -/
def request (outbound : Outbound) : Option Connection.Request :=
  match outbound.submitAttempt, outbound.heartbeatAttempt with
  | some key, _ => some (.submit key.submissionId)
  | none, some key => some (.heartbeat key.heartbeatId)
  | none, none => if outbound.writtenFlag then some .terminate else none

end Outbound

namespace Connection

variable {gbk : Gbk} {config : ConnectionConfig} {s s' : Connection} {event : ConnectionEvent}
  {events : List ConnectionEvent} {named named' : List (ℕ × Request)} {o : Outbound} {f : Frame}

/-- What a control frame says: a heartbeat or the TERMINATE under its own id, or a response to a
frame that was read. -/
inductive Means (named : List (ℕ × Request)) (events : List ConnectionEvent) :
    Outbound → Frame → Prop
  | activeTest (packet : List UInt8) (key : HeartbeatAttemptKey) :
    (key.sequenceId, .heartbeat key.heartbeatId) ∈ named →
    Means named events (.heartbeat packet key) ⟨.ofNat key.sequenceId, .activeTest⟩
  | terminate (packet : List UInt8) (id : ℕ) :
    (id, .terminate) ∈ named →
    Means named events (.localTerminate packet) ⟨.ofNat id, .terminate⟩
  | answer (o : Outbound) (f : Frame) :
    o.isAnswer = true → f ∈ events.filterMap answerTo → Means named events o f

theorem Means.mono {events' : List ConnectionEvent} (h : Means named events o f)
    (hnamed : named <+: named') (hevents : events <+: events') : Means named' events' o f := by
  cases h with
  | activeTest packet key hmem => exact .activeTest packet key (hnamed.subset hmem)
  | terminate packet id hmem => exact .terminate packet id (hnamed.subset hmem)
  | answer o f hanswer hmem => exact .answer o f hanswer ((hevents.filterMap answerTo).subset hmem)

/-- A control frame with its meaning; the frames of the submit queue have theirs elsewhere. -/
def Meant (named : List (ℕ × Request)) (events : List ConnectionEvent) (o : Outbound) : Prop :=
  o.IsQueued ∨ ∃ f, o.packet = f.octets ∧ ¬ f.pdu.Oversized ∧ Means named events o f

theorem Voices.means (h : Voices s event o f) (henrolled : Enrolled named s)
    (hanswering : Answering events s) : Means named (events ++ [event]) o f := by
  cases h with
  | activeTest lease key hstage => exact .activeTest _ key (henrolled.prepared lease key hstage)
  | retry now key entry hstage hawaiting =>
    obtain ⟨hfind, hid, _⟩ := heartbeatAwaiting_some hawaiting
    have hnamed := henrolled.pending _ (OrderedMap.find_eq_some_iff.mp hfind)
    rw [hid] at hnamed
    exact .activeTest _ { key with attempt := key.attempt + 1 } hnamed
  | terminate id hstage =>
    refine .terminate _ id (henrolled.terminate id ?_)
    rw [hstage]
    rfl
  | activeTestResp sequenceId hflushed =>
    refine .answer _ _ rfl ?_
    rw [List.filterMap_append]
    exact List.mem_append_right _ (List.mem_singleton_self _)
  | deliverResp sequenceId deliver ticket hflushed =>
    refine .answer _ _ rfl ?_
    rw [List.filterMap_append]
    exact List.mem_append_right _ (List.mem_singleton_self _)
  | terminateResp sequenceId hstage =>
    obtain ⟨answered, hall, _⟩ := hanswering
    refine .answer _ _ rfl ?_
    rw [List.filterMap_append, ← hall, hstage]
    exact List.mem_append_left _ (List.mem_append_right _ (List.mem_singleton_self _))

theorem bears_meant_next (h : s.Bears (Meant named events)) (hw : s.Wired config)
    (henrolled : Enrolled named s) (hanswering : Answering events s) (hnamed : named <+: named')
    (hnext : next gbk config s event = some s') : s'.Bears (Meant named' (events ++ [event])) := by
  have hmono : s.Bears (Meant named' (events ++ [event])) := fun o ho =>
    (h o ho).imp_right fun ⟨f, hpacket, hfits, hmeans⟩ =>
      ⟨f, hpacket, hfits, hmeans.mono hnamed (List.prefix_append _ _)⟩
  by_cases hwriter : ∃ e, event = .writer e
  · obtain ⟨e, rfl⟩ := hwriter
    exact hmono.writerMove hw (fun _ => Or.inl) (writerNext_move hnext)
  have hfeeds := feeds_next (not_exists.mp hwriter) hnext
  rcases adds_next (not_exists.mp hwriter) hnext with hsame | ⟨o, f, hvoices, hcontrol⟩
  · exact hmono.same hfeeds.writer hfeeds.handed hsame
  · have hmeans := (hvoices.means henrolled hanswering).mono hnamed (List.prefix_refl _)
    have hmeant : Meant named' (events ++ [event]) o :=
      Or.inr ⟨f, hvoices.packet, hvoices.fits, hmeans⟩
    exact hmono.queue hmeant hfeeds.writer hfeeds.handed hcontrol

/-- The socket gets the frames of a batch, and those are no drain markers. -/
theorem handed_next (h : ∀ o ∈ s.log.handed, o.IsFrame) (hw : s.Wired config)
    (hnext : next gbk config s event = some s') : ∀ o ∈ s'.log.handed, o.IsFrame := by
  by_cases hwriter : ∃ e, event = .writer e
  · obtain ⟨e, rfl⟩ := hwriter
    cases writerNext_move hnext with
    | hand hstage => exact List.forall_mem_append.mpr ⟨h, hw.writer.batch⟩
    | giveUp hstage =>
      rw [finish_eq]
      exact h
    | _ => exact h
  · rw [(feeds_next (not_exists.mp hwriter) hnext).handed]
    exact h

/-- Each run gives every request one id, and every control frame its meaning. -/
theorem meant_run {clock : ℕ} {udhCounter : UInt32}
    (hrun : (machine gbk config clock udhCounter).Run events s) :
    (∀ o ∈ s.log.handed, o.IsFrame) ∧
      ∃ named, Enrolled named s ∧ s.Bears (Meant named events) := by
  refine (hrun.invariant (I := fun events s => (s.Sound config ∧ s.Bears Known ∧
    Answering events s) ∧ (∀ o ∈ s.log.handed, o.IsFrame) ∧
      ∃ named, Enrolled named s ∧ s.Bears (Meant named events)) ?_ ?_).2
  · rintro s rfl
    exact ⟨⟨sound_initial config clock udhCounter, List.forall_mem_nil _,
      answering_initial config clock udhCounter⟩, List.forall_mem_nil _, [],
      enrolled_initial config clock udhCounter, List.forall_mem_nil _⟩
  · rintro events s event s' ⟨⟨hsound, hknown, hanswering⟩, hhanded, named, henrolled, hbears⟩ hnext
    obtain ⟨named', hprefix, henrolled'⟩ := henrolled.next hsound hnext
    exact ⟨⟨hsound.next hnext, bears_known_next hknown hsound.wired hnext,
      hanswering.next hsound.wired hknown hnext⟩, handed_next hhanded hsound.wired hnext, named',
      henrolled', bears_meant_next hbears hsound.wired henrolled hanswering hprefix hnext⟩

/-! ## SUBMITs -/

/-- The frame is an attempt of an admitted segment, with the options and the text of its call. -/
structure SpeaksFor (gbk : Gbk) (events : List ConnectionEvent) (s : Connection) (o : Outbound)
    (f : Frame) (a : Admission) : Prop where
  admitted : a ∈ s.log.admissions
  attempt : ∃ n, o = a.frame n
  frame : ∃ options content base call segment,
    (submissions events)[a.call]? = some (options, content, base) ∧
    s.calls[a.call]? = some call ∧
    call.plan.segment gbk a.segment call.udhReference () = some (.ok segment, ()) ∧
    f = ⟨.ofNat a.sequenceId, .submit (options.buildSubmitTemplate.applySegment segment)⟩

theorem octets_of_tryEncode {submit : Submit} {sequenceId : UInt32} {packet : List UInt8}
    (h : submit.tryEncode sequenceId () = some (.ok packet, ())) :
    submit.Encodable ∧ packet = Frame.octets ⟨sequenceId, .submit submit⟩ := by
  have hfits : submit.Encodable := by
    simp only [Submit.tryEncode, Submit.validateEncode] at h
    split_ifs at h with hdest hcontent
    · simp [Fallible.fail_apply] at h
    · simp [Fallible.fail_apply] at h
    · exact ⟨not_lt.mp hdest, not_lt.mp hcontent⟩
  rw [Submit.tryEncode_eq hfits] at h
  cases h
  exact ⟨hfits, rfl⟩

theorem speaksFor_of_admitted (hreported : Reported gbk events s) {a : Admission}
    (ha : a ∈ s.log.admissions) (n : ℕ) :
    ∃ f : Frame, (a.frame n).packet = f.octets ∧ ¬ f.pdu.Oversized ∧
      SpeaksFor gbk events s (a.frame n) f a := by
  have hlt := hreported.callers a ha
  have hlt' : a.call < (submissions events).length := hreported.length_eq ▸ hlt
  have htold := hreported.told a.call _ _ _ _ (List.getElem?_eq_getElem hlt')
    (List.getElem?_eq_getElem hlt)
  obtain ⟨segment, hsegment, hencode⟩ :=
    htold.frames a (List.mem_filter.mpr ⟨ha, decide_eq_true rfl⟩)
  obtain ⟨hfits, hpacket⟩ := octets_of_tryEncode hencode
  exact ⟨_, hpacket, not_or.mpr ⟨not_lt.mpr hfits.1, not_lt.mpr hfits.2⟩, ha, ⟨n, rfl⟩, _, _, _, _,
    segment, List.getElem?_eq_getElem hlt', List.getElem?_eq_getElem hlt, hsegment, rfl⟩

/-- A frame on the socket: its octets, and what it says. -/
structure Legible (gbk : Gbk) (events : List ConnectionEvent) (s : Connection)
    (named : List (ℕ × Request)) (o : Outbound) (f : Frame) : Prop where
  packet : o.packet = f.octets
  fits : ¬ f.pdu.Oversized
  meaning : Means named events o f ∨ ∃ a, SpeaksFor gbk events s o f a ∧
    (a.sequenceId, .submit a.submissionId) ∈ named

theorem legible_handed (hsound : s.Sound config) (hreported : Reported gbk events s)
    (henrolled : Enrolled named s) (hframe : o.IsFrame) (hmeant : Meant named events o)
    (ho : o ∈ s.log.handed) : ∃ f, Legible gbk events s named o f := by
  rcases hmeant with hqueued | ⟨f, hpacket, hfits, hmeans⟩
  · obtain ⟨packet, key, heq⟩ := hqueued.isSubmit hframe.submitDrainMarker
    obtain ⟨a, ha, n, hown⟩ :=
      hsound.disciplined.owned o ho (by rw [heq]; exact Option.some_ne_none _)
    obtain ⟨f, hpacket, hfits, hspeaks⟩ := speaksFor_of_admitted hreported ha n
    rw [hown]
    exact ⟨f, hpacket, hfits, Or.inr ⟨a, hspeaks, henrolled.admitted a ha⟩⟩
  · exact ⟨f, hpacket, hfits, Or.inl hmeans⟩

theorem exists_forall₂ {α β : Type*} {P : α → β → Prop} {xs : List α} (h : ∀ x ∈ xs, ∃ y, P x y) :
    ∃ ys, List.Forall₂ P xs ys := by
  induction xs with
  | nil => exact ⟨[], .nil⟩
  | cons x xs ih =>
    obtain ⟨hfirst, hrest⟩ := List.forall_mem_cons.mp h
    obtain ⟨y, hy⟩ := hfirst
    obtain ⟨ys, hys⟩ := ih hrest
    exact ⟨y :: ys, .cons hy hys⟩

theorem packets_of_legible {frames : List Frame} {outbounds : List Outbound}
    (h : List.Forall₂ (Legible gbk events s named) outbounds frames) :
    outbounds.flatMap Outbound.packet = frames.flatMap Frame.octets ∧
      ∀ f ∈ frames, ¬ f.pdu.Oversized := by
  induction h with
  | nil => exact ⟨rfl, List.forall_mem_nil _⟩
  | cons hlegible _ ih =>
    obtain ⟨hoctets, hfits⟩ := ih
    rw [List.flatMap_cons, List.flatMap_cons, hlegible.packet, hoctets]
    exact ⟨rfl, List.forall_mem_cons.mpr ⟨hlegible.fits, hfits⟩⟩

/-- The octets handed to the socket are those of frames, each with its meaning; and whatever part of
them has arrived at the other side, cut as it may be, just the frames that lie whole in it are
read. -/
theorem outgoing_legible {clock : ℕ} {udhCounter : UInt32}
    (hrun : (machine gbk config clock udhCounter).Run events s) :
    ∃ named frames, (named.map Prod.fst).Nodup ∧
      List.Forall₂ (Legible gbk events s named) s.log.handed frames ∧
      ∀ chunks : List (List UInt8), chunks.flatten <+: s.log.handed.flatMap Outbound.packet →
        ∃ n rest, CmppFrameCodec.Whole frames chunks.flatten n rest ∧
          CmppFrameCodec.Inbound.start.readAll chunks =
            some ⟨(frames.take n).map Frame.onWire, none, rest⟩ := by
  obtain ⟨hhanded, named, henrolled, hbears⟩ := meant_run hrun
  obtain ⟨frames, hframes⟩ := exists_forall₂ fun o ho =>
    legible_handed (sound_run hrun) (reported_run hrun) henrolled (hhanded o ho)
      (hbears o (List.mem_append_left _ ho)) ho
  obtain ⟨hoctets, hfits⟩ := packets_of_legible hframes
  refine ⟨named, frames, henrolled.nodup, hframes, fun chunks hchunks => ?_⟩
  rw [hoctets] at hchunks
  exact CmppFrameCodec.reads_front hfits hchunks rfl

/-- Half of the octets have arrived. -/
theorem outgoing_legible_half : ∃ s named frames n rest,
    (machine asciiGbk smallConfig 0 0).Run speakFour s ∧ s.log.handed.length = 4 ∧
      (named.map Prod.fst).Nodup ∧
      List.Forall₂ (Legible asciiGbk speakFour s named) s.log.handed frames ∧
      CmppFrameCodec.Whole frames ((s.log.handed.flatMap Outbound.packet).take 105) n rest ∧
      CmppFrameCodec.Inbound.start.readAll [(s.log.handed.flatMap Outbound.packet).take 105] =
        some ⟨(frames.take n).map Frame.onWire, none, rest⟩ := by
  have hexec : (Machine.exec (next asciiGbk smallConfig) (initial smallConfig 0 0) speakFour).map
      (fun s => s.log.handed.length) = some 4 := by decide +kernel
  obtain ⟨s, hrun, hhanded⟩ := Machine.exists_run_of_exec _ hexec
  obtain ⟨named, frames, hnodup, hlegible, hreads⟩ := outgoing_legible hrun
  obtain ⟨n, rest, hwhole, hread⟩ := hreads [(s.log.handed.flatMap Outbound.packet).take 105] (by
    rw [List.flatten_singleton]
    exact List.take_prefix _ _)
  rw [List.flatten_singleton] at hwhole
  exact ⟨s, named, frames, n, rest, hrun, hhanded, hnodup, hlegible, hwhole, hread⟩

/-! ## One id for one request -/

theorem wordAt_octets (f : Frame) : wordAt f.octets 8 = f.sequenceId :=
  Frame.wordAt_toBeBytes f.sequenceId f.pdu.body

theorem Enrolled.le_u32Max (h : Enrolled named s) (hledger : Ledger config s.holdings)
    {p : ℕ × Request} (hp : p ∈ named) : p.1 ≤ u32Max := by
  apply hledger.holds.wellFormed.blocked_le
  rcases h.spent p hp with hadmitted | hspent
  · exact hledger.blocked _ hadmitted
  · exact Or.inl hspent.passed

theorem request_of_isAnswer (h : o.isAnswer = true) : o.request = none := by
  simp only [Outbound.isAnswer, Bool.and_eq_true, Option.isNone_iff_eq_none, Bool.not_eq_true'] at h
  obtain ⟨⟨⟨hsubmit, hheartbeat⟩, _⟩, hflag⟩ := h
  simp [Outbound.request, hsubmit, hheartbeat, hflag]

/-- The frame of a request, from its id. -/
inductive Asks (s : Connection) : ℕ → Request → Outbound → Prop
  | submit (a : Admission) (attempt : ℕ) :
    a ∈ s.log.admissions → Asks s a.sequenceId (.submit a.submissionId) (a.frame attempt)
  | heartbeat (o : Outbound) (id : ℕ) (heartbeatId : UInt64) :
    o.packet = Frame.octets ⟨.ofNat id, .activeTest⟩ → Asks s id (.heartbeat heartbeatId) o
  | terminate (o : Outbound) (id : ℕ) :
    o.packet = Frame.octets ⟨.ofNat id, .terminate⟩ → Asks s id .terminate o

theorem Legible.asks (h : Legible gbk events s named o f) {r : Request} (hr : o.request = some r) :
    ∃ id, (id, r) ∈ named ∧ f.sequenceId = .ofNat id ∧ Asks s id r o := by
  have hpacket := h.packet
  rcases h.meaning with hmeans | ⟨a, hspeaks, hnamed⟩
  · cases hmeans with
    | activeTest packet key hmem =>
      cases hr
      exact ⟨_, hmem, rfl, .heartbeat _ _ _ hpacket⟩
    | terminate packet id hmem =>
      cases hr
      exact ⟨_, hmem, rfl, .terminate _ _ hpacket⟩
    | answer o f hanswer hmem =>
      rw [request_of_isAnswer hanswer] at hr
      cases hr
  · obtain ⟨n, rfl⟩ := hspeaks.attempt
    obtain ⟨_, _, _, _, _, _, _, _, rfl⟩ := hspeaks.frame
    cases hr
    exact ⟨_, hnamed, rfl, .submit a n hspeaks.admitted⟩

theorem Asks.packet_eq {o' : Outbound} {id : ℕ} {r : Request} (hsound : s.Sound config)
    (h : Asks s id r o) (h' : Asks s id r o') : o.packet = o'.packet := by
  generalize hx : id = x at h'
  generalize hq : r = q at h'
  cases h with
  | submit a n ha =>
    cases h' with
    | submit b m hb =>
      obtain ⟨_, hlife⟩ := Window.admitted_life hsound.lives ha
      have hmem : b ∈ (s.window.life a.sequenceId).admissions :=
        List.mem_filter.mpr ⟨hb, decide_eq_true hx.symm⟩
      rw [hlife.admissions] at hmem
      rw [List.mem_singleton.mp hmem]
      rfl
    | _ => cases hq
  | heartbeat o id heartbeatId hpacket =>
    cases h' with
    | heartbeat o' id' heartbeatId' hpacket' => rw [hpacket, hpacket', hx]
    | _ => cases hq
  | terminate o id hpacket =>
    cases h' with
    | terminate o' id' hpacket' => rw [hpacket, hpacket', hx]
    | _ => cases hq

theorem mem_of_nodup_keys {α β : Type*} {ps : List (α × β)} (h : (ps.map Prod.fst).Nodup) {a : α}
    {b b' : β} (hb : (a, b) ∈ ps) (hb' : (a, b') ∈ ps) : b = b' :=
  (Prod.mk.inj (List.inj_on_of_nodup_map h hb hb' rfl)).2

/-- Two requests on the socket with one id are attempts of one request, octet for octet: no id is
used for a second SUBMIT, heartbeat or TERMINATE. -/
theorem requests_identified {clock : ℕ} {udhCounter : UInt32}
    (hrun : (machine gbk config clock udhCounter).Run events s) {o o' : Outbound}
    (ho : o ∈ s.log.handed) (ho' : o' ∈ s.log.handed) {r r' : Request}
    (hr : o.request = some r) (hr' : o'.request = some r')
    (hid : wordAt o.packet 8 = wordAt o'.packet 8) : r = r' ∧ o.packet = o'.packet := by
  have hsound := sound_run hrun
  have hreported := reported_run hrun
  obtain ⟨hhanded, named, henrolled, hbears⟩ := meant_run hrun
  have hlegible (u : Outbound) (hu : u ∈ s.log.handed) : ∃ f, Legible gbk events s named u f :=
    legible_handed hsound hreported henrolled (hhanded u hu)
      (hbears u (List.mem_append_left _ hu)) hu
  obtain ⟨f, hf⟩ := hlegible o ho
  obtain ⟨f', hf'⟩ := hlegible o' ho'
  obtain ⟨id, hmem, hseq, hasks⟩ := hf.asks hr
  obtain ⟨id', hmem', hseq', hasks'⟩ := hf'.asks hr'
  have hle := henrolled.le_u32Max hsound.ledger hmem
  have hle' := henrolled.le_u32Max hsound.ledger hmem'
  have hsame : id = id' := by
    rw [hf.packet, hf'.packet, wordAt_octets, wordAt_octets, hseq, hseq'] at hid
    have hnat := congrArg UInt32.toNat hid
    rwa [UInt32.toNat_ofNat_of_lt' (Nat.lt_succ_of_le hle),
      UInt32.toNat_ofNat_of_lt' (Nat.lt_succ_of_le hle')] at hnat
  subst hsame
  obtain rfl := mem_of_nodup_keys henrolled.nodup hmem hmem'
  exact ⟨rfl, hasks.packet_eq hsound hasks'⟩

/-- A SUBMIT and its retransmission. -/
theorem requests_identified_retry : ∃ events s o o',
    (machine asciiGbk smallConfig 0 0).Run events s ∧ s.log.handed = [o, o'] ∧
      o.submitAttempt ≠ o'.submitAttempt ∧ o.packet = o'.packet := by
  have hexec : (Machine.exec (next asciiGbk smallConfig) (initial smallConfig 0 0)
      (admitOne ++ writeOne ++ scanOnce ++ [.timeout .submitSlot, .timeout .retrySubmit] ++
        writeOne)).map (fun s => s.log.handed.map fun o =>
          (o.submitAttempt, o.request, wordAt o.packet 8)) =
      some [(some ⟨2, 1, 1⟩, some (.submit 1), 2), (some ⟨2, 1, 2⟩, some (.submit 1), 2)] := by
    decide +kernel
  obtain ⟨s, hrun, hview⟩ := Machine.exists_run_of_exec _ hexec
  obtain ⟨o, rest, hhanded, hfirst, hrest⟩ := List.map_eq_cons_iff.mp hview
  obtain ⟨o', rest', rfl, hsecond, hnil⟩ := List.map_eq_cons_iff.mp hrest
  obtain rfl := List.map_eq_nil_iff.mp hnil
  obtain ⟨hkey, hr⟩ := Prod.mk.inj hfirst
  obtain ⟨hrequest, hid⟩ := Prod.mk.inj hr
  obtain ⟨hkey', hr'⟩ := Prod.mk.inj hsecond
  obtain ⟨hrequest', hid'⟩ := Prod.mk.inj hr'
  have ho : o ∈ s.log.handed := by simp [hhanded]
  have ho' : o' ∈ s.log.handed := by simp [hhanded]
  refine ⟨_, s, o, o', hrun, hhanded, ?_, ?_⟩
  · rw [hkey, hkey']
    decide
  · exact (requests_identified hrun ho ho' hrequest hrequest' (hid.trans hid'.symm)).2

end Connection

end CmppProtocol
