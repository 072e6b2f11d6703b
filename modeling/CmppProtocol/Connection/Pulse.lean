import CmppProtocol.Connection.BeatRecord

/-! # The heartbeats keep their discipline

The notes of each heartbeat fit its entry, from step to step of every task, and
every note is allowed by the notes before it.
-/

namespace CmppProtocol

open History SequenceState

namespace Connection

variable {gbk : Gbk} {config : ConnectionConfig} {s s' : Connection}
  {notes new : List HeartbeatNote}

/-! ## Entries and notes -/

/-- What the timeout scan knows of a heartbeat at its stage. -/
def Watches (config : ConnectionConfig) (notes : List HeartbeatNote) : TimeoutStage → Prop
  | .heartbeatExpired now key => ∃ writtenAt, .written key writtenAt ∈ notes ∧
    writtenAt + config.responseTimeout ≤ now
  | .heartbeatSlot now key => key.attempt < config.retryCount ∧ ∃ writtenAt,
    .written key writtenAt ∈ notes ∧ writtenAt + config.responseTimeout ≤ now
  | .heartbeatExhausted => ∃ x, .exhausted x ∈ notes
  | _ => True

theorem Watches.append {stage : TimeoutStage} (h : Watches config notes stage) :
    Watches config (notes ++ new) stage := by
  cases stage with
  | heartbeatExpired now key =>
    obtain ⟨writtenAt, hmem, hle⟩ := h
    exact ⟨writtenAt, List.mem_append_left _ hmem, hle⟩
  | heartbeatSlot now key =>
    obtain ⟨hlt, writtenAt, hmem, hle⟩ := h
    exact ⟨hlt, writtenAt, List.mem_append_left _ hmem, hle⟩
  | heartbeatExhausted =>
    obtain ⟨x, hmem⟩ := h
    exact ⟨x, List.mem_append_left _ hmem⟩
  | _ => trivial

/-- The notes of every heartbeat fit its entry; sequence ids are used for one heartbeat only. -/
structure Pulse (config : ConnectionConfig) (notes : List HeartbeatNote) (s : Connection) :
    Prop where
  lawful : Lawful (Allowed config) notes
  size : s.heartbeatPending.size ≤ 1
  beat : ∀ x, Beating config notes x (s.heartbeatPending.find x)
  queued : ∀ key instant, .queued key instant ∈ notes →
    key.sequenceId ∈ s.sequenceRegistry.automaticPrefix
  prepared : ∀ lease key, s.heartbeat = .prepared lease key → key.attempt = 1 ∧
    key.sequenceId ∈ s.sequenceRegistry.automaticPrefix ∧ queuedFor notes key.sequenceId = []
  watches : Watches config notes s.timeout

theorem pulse_initial (config : ConnectionConfig) (clock : ℕ) (udhCounter : UInt32) :
    Pulse config [] (initial config clock udhCounter) where
  lawful := lawful_nil
  size := Nat.zero_le _
  beat := beating_nil config
  queued := nofun
  prepared := nofun
  watches := trivial

/-- A step that changes no entry; the map may be emptied. -/
theorem Pulse.still (h : Pulse config notes s) (hnew : ∀ note ∈ new, note.isPlain = true)
    (hlawful : Lawful (Allowed config) (notes ++ new))
    (hpending : s'.heartbeatPending = s.heartbeatPending ∨ s'.heartbeatPending = .empty)
    (hpassed : s.sequenceRegistry.automaticPrefix ⊆ s'.sequenceRegistry.automaticPrefix)
    (hprepared :
      ∀ lease key, s'.heartbeat = .prepared lease key → s.heartbeat = .prepared lease key)
    (hwatches : Watches config (notes ++ new) s'.timeout) : Pulse config (notes ++ new) s' where
  lawful := hlawful
  size := by
    rcases hpending with hpending | hpending
    · rw [hpending]
      exact h.size
    · rw [hpending]
      exact Nat.zero_le _
  beat x := by
    obtain ⟨hqueued, hclaimed⟩ := plain_keys (x := x) hnew
    rcases hpending with hpending | hpending
    · rw [hpending]
      exact (h.beat x).quiet hqueued hclaimed fun e he => ⟨he, fun hmem => by cases hnew _ hmem⟩
    · rw [hpending]
      exact (h.beat x).quiet hqueued hclaimed nofun
  queued key instant hmem := by
    rcases List.mem_append.mp hmem with hmem | hmem
    · exact hpassed (h.queued key instant hmem)
    · cases hnew _ hmem
  prepared lease key hstage := by
    obtain ⟨hattempt, hmem, hfresh⟩ := h.prepared lease key (hprepared lease key hstage)
    refine ⟨hattempt, hpassed hmem, ?_⟩
    rw [queuedFor_append, hfresh, (plain_keys hnew).1]
    rfl
  watches := hwatches

/-- A step that takes no note. -/
theorem Pulse.same (h : Pulse config notes s)
    (hpending : s'.heartbeatPending = s.heartbeatPending ∨ s'.heartbeatPending = .empty)
    (hpassed : s.sequenceRegistry.automaticPrefix ⊆ s'.sequenceRegistry.automaticPrefix)
    (hprepared :
      ∀ lease key, s'.heartbeat = .prepared lease key → s.heartbeat = .prepared lease key)
    (hwatches : Watches config notes s'.timeout) : Pulse config (notes ++ []) s' := by
  refine h.still nofun ?_ hpending hpassed hprepared hwatches.append
  rw [List.append_nil]
  exact h.lawful

/-- A heartbeat leaves the map, and a note says why. -/
theorem Pulse.leave (h : Pulse config notes s) {x : ℕ} {note : HeartbeatNote}
    (hpending : s'.heartbeatPending = s.heartbeatPending.erase x)
    (hnote : note = .responded x ∨ note = .exhausted x) (hallowed : Allowed config notes note)
    (hpassed : s.sequenceRegistry.automaticPrefix ⊆ s'.sequenceRegistry.automaticPrefix)
    (hheartbeat : s'.heartbeat = s.heartbeat)
    (hwatches : Watches config (notes ++ [note]) s'.timeout) :
    Pulse config (notes ++ [note]) s' where
  lawful := lawful_concat.mpr ⟨h.lawful, hallowed⟩
  size := by
    rw [hpending]
    exact OrderedMap.size_erase_le.trans h.size
  beat y := by
    rw [hpending, OrderedMap.find_erase]
    refine (h.beat y).quiet ?_ ?_ fun e he => ?_
    · rcases hnote with rfl | rfl
      all_goals rfl
    · rcases hnote with rfl | rfl
      all_goals rfl
    · split_ifs at he with hy
      refine ⟨he, fun hmem => hy ?_⟩
      rcases hnote with rfl | rfl
      · cases List.mem_singleton.mp hmem
        rfl
      · cases List.mem_singleton.mp hmem
  queued key instant hmem := by
    rcases List.mem_append.mp hmem with hmem | hmem
    · exact hpassed (h.queued key instant hmem)
    · rcases hnote with rfl | rfl
      all_goals cases List.mem_singleton.mp hmem
  prepared lease key hstage := by
    rw [hheartbeat] at hstage
    obtain ⟨hattempt, hmem, hfresh⟩ := h.prepared lease key hstage
    refine ⟨hattempt, hpassed hmem, ?_⟩
    rw [queuedFor_append, hfresh]
    rcases hnote with rfl | rfl
    all_goals rfl
  watches := hwatches


/-- The entry of one heartbeat changes, with notes about it. -/
theorem Pulse.turn (h : Pulse config notes s) {x : ℕ} (hnew : ∀ note ∈ new, note.turns x)
    (hlawful : Lawful (Allowed config) (notes ++ new)) (hsize : s'.heartbeatPending.size ≤ 1)
    (hself : Beating config (notes ++ new) x (s'.heartbeatPending.find x))
    (hothers : ∀ y, y ≠ x → s'.heartbeatPending.find y = s.heartbeatPending.find y)
    (hx : x ∈ s.sequenceRegistry.automaticPrefix)
    (hregistry : s'.sequenceRegistry = s.sequenceRegistry)
    (hprepared : ∀ lease key, s'.heartbeat = .prepared lease key →
      s.heartbeat = .prepared lease key ∧ key.sequenceId ≠ x)
    (hwatches : Watches config (notes ++ new) s'.timeout) : Pulse config (notes ++ new) s' where
  lawful := hlawful
  size := hsize
  beat y := by
    by_cases hy : y = x
    · rw [hy]
      exact hself
    · obtain ⟨hqueued, hclaimed⟩ := turned_keys hnew hy
      rw [hothers y hy]
      refine (h.beat y).quiet hqueued hclaimed fun e he => ⟨he, fun hmem => ?_⟩
      rcases hnew _ hmem with ⟨_, _, heq, _⟩ | ⟨_, _, heq, _⟩
      all_goals cases heq
  queued key instant hmem := by
    rw [hregistry]
    rcases List.mem_append.mp hmem with hmem | hmem
    · exact h.queued key instant hmem
    · rcases hnew _ hmem with ⟨_, _, heq, rfl⟩ | ⟨_, _, heq, _⟩
      · cases heq
        exact hx
      · cases heq
  prepared lease key hstage := by
    obtain ⟨hstage, hne⟩ := hprepared lease key hstage
    obtain ⟨hattempt, hmem, hfresh⟩ := h.prepared lease key hstage
    refine ⟨hattempt, hregistry ▸ hmem, ?_⟩
    rw [queuedFor_append, hfresh, (turned_keys hnew hne).1]
    rfl
  watches := hwatches

/-- A pending heartbeat is not the one that is prepared. -/
theorem Pulse.prepared_ne (h : Pulse config notes s) {x : ℕ} {entry : PendingHeartbeat}
    (hfind : s.heartbeatPending.find x = some entry) {lease : SequenceLease}
    {key : HeartbeatAttemptKey} (hstage : s.heartbeat = .prepared lease key) :
    key.sequenceId ≠ x := by
  rintro rfl
  exact (hfind ▸ h.beat key.sequenceId).queued (h.prepared lease key hstage).2.2

/-- The cursor has passed the sequence id of a heartbeat. -/
theorem Pulse.mem_prefix (h : Pulse config notes s) {x : ℕ} (hqueued : queuedFor notes x ≠ []) :
    x ∈ s.sequenceRegistry.automaticPrefix := by
  obtain ⟨key, hkey⟩ := List.exists_mem_of_ne_nil _ hqueued
  obtain ⟨hmem, hx⟩ := List.mem_filter.mp hkey
  obtain ⟨note, hnote, hkey⟩ := List.mem_filterMap.mp hmem
  cases note with
  | queued key' instant =>
    cases hkey
    have hx : key.sequenceId = x := of_decide_eq_true hx
    exact hx ▸ h.queued key instant hnote
  | _ => cases hkey

theorem Pulse.beat_of_find (h : Pulse config notes s) {x : ℕ} {entry : PendingHeartbeat}
    (hfind : s.heartbeatPending.find x = some entry) : Beating config notes x (some entry) :=
  hfind ▸ h.beat x

/-! ## The writer -/

/-- Claiming an attempt, spelled out. -/
theorem claimHeartbeatAttempt_cases (s : Connection) (key : HeartbeatAttemptKey) :
    s.claimHeartbeatAttempt key = (false, s) ∨
    ∃ entry, s.phase = .opened ∧ s.heartbeatPending.find key.sequenceId = some entry ∧
      entry.heartbeatId = key.heartbeatId ∧ entry.state = .queued key.attempt ∧
      s.claimHeartbeatAttempt key = (true, { s with
        heartbeatPending := s.heartbeatPending.set key.sequenceId
          { entry with state := .writing key.attempt } }) := by
  unfold claimHeartbeatAttempt
  split_ifs with hphase
  · exact Or.inl rfl
  cases hfind : s.heartbeatPending.find key.sequenceId with
  | none => exact Or.inl rfl
  | some entry =>
    simp only
    split_ifs with hmatch
    · exact Or.inr ⟨entry, not_not.mp hphase, rfl, hmatch.1, hmatch.2, rfl⟩
    · exact Or.inl rfl

theorem screen_pending (s : Connection) (outbound : Outbound) (isSubmit : Bool) :
    ((s.screen outbound isSubmit).heartbeatPending = s.heartbeatPending ∧
      ((s.screen outbound isSubmit).writer.stage.passed = none ∨
        outbound.heartbeatAttempt = none)) ∨
    ∃ key entry, outbound.heartbeatAttempt = some key ∧ s.phase = .opened ∧
      s.heartbeatPending.find key.sequenceId = some entry ∧
      entry.heartbeatId = key.heartbeatId ∧ entry.state = .queued key.attempt ∧
      s.screen outbound isSubmit = (({ s.countBurst isSubmit with
        heartbeatPending := s.heartbeatPending.set key.sequenceId
          { entry with state := .writing key.attempt } } : Connection).setStage
            (.screened outbound)) := by
  unfold screen
  split_ifs
  · exact Or.inl ⟨rfl, Or.inl rfl⟩
  · exact Or.inl ⟨rfl, Or.inl rfl⟩
  cases hkey : outbound.heartbeatAttempt with
  | none => exact Or.inl ⟨rfl, Or.inr rfl⟩
  | some key =>
    rcases (s.countBurst isSubmit).claimHeartbeatAttempt_cases key with
      hclaim | ⟨entry, hphase, hfind, hid, hstate, hclaim⟩
    · simp only [hclaim]
      exact Or.inl ⟨rfl, Or.inl rfl⟩
    · simp only [hclaim]
      exact Or.inr ⟨key, entry, rfl, hphase, hfind, hid, hstate, rfl⟩

theorem publishFrame_pending (s : Connection) (outbound : Outbound) (writtenAt : ℕ)
    (rest : List Outbound) :
    (s.publishFrame outbound writtenAt rest).heartbeatPending = s.heartbeatPending ∨
    ∃ key entry, outbound.heartbeatAttempt = some key ∧
      s.heartbeatPending.find key.sequenceId = some entry ∧
      entry.heartbeatId = key.heartbeatId ∧ entry.state = .writing key.attempt ∧
      (s.publishFrame outbound writtenAt rest).heartbeatPending =
        s.heartbeatPending.set key.sequenceId
          { entry with state := .awaitingResponse key.attempt writtenAt } := by
  cases hkey : outbound.heartbeatAttempt with
  | none =>
    left
    rw [publishFrame, hkey]
    rfl
  | some key =>
    have hpending : (s.publishFrame outbound writtenAt rest).heartbeatPending =
        (s.completeHeartbeatAttempt key writtenAt).heartbeatPending := by
      rw [publishFrame, hkey]
      rfl
    rw [hpending, completeHeartbeatAttempt]
    split
    · next entry hfind =>
      split_ifs with hmatch
      · exact Or.inr ⟨key, entry, rfl, hfind, hmatch.1, hmatch.2, rfl⟩
      · exact Or.inl rfl
    · exact Or.inl rfl

theorem writerNotes_written
    (h : ∀ outbound isSubmit, s.writer.stage ≠ .received outbound isSubmit) :
    ∀ note ∈ s.writerNotes s', ∃ key writtenAt, note = .written key writtenAt := by
  unfold writerNotes
  split
  · next hstage _ => exact absurd hstage (h _ _)
  · intro note hnote
    obtain ⟨key, _, rfl⟩ := List.mem_map.mp hnote
    exact ⟨key, s.clock, rfl⟩
  · exact fun note hnote => absurd hnote List.not_mem_nil

/-- The writer changes an entry only when it looks at a frame and when it publishes one. -/
theorem WriterMove.pending {event : WriterEvent} (hmove : WriterMove s event s')
    (hreceived : ∀ outbound isSubmit, s.writer.stage ≠ .received outbound isSubmit)
    (hpublishing : ∀ outbound rest, s.writer.stage ≠ .publishing (outbound :: rest)) :
    s'.heartbeatPending = s.heartbeatPending := by
  cases hmove with
  | screened outbound isSubmit heartbeatPending hstage => exact absurd hstage (hreceived _ _)
  | stale outbound isSubmit heartbeatPending hstage => exact absurd hstage (hreceived _ _)
  | publish outbound rest heartbeatPending answered written hstage =>
    exact absurd hstage (hpublishing _ _)
  | giveUp hstage =>
    change s.finish.heartbeatPending = _
    rw [finish_eq]
  | _ => rfl

theorem Pulse.claim (h : Pulse config notes s) {outbound : Outbound} {isSubmit : Bool}
    (hstage : s.writer.stage = .received outbound isSubmit)
    (hpassed : s.sequenceRegistry.automaticPrefix ⊆
      (s.screen outbound isSubmit).sequenceRegistry.automaticPrefix)
    (hheartbeat : (s.screen outbound isSubmit).heartbeat = s.heartbeat)
    (htimeout : (s.screen outbound isSubmit).timeout = s.timeout) :
    Pulse config (notes ++ s.writerNotes (s.screen outbound isSubmit))
      (s.screen outbound isSubmit) := by
  rcases s.screen_pending outbound isSubmit with
    ⟨hpending, hnone⟩ | ⟨⟨x, _, attempt⟩, entry, hkey, hphase, hfind, rfl, hstate, heq⟩
  · have hnil : s.writerNotes (s.screen outbound isSubmit) = [] := by
      unfold writerNotes
      rw [hstage]
      split
      · next hreceived hscreened =>
        cases hreceived
        rcases hnone with hpassed | hnone
        · rw [hscreened] at hpassed
          cases hpassed
        · rw [hnone]
          rfl
      · next hwriting _ => cases hwriting
      · rfl
    rw [hnil]
    exact h.same (Or.inl hpending) hpassed (fun _ _ hprepared => hheartbeat ▸ hprepared)
      (htimeout ▸ h.watches)
  · have hnotes : s.writerNotes (s.screen outbound isSubmit) =
        [.claimed ⟨x, entry.heartbeatId, attempt⟩ s.phase] := by
      rw [writerNotes_screened (o := outbound) hstage (by rw [heq]; rfl), hkey]
      rfl
    have hbeat := h.beat_of_find hfind
    obtain ⟨hself, hmax, hunanswered⟩ := hbeat.claim hstate s.phase
    have hsome : s.heartbeatPending.find x ≠ none := by
      rw [hfind]
      exact nofun
    rw [hnotes, heq]
    refine h.turn (x := x) ?_ ?_ ?_ ?_ ?_ (h.mem_prefix hbeat.queued) rfl ?_ h.watches.append
    · intro note hnote
      exact Or.inr ⟨_, s.phase, List.mem_singleton.mp hnote, rfl⟩
    · exact lawful_concat.mpr ⟨h.lawful, hphase, hmax, hunanswered⟩
    · exact OrderedMap.size_set.trans_le h.size
    · change Beating config _ _ ((s.heartbeatPending.set _ _).find _)
      rw [OrderedMap.find_set hsome, if_pos rfl]
      exact hself
    · intro y hy
      change (s.heartbeatPending.set _ _).find y = _
      rw [OrderedMap.find_set hsome, if_neg hy]
    · exact fun lease key' hprepared => ⟨hprepared, h.prepared_ne hfind hprepared⟩

theorem Pulse.publish (h : Pulse config notes s) (hcarried : Carried notes s) {outbound : Outbound}
    {rest : List Outbound} {writtenAt : ℕ}
    (hstage : s.writer.stage = .publishing (outbound :: rest))
    (hstatus : s.writer.status = .completed writtenAt) :
    Pulse config (notes ++ []) (s.publishFrame outbound writtenAt rest) := by
  have hmem : outbound ∈ s.writer.unpublished := by
    rw [Writer.unpublished, hstage]
    exact List.mem_cons_self
  obtain ⟨heartbeatPending, heq⟩ := s.publishFrame_eq outbound writtenAt rest
  rcases s.publishFrame_pending outbound writtenAt rest with
    hpending | ⟨⟨x, _, attempt⟩, entry, hkey, hfind, rfl, hstate, hpending⟩
  · rw [heq] at hpending ⊢
    exact h.same (Or.inl hpending) subset_rfl (fun _ _ hprepared => hprepared) h.watches
  · have hwritten := hcarried.noted writtenAt (by rw [hstatus]; rfl) outbound hmem _ hkey
    have hbeat := h.beat_of_find hfind
    have hself := hbeat.complete hstate hwritten
    have hsome : s.heartbeatPending.find x ≠ none := by
      rw [hfind]
      rintro ⟨⟩
    rw [heq] at hpending ⊢
    refine h.turn (x := x) (by rintro _ ⟨⟩) ?_ ?_ ?_ ?_ (h.mem_prefix hbeat.queued) rfl ?_
      h.watches.append
    · rw [List.append_nil]
      exact h.lawful
    · rw [hpending, OrderedMap.size_set]
      exact h.size
    · rw [hpending, OrderedMap.find_set hsome, if_pos rfl, List.append_nil]
      exact hself
    · intro y hy
      rw [hpending, OrderedMap.find_set hsome, if_neg hy]
    · exact fun lease key' hprepared => ⟨hprepared, h.prepared_ne hfind hprepared⟩

theorem Pulse.writerNext (h : Pulse config notes s) (hcarried : Carried notes s)
    {event : WriterEvent} (hnext : s.writerNext config event = some s') :
    Pulse config (notes ++ s.writerNotes s') s' := by
  have howned := writerNext_owned hnext
  have hheartbeat : s'.heartbeat = s.heartbeat := congrArg Owned.heartbeat howned
  have htimeout : s'.timeout = s.timeout := congrArg Owned.timeout howned
  have hpassed := (writerNext_advances hnext).passed
  have hmove := writerNext_move hnext
  have hstill (hreceived : ∀ outbound isSubmit, s.writer.stage ≠ .received outbound isSubmit)
      (hpublishing : ∀ outbound rest, s.writer.stage ≠ .publishing (outbound :: rest)) :
      Pulse config (notes ++ s.writerNotes s') s' := by
    have hwritten : ∀ note ∈ s.writerNotes s', ∃ key writtenAt, note = .written key writtenAt :=
      writerNotes_written hreceived
    refine h.still ?_ ?_ (Or.inl (hmove.pending hreceived hpublishing)) hpassed
      (fun _ _ hprepared => hheartbeat ▸ hprepared) (htimeout ▸ h.watches.append)
    · intro note hnote
      obtain ⟨key, writtenAt, rfl⟩ := hwritten note hnote
      rfl
    · refine h.lawful.append fun note hnote before => ?_
      obtain ⟨key, writtenAt, rfl⟩ := hwritten note hnote
      trivial
  cases hstage : s.writer.stage with
  | received outbound isSubmit =>
    have hs' : s' = s.screen outbound isSubmit := by
      cases event with
      | advance =>
        simp only [Connection.writerNext, writerAdvance, hstage, Option.some.injEq] at hnext
        exact hnext.symm
      | closed =>
        simp only [Connection.writerNext, hstage] at hnext
        split_ifs at hnext
      | _ =>
        simp only [Connection.writerNext, hstage] at hnext
        cases hnext
    subst hs'
    exact h.claim hstage hpassed hheartbeat htimeout
  | publishing frames =>
    cases frames with
    | nil => exact hstill (by simp [hstage]) (by simp [hstage])
    | cons outbound rest =>
      rw [writerNotes_of_stage (by simp [hstage]) (by simp [hstage])]
      cases event with
      | advance =>
        simp only [Connection.writerNext, writerAdvance, hstage] at hnext
        split at hnext
        · next writtenAt hstatus =>
          cases hnext
          exact h.publish hcarried hstage hstatus
        · cases hnext
      | closed =>
        simp only [Connection.writerNext, hstage] at hnext
        split_ifs at hnext
      | _ =>
        simp only [Connection.writerNext, hstage] at hnext
        cases hnext
  | _ => exact hstill (by simp [hstage]) (by simp [hstage])

/-! ## The other tasks -/

/-- The step changes no entry and queues no heartbeat. -/
def Quiet (s s' : Connection) : Prop :=
  s'.heartbeatPending = s.heartbeatPending ∧ (s'.controlQueue = s.controlQueue ∨
    ∃ o, s'.controlQueue = s.controlQueue ++ [o] ∧ o.heartbeatAttempt = none)

theorem Quiet.of_same (hpending : s'.heartbeatPending = s.heartbeatPending)
    (hcontrol : s'.controlQueue = s.controlQueue) : s.Quiet s' := ⟨hpending, Or.inl hcontrol⟩

theorem queuedNotes_queue {o : Outbound} (h : s'.controlQueue = s.controlQueue ++ [o]) :
    s.queuedNotes s' = o.heartbeatAttempt.toList.map fun key => .queued key s.clock := by
  rw [queuedNotes, h, List.drop_left]
  cases hkey : o.heartbeatAttempt with
  | none => simp [hkey]
  | some key => simp [hkey]

theorem Quiet.noted (h : s.Quiet s') : s.queuedNotes s' = [] := by
  rcases h.2 with hcontrol | ⟨o, hcontrol, hnone⟩
  · rw [queuedNotes, hcontrol, List.drop_length]
    rfl
  · rw [queuedNotes_queue hcontrol, hnone]
    rfl

theorem quiet_finish (s : Connection) : s.Quiet s.finish := by
  rw [finish_eq]
  exact .of_same rfl rfl

theorem quiet_beginClosing (s : Connection) (drainSubmits : Bool) :
    s.Quiet (s.beginClosing drainSubmits).2 := by
  obtain ⟨_, _, _, heq⟩ := s.beginClosing_eq drainSubmits
  rw [heq]
  exact .of_same rfl rfl

theorem quiet_callNext {index : ℕ} {call : SubmitCall} {event : CallEvent}
    (h : s.callNext gbk index call event = some s') : s.Quiet s' := by
  cases callNext_step h with
  | failing lease error hstage =>
    rw [finish_eq]
    exact .of_same rfl rfl
  | _ => exact .of_same rfl rfl

theorem quiet_submit {options : SubmitOptions} {content : String} {base : Option UInt32}
    (h : s.submit options content base = some s') : s.Quiet s' := by
  rw [submit] at h
  split_ifs at h
  · cases h
    exact .of_same rfl rfl
  · cases h
    exact .of_same rfl rfl
  split at h
  · cases h
    exact .of_same rfl rfl
  · cases h
    exact .of_same rfl rfl
  · cases h

theorem quiet_readerNext {event : ReaderEvent} (h : s.readerNext event = some s')
    (hother : ∀ sequenceId, event ≠ .activeTestResp sequenceId) : s.Quiet s' := by
  cases event with
  | activeTestResp sequenceId => exact absurd rfl (hother sequenceId)
  | activeTest sequenceId =>
    simp only [readerNext] at h
    split_ifs at h
    cases h
    exact ⟨rfl, Or.inr ⟨_, rfl, rfl⟩⟩
  | deliver sequenceId deliver ticket =>
    simp only [readerNext] at h
    split_ifs at h
    cases h
    exact ⟨rfl, Or.inr ⟨_, rfl, rfl⟩⟩
  | terminate sequenceId =>
    simp only [readerNext] at h
    split_ifs at h
    cases h
    exact quiet_beginClosing _ _
  | answerTerminate =>
    simp only [readerNext] at h
    split at h
    · split_ifs at h
      cases h
      exact ⟨rfl, Or.inr ⟨_, rfl, rfl⟩⟩
    · cases h
  | _ =>
    simp only [readerNext] at h
    repeat' split at h
    all_goals cases h
    all_goals exact .of_same rfl rfl

theorem quiet_closerNext {event : CloserEvent} (h : s.closerNext event = some s') :
    s.Quiet s' := by
  cases event with
  | close =>
    simp only [closerNext] at h
    split_ifs at h
    have hquiet := s.quiet_beginClosing true
    split at h
    all_goals next hresult =>
      rw [hresult] at hquiet
      cases h
      exact hquiet
  | sendTerminate =>
    simp only [closerNext] at h
    split at h
    · split_ifs at h
      cases h
      exact ⟨rfl, Or.inr ⟨_, rfl, rfl⟩⟩
    · cases h
  | leaseTerminate =>
    simp only [closerNext] at h
    repeat' split at h
    all_goals cases h
    · exact quiet_finish s
    · exact .of_same rfl rfl
  | finish =>
    simp only [closerNext] at h
    split at h
    all_goals cases h
    exact quiet_finish s
  | _ =>
    simp only [closerNext] at h
    repeat' split at h
    all_goals cases h
    all_goals exact .of_same rfl rfl

/-- The part of the timeout scan that is about SUBMITs, and its ends. -/
theorem quiet_timeoutNext {event : TimeoutEvent} (h : s.timeoutNext config event = some s')
    (hgiveUp : event ≠ .giveUpHeartbeat) (hretry : event ≠ .retryHeartbeat) : s.Quiet s' := by
  cases event with
  | giveUpHeartbeat => exact absurd rfl hgiveUp
  | retryHeartbeat => exact absurd rfl hretry
  | teardown =>
    simp only [timeoutNext] at h
    split at h
    all_goals cases h
    all_goals exact quiet_finish s
  | giveUpSubmit sent =>
    simp only [timeoutNext, giveUpSubmit] at h
    repeat' split at h
    all_goals cases h
    all_goals exact .of_same rfl rfl
  | retrySubmit =>
    simp only [timeoutNext, retrySubmit] at h
    repeat' split at h
    all_goals cases h
    all_goals exact .of_same rfl rfl
  | _ =>
    simp only [timeoutNext] at h
    repeat' split at h
    all_goals cases h
    all_goals exact .of_same rfl rfl

theorem quiet_cleanupNext {index : ℕ} {event : CleanupEvent}
    (h : s.cleanupNext index event = some s') :
    (s'.heartbeatPending = s.heartbeatPending ∨ s'.heartbeatPending = .empty) ∧
      s'.controlQueue = s.controlQueue := by
  cases event with
  | sweep =>
    simp only [cleanupNext] at h
    split at h
    · cases h
      exact ⟨Or.inr rfl, rfl⟩
    · cases h
  | _ =>
    simp only [cleanupNext] at h
    repeat' split at h
    all_goals cases h
    all_goals exact ⟨Or.inl rfl, rfl⟩

/-- A step that changes no entry and takes no note. -/
theorem Pulse.quiet (h : Pulse config notes s) (hquiet : s.Quiet s')
    (hpassed : s.sequenceRegistry.automaticPrefix ⊆ s'.sequenceRegistry.automaticPrefix)
    (hprepared :
      ∀ lease key, s'.heartbeat = .prepared lease key → s.heartbeat = .prepared lease key)
    (hwatches : Watches config notes s'.timeout) :
    Pulse config (notes ++ s.queuedNotes s') s' := by
  rw [hquiet.noted]
  exact h.same (Or.inl hquiet.1) hpassed hprepared hwatches

/-- The heartbeat task takes a new sequence id, and queues the first attempt. -/
theorem Pulse.heartbeatNext (h : Pulse config notes s) (hledger : Ledger config s.holdings)
    {event : HeartbeatEvent} (hnext : s.heartbeatNext event = some s') :
    Pulse config (notes ++ s.queuedNotes s') s' := by
  have hpassed := (heartbeatNext_advances hledger hnext).passed
  have htimeout : s'.timeout = s.timeout := congrArg Owned.timeout (heartbeatNext_owned hnext)
  have hwatches : Watches config notes s'.timeout := htimeout ▸ h.watches
  cases event with
  | tick =>
    simp only [Connection.heartbeatNext] at hnext
    split_ifs at hnext with hwaiting hsize
    · split at hnext
      · cases hnext
        exact h.quiet (s.quiet_finish) hpassed (by rintro _ _ ⟨⟩) hwatches
      · next id registry hreserve =>
        cases hnext
        obtain ⟨_, _, hnew, _⟩ := hledger.holds.issue hreserve
        have hfresh : queuedFor notes id = [] := by
          by_contra hne
          exact hnew (Or.inl (h.mem_prefix hne))
        have hquiet : Pulse config _ { s with sequenceRegistry := registry } :=
          h.quiet (.of_same rfl rfl) hpassed (fun _ _ hprepared => hprepared) hwatches
        refine { hquiet with prepared := ?_ }
        rintro lease key hprepared
        cases hprepared
        refine ⟨rfl, hledger.holds.issue_passed hreserve, ?_⟩
        rw [queuedFor_append, hfresh]
        exact congrArg (queuedFor · id) (Quiet.of_same rfl rfl).noted
    · cases hnext
      exact h.quiet (.of_same rfl rfl) hpassed (fun _ _ hprepared => hprepared) hwatches
  | enqueue =>
    simp only [Connection.heartbeatNext] at hnext
    split at hnext
    · next lease key hstage =>
      split_ifs at hnext with hphase hsize
      · cases hnext
        exact h.quiet (.of_same rfl rfl) hpassed (by rintro _ _ ⟨⟩) hwatches
      · cases hnext
        exact h.quiet (.of_same rfl rfl) hpassed (by rintro _ _ ⟨⟩) hwatches
      · cases hnext
        obtain ⟨x, heartbeatId, attempt⟩ := key
        obtain ⟨rfl, hmem, hfresh⟩ := h.prepared lease _ hstage
        have hself := (h.beat x).begin hfresh heartbeatId lease s.clock
        rw [queuedNotes_queue rfl]
        refine h.turn (x := x) ?_ ?_ ?_ ?_ ?_ hmem rfl (by rintro _ _ ⟨⟩) h.watches.append
        · intro note hnote
          exact Or.inl ⟨_, s.clock, List.mem_singleton.mp hnote, rfl⟩
        · exact lawful_concat.mpr ⟨h.lawful, Or.inl ⟨rfl, hfresh⟩⟩
        · have hinsert := OrderedMap.size_insert_le (m := s.heartbeatPending) (k := x)
            (v := ⟨heartbeatId, .queued 1, lease⟩)
          exact hinsert.trans (by omega)
        · change Beating config _ _ ((s.heartbeatPending.insert x _).find x)
          rw [OrderedMap.find_insert, if_pos rfl]
          exact hself
        · intro y hy
          change (s.heartbeatPending.insert x _).find y = _
          rw [OrderedMap.find_insert, if_neg hy]
    · cases hnext
  | notOpen =>
    simp only [Connection.heartbeatNext] at hnext
    split_ifs at hnext
    split at hnext
    · cases hnext
      exact h.quiet (.of_same rfl rfl) hpassed (by rintro _ _ ⟨⟩) hwatches
    · cases hnext
      exact h.quiet (.of_same rfl rfl) hpassed (by rintro _ _ ⟨⟩) hwatches
    · cases hnext

/-- The scan finds an attempt that was written long enough ago. -/
theorem Pulse.expired (h : Pulse config notes s) {now : ℕ} {key : HeartbeatAttemptKey}
    (hexpired : s.expiredHeartbeat config now = some key) : ∃ writtenAt,
      .written key writtenAt ∈ notes ∧ writtenAt + config.responseTimeout ≤ now := by
  obtain ⟨⟨x, entry⟩, hmem, hfound⟩ := List.exists_of_findSome?_eq_some hexpired
  have hfind : s.heartbeatPending.find x = some entry := OrderedMap.find_eq_some_iff.mpr hmem
  obtain ⟨heartbeatId, queued, claimed, _, hwaits⟩ := h.beat_of_find hfind
  obtain ⟨rfl, _, _, hstate⟩ := hwaits entry rfl
  cases hat : entry.state with
  | awaitingResponse attempt writtenAt =>
    rw [hat] at hstate
    simp only [hat] at hfound
    split_ifs at hfound with hold
    cases hfound
    have hpos := config.responseTimeout_pos
    exact ⟨writtenAt, hstate.2.2, by omega⟩
  | _ =>
    simp only [hat] at hfound
    cases hfound

theorem Pulse.retry (h : Pulse config notes s) (hw : s.Wired config) {now : ℕ}
    {key : HeartbeatAttemptKey} (hstage : s.timeout = .heartbeatSlot now key)
    {entry : PendingHeartbeat} (hawaiting : s.heartbeatAwaiting key = some entry)
    (hpending : s'.heartbeatPending = s.heartbeatPending.set key.sequenceId
      { entry with state := .queued (key.attempt + 1) })
    (hcontrol : s'.controlQueue = s.controlQueue ++
      [.heartbeat (encodePdu .activeTest (.ofNat key.sequenceId))
        { key with attempt := key.attempt + 1 }])
    (hregistry : s'.sequenceRegistry = s.sequenceRegistry) (hheartbeat : s'.heartbeat = s.heartbeat)
    (htimeout : s'.timeout = .heartbeatChecked now) :
    Pulse config (notes ++ s.queuedNotes s') s' := by
  obtain ⟨x, heartbeatId, attempt⟩ := key
  obtain ⟨hfind, rfl, writtenAt, hstate⟩ := heartbeatAwaiting_some hawaiting
  have hbeat := h.beat_of_find hfind
  have hwatches := h.watches
  rw [hstage] at hwatches
  obtain ⟨hlt, writtenAt', hwritten, hle⟩ := hwatches
  have hself := hbeat.again hstate hlt s.clock
  have hnow := hw.timeout.now_le
  rw [hstage] at hnow
  have hsome : s.heartbeatPending.find x ≠ none := by
    rw [hfind]
    exact nofun
  rw [queuedNotes_queue hcontrol]
  refine h.turn (x := x) ?_ ?_ ?_ ?_ ?_ (h.mem_prefix hbeat.queued) hregistry ?_ ?_
  · intro note hnote
    exact Or.inl ⟨_, s.clock, List.mem_singleton.mp hnote, rfl⟩
  · exact lawful_concat.mpr ⟨h.lawful, Or.inr ⟨attempt, writtenAt', rfl, hwritten, hle.trans hnow⟩⟩
  · rw [hpending, OrderedMap.size_set]
    exact h.size
  · rw [hpending, OrderedMap.find_set hsome, if_pos rfl]
    exact hself
  · intro y hy
    rw [hpending, OrderedMap.find_set hsome, if_neg hy]
  · intro lease key hprepared
    rw [hheartbeat] at hprepared
    exact ⟨hprepared, h.prepared_ne hfind hprepared⟩
  · rw [htimeout]
    trivial

/-- The timeout task queues the next attempt, or gives the heartbeat up. -/
theorem Pulse.timeoutNext (h : Pulse config notes s) (hw : s.Wired config)
    {event : TimeoutEvent} (hnext : s.timeoutNext config event = some s')
    (hpassed : s.sequenceRegistry.automaticPrefix ⊆ s'.sequenceRegistry.automaticPrefix) :
    Pulse config (notes ++ s.heartbeatNotes (.timeout event) s') s' := by
  have hheartbeat : s'.heartbeat = s.heartbeat :=
    congrArg Owned.heartbeat (timeoutNext_owned hnext)
  have hprepared (lease : SequenceLease) (key : HeartbeatAttemptKey)
      (hstage : s'.heartbeat = .prepared lease key) : s.heartbeat = .prepared lease key :=
    hheartbeat ▸ hstage
  cases event with
  | scanHeartbeat =>
    have hquiet := quiet_timeoutNext hnext (by rintro ⟨⟩) (by rintro ⟨⟩)
    refine h.quiet hquiet hpassed hprepared ?_
    simp only [Connection.timeoutNext] at hnext
    split at hnext
    · split at hnext
      · next hexpired =>
        cases hnext
        exact h.expired hexpired
      · cases hnext
        trivial
    · cases hnext
  | heartbeatSlot =>
    have hquiet := quiet_timeoutNext hnext (by rintro ⟨⟩) (by rintro ⟨⟩)
    refine h.quiet hquiet hpassed hprepared ?_
    simp only [Connection.timeoutNext] at hnext
    split at hnext
    · next now key hstage =>
      split_ifs at hnext with hlt
      cases hnext
      have hwatches := h.watches
      rw [hstage] at hwatches
      exact ⟨hlt, hwatches⟩
    · cases hnext
  | giveUpHeartbeat =>
    simp only [Connection.timeoutNext] at hnext
    split at hnext
    · next now key hstage =>
      split_ifs at hnext with hlt
      split at hnext
      · cases hnext
        have hnil : s.heartbeatNotes (.timeout .giveUpHeartbeat)
            (s.setTimeout (.heartbeatChecked now)) = [] := by
          simp only [heartbeatNotes, setTimeout, hstage]
        rw [hnil]
        exact h.same (Or.inl rfl) hpassed hprepared trivial
      · next entry hawaiting =>
        cases hnext
        obtain ⟨hfind, _, writtenAt, hstate⟩ := heartbeatAwaiting_some hawaiting
        have hallowed := (h.beat_of_find hfind).exhaust hstate (not_lt.mp hlt)
        simp only [heartbeatNotes, setTimeout, hstage]
        refine h.leave rfl (Or.inr rfl) hallowed hpassed rfl ?_
        exact ⟨key.sequenceId, List.mem_append_right _ (List.mem_singleton_self _)⟩
    · cases hnext
  | retryHeartbeat =>
    simp only [Connection.timeoutNext] at hnext
    split at hnext
    · next now key hstage =>
      split at hnext
      · cases hnext
        exact h.quiet (.of_same rfl rfl) hpassed hprepared trivial
      · next entry hawaiting =>
        split_ifs at hnext
        · cases hnext
          exact h.quiet (.of_same rfl rfl) hpassed hprepared trivial
        · cases hnext
          exact h.retry hw hstage hawaiting rfl rfl rfl rfl rfl
    · cases hnext
  | teardown =>
    have hquiet := quiet_timeoutNext hnext (by rintro ⟨⟩) (by rintro ⟨⟩)
    simp only [Connection.timeoutNext] at hnext
    have hstopped : s'.timeout = .stopped := by
      split at hnext
      all_goals cases hnext
      all_goals rfl
    simp only [heartbeatNotes]
    split_ifs with hstage
    · refine h.still ?_ ?_ (Or.inl hquiet.1) hpassed hprepared (by rw [hstopped]; trivial)
      · intro note hnote
        rw [List.mem_singleton.mp hnote]
        rfl
      · have hwatches := h.watches
        rw [hstage] at hwatches
        exact lawful_concat.mpr ⟨h.lawful, hwatches⟩
    · exact h.same (Or.inl hquiet.1) hpassed hprepared (by rw [hstopped]; trivial)
  | _ =>
    have hquiet := quiet_timeoutNext hnext (by rintro ⟨⟩) (by rintro ⟨⟩)
    refine h.quiet hquiet hpassed hprepared ?_
    simp only [Connection.timeoutNext, giveUpSubmit, retrySubmit] at hnext
    repeat' split at hnext
    all_goals cases hnext
    all_goals trivial

theorem Pulse.next (h : Pulse config notes s) (hsound : s.Sound config)
    (hcarried : Carried notes s) {event : ConnectionEvent}
    (hnext : Connection.next gbk config s event = some s') :
    Pulse config (notes ++ s.heartbeatNotes event s') s' := by
  have hpassed := next_passed hsound.ledger hnext
  have howned := next_owned hnext
  have hother (hquiet : s.Quiet s') (hheartbeat : s'.heartbeat = s.heartbeat)
      (htimeout : s'.timeout = s.timeout) : Pulse config (notes ++ s.queuedNotes s') s' :=
    h.quiet hquiet hpassed (fun _ _ hprepared => hheartbeat ▸ hprepared) (htimeout ▸ h.watches)
  cases event with
  | writer event => exact h.writerNext hcarried hnext
  | heartbeat event => exact h.heartbeatNext hsound.ledger hnext
  | timeout event => exact h.timeoutNext hsound.wired hnext hpassed
  | reader event =>
    have hheartbeat : s'.heartbeat = s.heartbeat := congrArg Owned.heartbeat howned
    have htimeout : s'.timeout = s.timeout := congrArg Owned.timeout howned
    have hnext : s.readerNext event = some s' := hnext
    cases event with
    | activeTestResp sequenceId =>
      simp only [readerNext] at hnext
      split_ifs at hnext
      cases hnext
      exact h.leave rfl (Or.inl rfl) trivial hpassed rfl h.watches.append
    | _ => exact hother (quiet_readerNext hnext (by rintro _ ⟨⟩)) hheartbeat htimeout
  | cleanup index event =>
    have hheartbeat : s'.heartbeat = s.heartbeat := congrArg Owned.heartbeat howned
    have htimeout : s'.timeout = s.timeout := congrArg Owned.timeout howned
    obtain ⟨hpending, hcontrol⟩ := quiet_cleanupNext hnext
    have hnil : s.heartbeatNotes (.cleanup index event) s' = [] := by
      change s.queuedNotes s' = []
      rw [queuedNotes, hcontrol, List.drop_length]
      rfl
    rw [hnil]
    exact h.same hpending hpassed (fun _ _ hprepared => hheartbeat ▸ hprepared)
      (htimeout ▸ h.watches)
  | submit options content base =>
    exact hother (quiet_submit hnext) (congrArg Owned.heartbeat howned)
      (congrArg Owned.timeout howned)
  | call index event =>
    refine hother ?_ (congrArg Owned.heartbeat howned) (congrArg Owned.timeout howned)
    simp only [Connection.next] at hnext
    split at hnext
    · exact quiet_callNext hnext
    · cases hnext
  | closer event =>
    exact hother (quiet_closerNext hnext) (congrArg Owned.heartbeat howned)
      (congrArg Owned.timeout howned)
  | overloadClose =>
    cases hnext
    exact hother (quiet_beginClosing _ _) (congrArg Owned.heartbeat howned)
      (congrArg Owned.timeout howned)
  | finish =>
    cases hnext
    exact hother (quiet_finish _) (congrArg Owned.heartbeat howned) (congrArg Owned.timeout howned)
  | finishStores =>
    simp only [Connection.next] at hnext
    split_ifs at hnext
    cases hnext
    exact hother (.of_same rfl rfl) rfl rfl
  | clock duration =>
    cases hnext
    exact hother (.of_same rfl rfl) rfl rfl
  | udhCounter counter =>
    cases hnext
    exact hother (.of_same rfl rfl) rfl rfl

theorem Carried.next (h : Carried notes s) (hsound : s.Sound config) {event : ConnectionEvent}
    (hnext : Connection.next gbk config s event = some s') :
    Carried (notes ++ s.heartbeatNotes event s') s' := by
  have howned := next_owned hnext
  have hqueued : ∀ key writtenAt, .written key writtenAt ∉ s.queuedNotes s' := by
    intro key writtenAt hmem
    obtain ⟨_, _, heq⟩ := List.mem_map.mp hmem
    cases heq
  cases event with
  | writer event => exact h.writerMove hsound.wired (writerNext_move hnext)
  | timeout event =>
    apply h.owned (by rw [howned]) (by rw [howned])
    cases event with
    | giveUpHeartbeat =>
      intro key writtenAt hmem
      simp only [heartbeatNotes] at hmem
      split at hmem
      · cases List.mem_singleton.mp hmem
      · cases hmem
    | teardown =>
      intro key writtenAt hmem
      simp only [heartbeatNotes] at hmem
      split_ifs at hmem
      · cases List.mem_singleton.mp hmem
      · cases hmem
    | _ => exact hqueued
  | reader event =>
    apply h.owned (by rw [howned]) (by rw [howned])
    cases event with
    | activeTestResp sequenceId =>
      intro key writtenAt hmem
      cases List.mem_singleton.mp hmem
    | _ => exact hqueued
  | _ => exact h.owned (by rw [howned]) (by rw [howned]) hqueued

end Connection

end CmppProtocol
