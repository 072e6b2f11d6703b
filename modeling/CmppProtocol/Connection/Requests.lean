import CmppProtocol.Connection.Conserved
import CmppProtocol.Connection.Pulse

/-! # Ids of requests

SUBMITs, heartbeats and the TERMINATE take their ids from one registry. An id
that one of them has used is never given to another one.
-/

namespace CmppProtocol

open SequenceState

namespace Connection

variable {gbk : Gbk} {config : ConnectionConfig} {s s' : Connection} {x : ℕ}

/-! ## Ids that no SUBMIT gets -/

/-- The cursor has passed the id, no SUBMIT has it and no call can send one under it. -/
structure Spent (s : Connection) (x : ℕ) : Prop where
  passed : x ∈ s.sequenceRegistry.automaticPrefix
  unadmitted : x ∉ s.admittedIds
  unheld : ∀ call ∈ s.calls, ∀ l ∈ call.leases, l.sequenceId ≠ x

theorem Spent.keep (h : s.Spent x)
    (hpassed : s.sequenceRegistry.automaticPrefix ⊆ s'.sequenceRegistry.automaticPrefix)
    (hadmissions : s'.log.admissions = s.log.admissions) (hcalls : s'.calls = s.calls) :
    s'.Spent x where
  passed := hpassed h.passed
  unadmitted := by
    rw [admittedIds, hadmissions]
    exact h.unadmitted
  unheld := by
    rw [hcalls]
    exact h.unheld

theorem retireManual_sequenceId (registry : SequenceState) (lease : SequenceLease) :
    (retireManual registry lease).2.1.sequenceId = lease.sequenceId := by
  rw [retireManual]
  split_ifs
  · rw [SequenceLease.retire]
  · rfl

/-- The leases and the admissions of a call after its step: a lease has an id that the call held or
that the cursor had not passed, and an admitted id was held. -/
structure Inherits (s : Connection) (index : ℕ) (call : SubmitCall) (s' : Connection) : Prop where
  leases : ∃ call', s'.calls = s.calls.set index call' ∧ ∀ l ∈ call'.leases,
    (∃ l' ∈ call.leases, l'.sequenceId = l.sequenceId) ∨
      l.sequenceId ∉ s.sequenceRegistry.automaticPrefix
  admissions : s'.log.admissions = s.log.admissions ∨ ∃ a l,
    s'.log.admissions = s.log.admissions ++ [a] ∧ l ∈ call.leases ∧ l.sequenceId = a.sequenceId

theorem Inherits.of_subset {index : ℕ} {call call' : SubmitCall}
    (hcalls : s'.calls = s.calls.set index call') (hsub : call'.leases ⊆ call.leases)
    (hadmissions : s'.log.admissions = s.log.admissions) : Inherits s index call s' where
  leases := ⟨call', hcalls, fun l hl => Or.inl ⟨l, hsub hl, rfl⟩⟩
  admissions := Or.inl hadmissions

theorem callStep_inherits (hledger : Ledger config s.holdings) {index : ℕ} {call : SubmitCall}
    (hcall : s.calls[index]? = some call) (hstep : CallStep gbk s index call s') :
    Inherits s index call s' := by
  have hmanual : call.manualSequenceLeases ⊆ call.leases := List.subset_append_right _ _
  have hblocked {id : ℕ} (hid : id ∉ s.sequenceRegistry.blocked) :
      id ∉ s.sequenceRegistry.automaticPrefix := fun hpassed => hid (Or.inl hpassed)
  cases hstep with
  | refused udhReference error hstage herror => exact .of_subset rfl hmanual rfl
  | automatic udhReference hstage hbase hreference => exact .of_subset rfl hmanual rfl
  | granted udhReference base leases registry hstage hbase hgrant =>
    obtain ⟨_, _, _, hfresh⟩ := hledger.holds.grant hgrant
    exact ⟨⟨_, rfl, fun l hl => Or.inr (hblocked (hfresh l hl))⟩, Or.inl rfl⟩
  | finished hstage hlength => exact .of_subset rfl (List.nil_subset _) rfl
  | nextManual lease leases hstage hlength hbase hleases =>
    refine .of_subset rfl (fun l hl => hmanual ?_) rfl
    rw [hleases]
    exact hl
  | nextAutomatic hstage hlength hbase => exact .of_subset rfl hmanual rfl
  | permitted lease hstage hpermits =>
    refine .of_subset rfl (fun l hl => ?_) rfl
    rw [SubmitCall.leases, SubmitCall.lease, hstage]
    exact hl
  | closed hstage => exact .of_subset rfl (List.nil_subset _) rfl
  | cancelled hended => exact .of_subset rfl (List.nil_subset _) rfl
  | failed source hended => exact .of_subset rfl (List.nil_subset _) rfl
  | exhausted template registry hstage hnext => exact .of_subset rfl hmanual rfl
  | unencodable template lease obtained registry error hstage hobtain =>
    exact .of_subset rfl (List.nil_subset _) rfl
  | encoded segment lease obtained registry packet hstage hsegment hobtain hpacket =>
    refine ⟨⟨_, rfl, fun l hl => ?_⟩, Or.inl rfl⟩
    rcases List.mem_cons.mp hl with rfl | hl
    · obtain ⟨_, _, rfl | ⟨_, _, _, hnew, _⟩⟩ := obtainLease_some ⟨_, hledger.holds⟩ hobtain
      · refine Or.inl ⟨l, ?_, rfl⟩
        rw [SubmitCall.leases, SubmitCall.lease, hstage]
        exact List.mem_cons_self
      · exact Or.inr (hblocked hnew)
    · exact Or.inl ⟨l, hmanual hl, rfl⟩
  | reserved lease packet key hstage =>
    refine .of_subset rfl (fun l hl => ?_) rfl
    rw [SubmitCall.leases, SubmitCall.lease, hstage]
    exact hl
  | retireFailed lease packet key retired registry hstage hopen hretire =>
    have hid := retireManual_sequenceId s.sequenceRegistry lease
    rw [hretire] at hid
    refine ⟨⟨_, rfl, fun l hl => Or.inl ?_⟩, Or.inl rfl⟩
    rcases List.mem_cons.mp hl with rfl | hl
    · refine ⟨lease, ?_, hid.symm⟩
      rw [Ledger.leases_of_reserved hstage]
      exact List.mem_cons_self
    · exact ⟨l, hmanual hl, rfl⟩
  | admitted lease packet key retired registry hstage hopen hretire =>
    obtain ⟨hkey, _⟩ :=
      (hledger.calls call (List.mem_of_getElem? hcall)).keyed lease packet key (Or.inr hstage)
    refine ⟨⟨_, rfl, fun l hl => Or.inl ⟨l, hmanual hl, rfl⟩⟩,
      Or.inr ⟨_, lease, rfl, ?_, hkey.symm⟩⟩
    rw [Ledger.leases_of_reserved hstage]
    exact List.mem_cons_self
  | failing lease error hstage =>
    rw [finish_eq]
    exact .of_subset rfl (List.nil_subset _) rfl

theorem submit_calls {options : SubmitOptions} {content : String} {base : Option UInt32}
    (h : s.submit options content base = some s') :
    ∃ call, call.leases = [] ∧ s'.calls = s.calls ++ [call] := by
  rw [submit] at h
  split_ifs at h
  · cases h
    exact ⟨_, rfl, rfl⟩
  · cases h
    exact ⟨_, rfl, rfl⟩
  split at h
  · cases h
    exact ⟨_, rfl, rfl⟩
  · cases h
    exact ⟨_, rfl, rfl⟩
  · cases h

/-- What is spent stays spent. -/
theorem Spent.next (h : s.Spent x) (hledger : Ledger config s.holdings) {event : ConnectionEvent}
    (hnext : next gbk config s event = some s') : s'.Spent x := by
  have hpassed := next_passed hledger hnext
  cases event with
  | submit options content base =>
    obtain ⟨call, hnone, hcalls⟩ := submit_calls hnext
    refine ⟨hpassed h.passed, ?_, ?_⟩
    · rw [admittedIds, next_admissions hnext (by simp)]
      exact h.unadmitted
    · rw [hcalls]
      refine List.forall_mem_append.mpr ⟨h.unheld, List.forall_mem_singleton.mpr ?_⟩
      rw [hnone]
      exact List.forall_mem_nil _
  | call index event =>
    simp only [Connection.next] at hnext
    split at hnext
    · next call hcall =>
      have hheld := h.unheld call (List.mem_of_getElem? hcall)
      obtain ⟨⟨call', hcalls, hleases⟩, hadmissions⟩ :=
        callStep_inherits hledger hcall (callNext_step hnext)
      refine ⟨hpassed h.passed, ?_, ?_⟩
      · rcases hadmissions with hsame | ⟨a, l, happend, hl, hid⟩
        · rw [admittedIds, hsame]
          exact h.unadmitted
        · rw [admittedIds, happend, List.map_append]
          intro hmem
          rcases List.mem_append.mp hmem with hmem | hmem
          · exact h.unadmitted hmem
          · exact hheld l hl (hid.trans (List.mem_singleton.mp hmem).symm)
      · rw [hcalls]
        intro c hc l hl
        rcases List.mem_or_eq_of_mem_set hc with hc | rfl
        · exact h.unheld c hc l hl
        · rcases hleases l hl with ⟨l', hl', hid⟩ | hnew
          · exact hid ▸ hheld l' hl'
          · rintro rfl
            exact hnew h.passed
    · cases hnext
  | _ =>
    have howned := next_owned hnext
    exact h.keep hpassed (congrArg Owned.admissions howned) (congrArg Owned.calls howned)

/-- An id that the registry hands out to another task than a call. -/
theorem spent_issued (hledger : Ledger config s.holdings) {registry : SequenceState}
    (hs : s.sequenceRegistry.reserveNext = (some x, registry))
    (hpassed : registry.automaticPrefix ⊆ s'.sequenceRegistry.automaticPrefix)
    (hadmissions : s'.log.admissions = s.log.admissions) (hcalls : s'.calls = s.calls) :
    s'.Spent x ∧ x ∉ s.sequenceRegistry.automaticPrefix ∧ x ∉ s.admittedIds := by
  obtain ⟨hholds, _, hnew, _⟩ := hledger.holds.issue hs
  have hunadmitted : x ∉ s.admittedIds := fun hmem => hnew (hledger.blocked x hmem)
  refine ⟨⟨hpassed (hledger.holds.issue_passed hs), ?_, ?_⟩, fun hp => hnew (Or.inl hp),
    hunadmitted⟩
  · rw [admittedIds, hadmissions]
    exact hunadmitted
  · rw [hcalls]
    rintro call hcall l hl rfl
    have hfree := (Multiset.nodup_cons.mp hholds.nodup).1
    apply hfree
    rcases (hledger.calls call hcall).releasable l hl with hr | ⟨hfailed, _⟩
    · refine Multiset.mem_add.mpr (Or.inl (SequenceLease.mem_held.mpr ⟨l, ?_, hr, rfl⟩))
      exact List.mem_append_left _ (List.mem_flatMap.mpr ⟨call, hcall, hl⟩)
    · exact Multiset.mem_add.mpr (Or.inr (Multiset.mem_coe.mpr hfailed))

/-! ## What the ids stand for -/

/-- What this side asks of the peer. -/
inductive Request
  | submit (submissionId : UInt64)
  | heartbeat (heartbeatId : UInt64)
  | terminate
  deriving DecidableEq, Repr

/-- Every pending heartbeat was pending before, under its id. -/
def Renames (pending pending' : OrderedMap ℕ PendingHeartbeat) : Prop :=
  ∀ p ∈ pending', ∃ e, (p.1, e) ∈ pending ∧ e.heartbeatId = p.2.heartbeatId

theorem renames_same {pending pending' : OrderedMap ℕ PendingHeartbeat} (h : pending' = pending) :
    Renames pending pending' := fun p hp => ⟨p.2, h ▸ hp, rfl⟩

theorem renames_set {pending : OrderedMap ℕ PendingHeartbeat} {entry entry' : PendingHeartbeat}
    (hfind : pending.find x = some entry) (hid : entry'.heartbeatId = entry.heartbeatId) :
    Renames pending (pending.set x entry') := by
  have hmem := OrderedMap.find_eq_some_iff.mp hfind
  intro p hp
  rcases (OrderedMap.mem_set ⟨entry, hmem⟩).mp hp with rfl | ⟨hp, _⟩
  · exact ⟨entry, hmem, hid.symm⟩
  · exact ⟨p.2, hp, rfl⟩

theorem renames_erase (pending : OrderedMap ℕ PendingHeartbeat) (x : ℕ) :
    Renames pending (pending.erase x) := fun p hp => ⟨p.2, (OrderedMap.mem_erase.mp hp).1, rfl⟩

theorem renames_empty (pending : OrderedMap ℕ PendingHeartbeat) : Renames pending .empty :=
  fun _ hp => absurd hp OrderedMap.not_mem_empty

theorem renames_writerNext {event : WriterEvent} (hnext : s.writerNext config event = some s') :
    Renames s.heartbeatPending s'.heartbeatPending := by
  have hmove := writerNext_move hnext
  by_cases hreceived : ∃ outbound isSubmit, s.writer.stage = .received outbound isSubmit
  · obtain ⟨outbound, isSubmit, hstage⟩ := hreceived
    cases event with
    | advance =>
      simp only [writerNext, writerAdvance, hstage] at hnext
      cases hnext
      rcases screen_pending s outbound isSubmit with ⟨hsame, _⟩ |
        ⟨key, entry, _, _, hfind, _, _, heq⟩
      · exact renames_same hsame
      · rw [heq]
        exact renames_set hfind rfl
    | closed =>
      simp only [writerNext, hstage] at hnext
      split_ifs at hnext
    | _ =>
      simp only [writerNext, hstage] at hnext
      cases hnext
  by_cases hpublishing : ∃ outbound rest, s.writer.stage = .publishing (outbound :: rest)
  · obtain ⟨outbound, rest, hstage⟩ := hpublishing
    cases event with
    | advance =>
      simp only [writerNext, writerAdvance, hstage] at hnext
      split at hnext
      · next writtenAt _ =>
        cases hnext
        rcases publishFrame_pending s outbound writtenAt rest with hsame |
          ⟨key, entry, _, hfind, _, _, heq⟩
        · exact renames_same hsame
        · rw [heq]
          exact renames_set hfind rfl
      · cases hnext
    | closed =>
      simp only [writerNext, hstage] at hnext
      split_ifs at hnext
    | _ =>
      simp only [writerNext, hstage] at hnext
      cases hnext
  apply renames_same
  exact hmove.pending (fun outbound isSubmit hstage => hreceived ⟨outbound, isSubmit, hstage⟩)
    fun outbound rest hstage => hpublishing ⟨outbound, rest, hstage⟩

theorem renames_timeoutNext {event : TimeoutEvent} (hnext : s.timeoutNext config event = some s') :
    Renames s.heartbeatPending s'.heartbeatPending := by
  cases event with
  | giveUpHeartbeat =>
    simp only [timeoutNext] at hnext
    split at hnext
    · split_ifs at hnext
      split at hnext
      · cases hnext
        exact renames_same rfl
      · cases hnext
        exact renames_erase _ _
    · cases hnext
  | retryHeartbeat =>
    simp only [timeoutNext] at hnext
    split at hnext
    · split at hnext
      · cases hnext
        exact renames_same rfl
      · next entry hawaiting =>
        split_ifs at hnext
        · cases hnext
          exact renames_same rfl
        · cases hnext
          exact renames_set (heartbeatAwaiting_some hawaiting).1 rfl
    · cases hnext
  | _ => exact renames_same (quiet_timeoutNext hnext (by simp) (by simp)).1

/-- A pending heartbeat keeps its name; a new one was prepared by the heartbeat task. -/
theorem renames_next {event : ConnectionEvent} (hnext : next gbk config s event = some s') :
    Renames s.heartbeatPending s'.heartbeatPending ∨ ∃ lease key, event = .heartbeat .enqueue ∧
      s.heartbeat = .prepared lease key ∧ s'.heartbeatPending =
        s.heartbeatPending.insert key.sequenceId ⟨key.heartbeatId, .queued 1, lease⟩ := by
  cases event with
  | clock duration =>
    cases hnext
    exact Or.inl (renames_same rfl)
  | udhCounter counter =>
    cases hnext
    exact Or.inl (renames_same rfl)
  | submit options content base => exact Or.inl (renames_same (quiet_submit hnext).1)
  | call index event =>
    simp only [next] at hnext
    split at hnext
    · exact Or.inl (renames_same (quiet_callNext hnext).1)
    · cases hnext
  | writer event => exact Or.inl (renames_writerNext hnext)
  | reader event =>
    left
    by_cases hresp : ∃ sequenceId, event = .activeTestResp sequenceId
    · obtain ⟨sequenceId, rfl⟩ := hresp
      simp only [next, readerNext] at hnext
      split_ifs at hnext
      cases hnext
      exact renames_erase _ _
    · exact renames_same (quiet_readerNext hnext fun id heq => hresp ⟨id, heq⟩).1
  | heartbeat event =>
    cases event with
    | tick =>
      simp only [next, heartbeatNext] at hnext
      repeat' split at hnext
      all_goals cases hnext
      · exact Or.inl (renames_same (quiet_finish s).1)
      all_goals exact Or.inl (renames_same rfl)
    | enqueue =>
      simp only [next, heartbeatNext] at hnext
      split at hnext
      · next lease key hstage =>
        split_ifs at hnext
        · cases hnext
          exact Or.inl (renames_same rfl)
        · cases hnext
          exact Or.inl (renames_same rfl)
        · cases hnext
          exact Or.inr ⟨lease, key, rfl, hstage, rfl⟩
      · cases hnext
    | notOpen =>
      simp only [next, heartbeatNext] at hnext
      repeat' split at hnext
      all_goals cases hnext
      all_goals exact Or.inl (renames_same rfl)
  | timeout event => exact Or.inl (renames_timeoutNext hnext)
  | closer event => exact Or.inl (renames_same (quiet_closerNext hnext).1)
  | overloadClose =>
    cases hnext
    exact Or.inl (renames_same (quiet_beginClosing s false).1)
  | finish =>
    cases hnext
    exact Or.inl (renames_same (quiet_finish s).1)
  | finishStores =>
    simp only [next] at hnext
    split_ifs at hnext
    cases hnext
    exact Or.inl (renames_same rfl)
  | cleanup index event =>
    rcases (quiet_cleanupNext hnext).1 with hsame | hempty
    · exact Or.inl (renames_same hsame)
    · rw [hempty]
      exact Or.inl (renames_empty _)

/-- A task that is not a call takes an id from the registry. -/
def Draws (s s' : Connection) (x : ℕ) : Prop :=
  ∃ registry, s.sequenceRegistry.reserveNext = (some x, registry) ∧
    registry.automaticPrefix ⊆ s'.sequenceRegistry.automaticPrefix

theorem prepared_next {event : ConnectionEvent} (hnext : next gbk config s event = some s')
    {lease : SequenceLease} {key : HeartbeatAttemptKey}
    (hstage : s'.heartbeat = .prepared lease key) :
    s.heartbeat = .prepared lease key ∨ event = .heartbeat .tick ∧ s.Draws s' key.sequenceId := by
  cases event with
  | heartbeat event =>
    cases event with
    | tick =>
      simp only [next, heartbeatNext] at hnext
      split_ifs at hnext
      · split at hnext
        · cases hnext
          cases hstage
        · next id registry hdraw =>
          cases hnext
          cases hstage
          exact Or.inr ⟨rfl, registry, hdraw, subset_rfl⟩
      · cases hnext
        exact Or.inl hstage
    | enqueue =>
      simp only [next, heartbeatNext] at hnext
      split at hnext
      · split_ifs at hnext
        all_goals cases hnext
        all_goals cases hstage
      · cases hnext
    | notOpen =>
      simp only [next, heartbeatNext] at hnext
      repeat' split at hnext
      all_goals cases hnext
      all_goals cases hstage
  | _ => exact Or.inl ((congrArg Owned.heartbeat (next_owned hnext)).symm.trans hstage)

theorem terminate_next {event : ConnectionEvent} (hnext : next gbk config s event = some s')
    (hstage : s'.closer.terminateSequence = some x) :
    s.closer.terminateSequence = some x ∨ event = .closer .leaseTerminate ∧ s.Draws s' x := by
  cases event with
  | closer event =>
    cases event with
    | leaseTerminate =>
      simp only [next, closerNext] at hnext
      split_ifs at hnext
      split at hnext
      · cases hnext
        cases hstage
      · next id registry hdraw =>
        cases hnext
        cases hstage
        exact Or.inr ⟨rfl, registry, hdraw, (advances_dropLeases _ _).passed⟩
    | close =>
      simp only [next, closerNext] at hnext
      split_ifs at hnext
      split at hnext
      all_goals cases hnext
      all_goals cases hstage
    | sendTerminate =>
      simp only [next, closerNext] at hnext
      split at hnext
      · next id hleased =>
        split_ifs at hnext
        cases hnext
        cases hstage
        exact Or.inl (congrArg CloserStage.terminateSequence hleased)
      · cases hnext
    | handshakeOver =>
      simp only [next, closerNext] at hnext
      split at hnext
      · next id hleased =>
        cases hnext
        cases hstage
        exact Or.inl (congrArg CloserStage.terminateSequence hleased)
      · next id hawaiting =>
        cases hnext
        cases hstage
        exact Or.inl (congrArg CloserStage.terminateSequence hawaiting)
      · cases hnext
    | finish =>
      simp only [next, closerNext] at hnext
      split at hnext
      · next id hover =>
        cases hnext
        cases hstage
        exact Or.inl (congrArg CloserStage.terminateSequence hover)
      · cases hnext
    | _ =>
      simp only [next, closerNext] at hnext
      repeat' split at hnext
      all_goals cases hnext
      all_goals cases hstage
  | _ =>
    have hcloser := congrArg Owned.closer (next_owned hnext)
    exact Or.inl ((congrArg CloserStage.terminateSequence hcloser).symm.trans hstage)

/-- The ids that were used, each for one request. -/
structure Enrolled (named : List (ℕ × Request)) (s : Connection) : Prop where
  nodup : (named.map Prod.fst).Nodup
  admitted : ∀ a ∈ s.log.admissions, (a.sequenceId, .submit a.submissionId) ∈ named
  spent : ∀ p ∈ named, p.1 ∈ s.admittedIds ∨ s.Spent p.1
  prepared : ∀ lease key, s.heartbeat = .prepared lease key →
    (key.sequenceId, .heartbeat key.heartbeatId) ∈ named
  pending : ∀ p ∈ s.heartbeatPending, (p.1, .heartbeat p.2.heartbeatId) ∈ named
  terminate : ∀ x, s.closer.terminateSequence = some x → (x, .terminate) ∈ named

theorem enrolled_initial (config : ConnectionConfig) (clock : ℕ) (udhCounter : UInt32) :
    Enrolled [] (initial config clock udhCounter) where
  nodup := List.nodup_nil
  admitted _ ha := absurd ha List.not_mem_nil
  spent _ hp := absurd hp List.not_mem_nil
  prepared _ _ hstage := by cases hstage
  pending _ hp := absurd hp OrderedMap.not_mem_empty
  terminate _ hstage := by cases hstage

section Step

variable {named : List (ℕ × Request)} {event : ConnectionEvent}

/-- No new request: what was spent stays spent, and nobody got a new name. -/
theorem Enrolled.same (h : Enrolled named s) (hsound : s.Sound config)
    (hnext : next gbk config s event = some s')
    (hadmissions : s'.log.admissions = s.log.admissions)
    (hprepared :
      ∀ lease key, s'.heartbeat = .prepared lease key → s.heartbeat = .prepared lease key)
    (hterminate : ∀ x, s'.closer.terminateSequence = some x → s.closer.terminateSequence = some x) :
    Enrolled named s' where
  nodup := h.nodup
  admitted := by
    rw [hadmissions]
    exact h.admitted
  spent p hp := by
    rw [admittedIds, hadmissions]
    exact (h.spent p hp).imp_right fun hspent => hspent.next hsound.ledger hnext
  prepared lease key hstage := h.prepared lease key (hprepared lease key hstage)
  pending p hp := by
    rcases renames_next hnext with hrenames | ⟨lease, key, _, hstage, hinsert⟩
    · obtain ⟨e, he, hid⟩ := hrenames p hp
      rw [← hid]
      exact h.pending (p.1, e) he
    · rw [hinsert] at hp
      rcases OrderedMap.mem_insert.mp hp with rfl | ⟨hp, _⟩
      · exact h.prepared lease key hstage
      · exact h.pending p hp
  terminate x hstage := h.terminate x (hterminate x hstage)

/-- A new request under an id that nobody had. -/
theorem Enrolled.fresh (h : Enrolled named s) (hnew : x ∉ s.admittedIds)
    (hunspent : ¬ s.Spent x) (request : Request) :
    ((named ++ [(x, request)]).map Prod.fst).Nodup := by
  rw [List.map_append, List.map_singleton]
  refine h.nodup.append (List.nodup_singleton x) (List.disjoint_singleton.mpr fun hmem => ?_)
  obtain ⟨p, hp, rfl⟩ := List.mem_map.mp hmem
  exact (h.spent p hp).elim hnew hunspent

/-- The heartbeat task or the driver of the close has taken a new id. -/
theorem Enrolled.draw (h : Enrolled named s) (hsound : s.Sound config)
    (hnext : next gbk config s event = some s') (hdraws : s.Draws s' x) (request : Request)
    (hcalls : s'.calls = s.calls) (hadmissions : s'.log.admissions = s.log.admissions)
    (hprepared : ∀ lease key, s'.heartbeat = .prepared lease key →
      s.heartbeat = .prepared lease key ∨
        (key.sequenceId, .heartbeat key.heartbeatId) = (x, request))
    (hpending : Renames s.heartbeatPending s'.heartbeatPending)
    (hterminate : ∀ y, s'.closer.terminateSequence = some y →
      s.closer.terminateSequence = some y ∨ (y, .terminate) = (x, request)) :
    Enrolled (named ++ [(x, request)]) s' := by
  obtain ⟨registry, hdraw, hpassed⟩ := hdraws
  obtain ⟨hspent, hunpassed, hunadmitted⟩ :=
    spent_issued hsound.ledger hdraw hpassed hadmissions hcalls
  refine ⟨h.fresh hunadmitted (fun hbad => hunpassed hbad.passed) request, fun a ha => ?_,
    fun p hp => ?_, fun lease key hstage => ?_, fun p hp => ?_, fun y hstage => ?_⟩
  · rw [hadmissions] at ha
    exact List.mem_append_left _ (h.admitted a ha)
  · rcases List.mem_append.mp hp with hp | hp
    · rw [admittedIds, hadmissions]
      exact (h.spent p hp).imp_right fun hspent => hspent.next hsound.ledger hnext
    · rw [List.mem_singleton.mp hp]
      exact Or.inr hspent
  · rcases hprepared lease key hstage with hold | hown
    · exact List.mem_append_left _ (h.prepared lease key hold)
    · exact List.mem_append_right _ (List.mem_singleton.mpr hown)
  · obtain ⟨e, he, hid⟩ := hpending p hp
    rw [← hid]
    exact List.mem_append_left _ (h.pending (p.1, e) he)
  · rcases hterminate y hstage with hold | hown
    · exact List.mem_append_left _ (h.terminate y hold)
    · exact List.mem_append_right _ (List.mem_singleton.mpr hown)

theorem Enrolled.call (h : Enrolled named s) (hsound : s.Sound config) {index : ℕ}
    {e : CallEvent} (hnext : next gbk config s (.call index e) = some s') :
    ∃ named', named <+: named' ∧ Enrolled named' s' := by
  have howned := next_owned hnext
  have hheartbeat : s'.heartbeat = s.heartbeat := congrArg Owned.heartbeat howned
  have hcloser : s'.closer = s.closer := congrArg Owned.closer howned
  have hstep := hnext
  simp only [Connection.next] at hstep
  split at hstep
  swap
  · cases hstep
  next call hcall =>
  rcases (callStep_inherits hsound.ledger hcall (callNext_step hstep)).admissions with
    hsame | ⟨a, l, happend, hl, hid⟩
  · exact ⟨named, List.prefix_refl _, h.same hsound hnext hsame
      (fun _ _ hstage => hheartbeat ▸ hstage) fun _ hstage => hcloser ▸ hstage⟩
  have hmem := List.mem_of_getElem? hcall
  have hunadmitted : a.sequenceId ∉ s.admittedIds :=
    hid ▸ (hsound.ledger.calls call hmem).fresh l hl
  refine ⟨named ++ [(a.sequenceId, .submit a.submissionId)], List.prefix_append named _, ?_⟩
  refine ⟨h.fresh hunadmitted (fun hspent => hspent.unheld call hmem l hl hid)
    (.submit a.submissionId),
    fun b hb => ?_, fun p hp => ?_, fun lease key hstage => ?_, fun p hp => ?_, fun y hstage => ?_⟩
  · rw [happend] at hb
    rcases List.mem_append.mp hb with hb | hb
    · exact List.mem_append_left _ (h.admitted b hb)
    · rw [List.mem_singleton.mp hb]
      exact List.mem_append_right _ (List.mem_singleton_self _)
  · rw [admittedIds, happend, List.map_append]
    rcases List.mem_append.mp hp with hp | hp
    · rcases h.spent p hp with hold | hspent
      · exact Or.inl (List.mem_append_left _ hold)
      · exact Or.inr (hspent.next hsound.ledger hnext)
    · rw [List.mem_singleton.mp hp]
      exact Or.inl (List.mem_append_right _ (List.mem_singleton_self _))
  · exact List.mem_append_left _ (h.prepared lease key (hheartbeat ▸ hstage))
  · have hpending := (quiet_callNext hstep).1
    rw [hpending] at hp
    exact List.mem_append_left _ (h.pending p hp)
  · exact List.mem_append_left _ (h.terminate y (hcloser ▸ hstage))

/-- Each step gives at most one request its id. -/
theorem Enrolled.next (h : Enrolled named s) (hsound : s.Sound config)
    (hnext : Connection.next gbk config s event = some s') :
    ∃ named', named <+: named' ∧ Enrolled named' s' := by
  by_cases hcall : ∃ index e, event = .call index e
  · obtain ⟨index, e, rfl⟩ := hcall
    exact h.call hsound hnext
  have hadmissions := next_admissions hnext fun index e heq => hcall ⟨index, e, heq⟩
  have howned := next_owned hnext
  by_cases htick : event = .heartbeat .tick
  · subst htick
    have hcalls : s'.calls = s.calls := congrArg Owned.calls howned
    have hcloser : s'.closer = s.closer := congrArg Owned.closer howned
    by_cases hnew : ∀ lease key, s'.heartbeat = .prepared lease key →
        s.heartbeat = .prepared lease key
    · exact ⟨named, List.prefix_refl _, h.same hsound hnext hadmissions hnew
        fun _ hstage => hcloser ▸ hstage⟩
    · push Not at hnew
      obtain ⟨lease, key, hstage, hnew⟩ := hnew
      have hdraws := ((prepared_next hnext hstage).resolve_left hnew).2
      have hpending : Renames s.heartbeatPending s'.heartbeatPending :=
        (renames_next hnext).resolve_right (by simp)
      refine ⟨_, List.prefix_append named _, h.draw hsound hnext hdraws (.heartbeat key.heartbeatId)
        hcalls hadmissions (fun lease' key' hstage' => Or.inr ?_) hpending
        fun _ hstage => Or.inl (hcloser ▸ hstage)⟩
      rw [hstage] at hstage'
      cases hstage'
      rfl
  have hprepared : ∀ lease key, s'.heartbeat = .prepared lease key →
      s.heartbeat = .prepared lease key :=
    fun lease key hstage => (prepared_next hnext hstage).resolve_right fun hbad => htick hbad.1
  by_cases hnew : ∀ x, s'.closer.terminateSequence = some x → s.closer.terminateSequence = some x
  · exact ⟨named, List.prefix_refl _, h.same hsound hnext hadmissions hprepared hnew⟩
  · push Not at hnew
    obtain ⟨x, hstage, hnew⟩ := hnew
    obtain ⟨rfl, hdraws⟩ := (terminate_next hnext hstage).resolve_left hnew
    have hcalls : s'.calls = s.calls := congrArg Owned.calls howned
    have hpending : Renames s.heartbeatPending s'.heartbeatPending :=
      (renames_next hnext).resolve_right (by simp)
    refine ⟨_, List.prefix_append named _, h.draw hsound hnext hdraws .terminate hcalls hadmissions
      (fun lease key hstage => Or.inl (hprepared lease key hstage)) hpending
      fun y hstage' => Or.inr ?_⟩
    rw [hstage] at hstage'
    cases hstage'
    rfl

end Step

end Connection

end CmppProtocol
