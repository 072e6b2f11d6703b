import CmppProtocol.Connection.Conservation

/-! # Every step balances the ledger

The writer, the reader, the timeout task and the cleanups only take entries out
of the window; heartbeats and the local TERMINATE have leases of their own.
-/

namespace CmppProtocol

open SequenceLease SequenceState

namespace Connection

variable {gbk : Gbk} {config : ConnectionConfig} {s s' : Connection} {index : ℕ}

/-! ## The writer -/

theorem ledger_setPending (h : Ledger config s.holdings) {pending : PendingSubmits}
    (hshrinks : Shrinks s.pendingSubmits pending) :
    Ledger config (s.setPending pending).holdings := h.remove hshrinks

theorem ledger_setHeartbeat (h : Ledger config s.holdings) {x : ℕ}
    {entry entry' : PendingHeartbeat} (hfind : s.heartbeatPending.find x = some entry)
    (hlease : entry'.sequenceLease = entry.sequenceLease) :
    Ledger config
      ({ s with heartbeatPending := s.heartbeatPending.set x entry' } : Connection).holdings := by
  refine h.exchange (fun ids hids => ?_) (.refl _)
  rw [OrderedMap.map_entries_set hfind hlease]
  exact hids

theorem ledger_eraseHeartbeat (h : Ledger config s.holdings) {x : ℕ} {entry : PendingHeartbeat}
    (hfind : s.heartbeatPending.find x = some entry) :
    Ledger config ({ s with
      sequenceRegistry := entry.sequenceLease.drop s.sequenceRegistry
      heartbeatPending := s.heartbeatPending.erase x } : Connection).holdings := by
  refine h.exchange (fun ids hids => ?_) (keeps_drop _ _)
  have hsplit : held s.holdings.heartbeatLeases = held [entry.sequenceLease] +
      held ((s.heartbeatPending.erase x).entries.map fun p => p.2.sequenceLease) :=
    (held_perm ((OrderedMap.erase_perm hfind).map _)).trans held_cons
  rw [hsplit, add_assoc, add_assoc] at hids
  rw [add_assoc]
  exact hids.drop

theorem ledger_claimHeartbeat (h : Ledger config s.holdings) (key : HeartbeatAttemptKey) :
    Ledger config (s.claimHeartbeatAttempt key).2.holdings := by
  rw [claimHeartbeatAttempt]
  split_ifs
  · exact h
  split
  · next entry hfind =>
    split_ifs
    · exact ledger_setHeartbeat h hfind rfl
    · exact h
  · exact h

theorem ledger_completeHeartbeat (h : Ledger config s.holdings) (key : HeartbeatAttemptKey)
    (writtenAt : ℕ) : Ledger config (s.completeHeartbeatAttempt key writtenAt).holdings := by
  rw [completeHeartbeatAttempt]
  split
  · next entry hfind =>
    split_ifs
    · exact ledger_setHeartbeat h hfind rfl
    · exact h
  · exact h

theorem ledger_receive (h : Ledger config s.holdings) {fromSubmit : Bool}
    (hreceive : s.receive fromSubmit = some s') : Ledger config s'.holdings := by
  rw [receive] at hreceive
  split_ifs at hreceive
  · split at hreceive
    · cases hreceive
    · cases hreceive
      exact h
  · split at hreceive
    · cases hreceive
    · cases hreceive
      exact h

theorem ledger_screen (h : Ledger config s.holdings) (outbound : Outbound) (isSubmit : Bool) :
    Ledger config (s.screen outbound isSubmit).holdings := by
  have hburst : Ledger config (s.countBurst isSubmit).holdings := h
  rw [screen]
  dsimp only
  split_ifs
  · exact hburst
  · exact hburst
  split
  · exact hburst
  · next key _ =>
    have hclaim := ledger_claimHeartbeat hburst key
    split
    · next heq =>
      rw [heq] at hclaim
      exact hclaim
    · next heq =>
      rw [heq] at hclaim
      exact hclaim

theorem ledger_push (h : Ledger config s.holdings) (outbound : Outbound) :
    Ledger config (s.push config outbound).holdings := by
  rw [push]
  split_ifs
  · exact h
  split
  · split_ifs
    · exact h
    · exact h
  · exact h

theorem ledger_publishFrame (h : Ledger config s.holdings) (outbound : Outbound) (writtenAt : ℕ)
    (rest : List Outbound) :
    Ledger config (s.publishFrame outbound writtenAt rest).holdings := by
  rw [publishFrame]
  split
  · next key _ => exact ledger_completeHeartbeat h key writtenAt
  · exact h

theorem ledger_writerAdvance (h : Ledger config s.holdings)
    (hnext : s.writerAdvance config = some s') : Ledger config s'.holdings := by
  have hgetD {t : Connection} {o : Option Connection} (ht : Ledger config t.holdings)
      (ho : ∀ u, o = some u → Ledger config u.holdings) : Ledger config (o.getD t).holdings := by
    cases o with
    | none => exact ht
    | some u => exact ho u rfl
  rw [writerAdvance] at hnext
  split at hnext
  · split_ifs at hnext <;> cases hnext <;> exact h
  · cases hnext
    exact hgetD h fun u hu => ledger_receive h hu
  · cases hnext
    refine hgetD h fun u hu => ?_
    split_ifs at hu
    exact ledger_receive h hu
  · cases hnext
    exact ledger_screen h _ _
  · split_ifs at hnext <;> cases hnext <;> exact h
  · cases hnext
    exact ledger_push h _
  · split_ifs at hnext <;> cases hnext <;> exact h
  · cases hnext
    exact hgetD h fun u hu => ledger_receive h hu
  · cases hnext
    refine hgetD h fun u hu => ?_
    split_ifs at hu
    exact ledger_receive h hu
  · cases hnext
    exact h.restate (claimSubmitAttempts_restates _)
  · split_ifs at hnext <;> cases hnext <;> exact h
  · cases hnext
  · split at hnext
    · cases hnext
      exact ledger_setPending h (completeSubmitAttempts_shrinks _ _ _)
    · cases hnext
  · cases hnext
    exact h
  · split at hnext
    · cases hnext
      exact ledger_publishFrame h _ _ _
    · cases hnext
  · cases hnext
    exact h
  · cases hnext
    exact h
  · cases hnext
    exact h
  · cases hnext
    exact (finish_holdings s).symm ▸ h
  · cases hnext

theorem ledger_writerNext {event : WriterEvent} (h : Ledger config s.holdings)
    (hnext : s.writerNext config event = some s') : Ledger config s'.holdings := by
  cases event with
  | advance => exact ledger_writerAdvance h hnext
  | phaseChanged =>
    simp only [writerNext] at hnext
    split at hnext <;> cases hnext <;> exact h
  | written =>
    simp only [writerNext] at hnext
    split at hnext <;> cases hnext
    exact h
  | failed =>
    simp only [writerNext] at hnext
    split at hnext <;> cases hnext
    exact h
  | closed =>
    simp only [writerNext] at hnext
    split_ifs at hnext
    split at hnext <;> cases hnext <;> exact h

/-- The lease of the local TERMINATE is dropped. -/
theorem ledger_forgetTerminate (h : Ledger config s.holdings) :
    Ledger config ({ s with
      sequenceRegistry := dropLeases s.sequenceRegistry s.pendingTerminate.toList
      pendingTerminate := none } : Connection).holdings := by
  refine h.exchange (fun ids hids => ?_) (keeps_dropLeases _ _)
  have hsplit : held s.holdings.heartbeatLeases + held s.holdings.others + ids =
      held s.pendingTerminate.toList +
        (held s.holdings.heartbeatLeases + held s.heartbeat.lease.toList + ids) := by
    change _ + held (s.heartbeat.lease.toList ++ s.pendingTerminate.toList) + ids = _
    rw [held_append]
    abel
  rw [hsplit] at hids
  rw [Option.toList_none, List.append_nil]
  exact holds_dropLeases hids

theorem ledger_readerNext {event : ReaderEvent} (h : Ledger config s.holdings)
    (hnext : s.readerNext event = some s') : Ledger config s'.holdings := by
  cases event with
  | submitResp response =>
    simp only [readerNext] at hnext
    split_ifs at hnext
    cases hnext
    exact h
  | matchResps =>
    simp only [readerNext] at hnext
    split_ifs at hnext
    cases hnext
    exact ledger_setPending h (matchSubmitResps_shrinks _)
  | emitResp sent =>
    simp only [readerNext] at hnext
    split at hnext <;> cases hnext
    exact h
  | activeTest sequenceId =>
    simp only [readerNext] at hnext
    split_ifs at hnext
    cases hnext
    exact h
  | activeTestResp sequenceId =>
    simp only [readerNext] at hnext
    split_ifs at hnext
    cases hnext
    cases hfind : s.heartbeatPending.find sequenceId with
    | none =>
      rw [OrderedMap.erase_of_find_none hfind]
      exact h
    | some entry => exact ledger_eraseHeartbeat h hfind
  | deliver sequenceId deliver ticket =>
    simp only [readerNext] at hnext
    split_ifs at hnext
    cases hnext
    exact h
  | terminate sequenceId =>
    simp only [readerNext] at hnext
    split_ifs at hnext
    cases hnext
    have hclosing := beginClosing_holdings { s with peerTerminateSeen := true } false
    exact hclosing.symm ▸ h
  | answerTerminate =>
    simp only [readerNext] at hnext
    split at hnext
    · split_ifs at hnext
      cases hnext
      exact h
    · cases hnext
  | answered =>
    simp only [readerNext] at hnext
    split_ifs at hnext
    cases hnext
    exact h
  | terminateResp sequenceId =>
    simp only [readerNext] at hnext
    split_ifs at hnext
    · cases hnext
      exact ledger_forgetTerminate h
    · cases hnext
      exact h
  | stop =>
    simp only [readerNext] at hnext
    split_ifs at hnext
    cases hnext
    exact h

/-- The lease of the heartbeat task is dropped. -/
theorem ledger_dropHeartbeat (h : Ledger config s.holdings) {lease : SequenceLease}
    {key : HeartbeatAttemptKey} (hstage : s.heartbeat = .prepared lease key)
    {stage : HeartbeatStage} (hstage' : stage.lease = none) :
    Ledger config (s.dropHeartbeat lease stage).holdings := by
  refine h.exchange (fun ids hids => ?_) (keeps_drop _ lease)
  have hsplit : held s.holdings.heartbeatLeases + held s.holdings.others + ids =
      held [lease] + (held s.holdings.heartbeatLeases + held s.pendingTerminate.toList + ids) := by
    change _ + held (s.heartbeat.lease.toList ++ s.pendingTerminate.toList) + ids = _
    rw [held_append, hstage]
    change _ + (held [lease] + _) + ids = _
    abel
  rw [hsplit] at hids
  change (lease.drop s.sequenceRegistry).Holds
    (held s.holdings.heartbeatLeases + held (stage.lease.toList ++ s.pendingTerminate.toList) + ids)
  rw [hstage']
  exact hids.drop

theorem ledger_reserved (h : Ledger config s.holdings) (hstage : s.heartbeat.lease = none)
    {id : ℕ} {sequenceRegistry : SequenceState} {key : HeartbeatAttemptKey}
    (hreserve : s.sequenceRegistry.reserveNext = (some id, sequenceRegistry)) :
    Ledger config ({ s with
      sequenceRegistry
      nextHeartbeatId := s.nextHeartbeatId + 1
      heartbeat := .prepared ⟨id, false, true⟩ key } : Connection).holdings := by
  refine h.exchange (fun ids hids => ?_) (h.holds.issue hreserve).2.1
  have hothers : s.holdings.others = s.pendingTerminate.toList := by
    change s.heartbeat.lease.toList ++ s.pendingTerminate.toList = _
    rw [hstage]
    rfl
  rw [hothers] at hids
  have hissued := (hids.issue hreserve).1
  rw [← Multiset.singleton_add] at hissued
  change sequenceRegistry.Holds (held s.holdings.heartbeatLeases +
    held ([⟨id, false, true⟩] ++ s.pendingTerminate.toList) + ids)
  rw [held_append, held_releasable rfl, add_left_comm (held s.holdings.heartbeatLeases), add_assoc]
  exact hissued

/-- The lease of the heartbeat task goes into the pending heartbeats. -/
theorem ledger_insertHeartbeat (h : Ledger config s.holdings) {lease : SequenceLease}
    {key : HeartbeatAttemptKey} {entry : PendingHeartbeat} {controlQueue : List Outbound}
    (hstage : s.heartbeat = .prepared lease key) (hempty : s.heartbeatPending.size = 0)
    (hlease : entry.sequenceLease = lease) :
    Ledger config ({ s with
      heartbeatPending := s.heartbeatPending.insert key.sequenceId entry
      controlQueue
      heartbeat := .waiting } : Connection).holdings := by
  refine h.exchange (fun ids hids => ?_) (.refl _)
  have hfind : s.heartbeatPending.find key.sequenceId = none := by
    rw [OrderedMap.find, List.length_eq_zero_iff.mp hempty]
    rfl
  have hinsert : held ((s.heartbeatPending.insert key.sequenceId entry).entries.map
      fun p => p.2.sequenceLease) = held [lease] + held s.holdings.heartbeatLeases := by
    rw [held_perm ((OrderedMap.insert_perm hfind).map _), List.map_cons, held_cons, hlease]
    rfl
  have hothers : held s.holdings.others = held [lease] + held s.pendingTerminate.toList := by
    change held (s.heartbeat.lease.toList ++ s.pendingTerminate.toList) = _
    rw [held_append, hstage]
    rfl
  rw [hothers] at hids
  change s.sequenceRegistry.Holds
    (held ((s.heartbeatPending.insert key.sequenceId entry).entries.map
      fun p => p.2.sequenceLease) + held ([] ++ s.pendingTerminate.toList) + ids)
  rw [hinsert, List.nil_append, add_comm (held [lease]),
    add_assoc (held s.holdings.heartbeatLeases)]
  exact hids

theorem ledger_heartbeatNext {event : HeartbeatEvent} (h : Ledger config s.holdings)
    (hnext : s.heartbeatNext event = some s') : Ledger config s'.holdings := by
  cases event with
  | tick =>
    simp only [heartbeatNext] at hnext
    split_ifs at hnext with hwait hsize
    · split at hnext
      · next registry hreserve =>
        cases hnext
        rw [finish_eq]
        refine h.exchange (fun ids hids => ?_) (h.holds.exhaust hreserve).2
        have hothers : s.holdings.others = s.pendingTerminate.toList := by
          change s.heartbeat.lease.toList ++ s.pendingTerminate.toList = _
          rw [hwait.1]
          rfl
        rw [hothers] at hids
        exact (hids.exhaust hreserve).1
      · next id registry hreserve =>
        cases hnext
        exact ledger_reserved h (by rw [hwait.1]; rfl) hreserve
    · cases hnext
      exact h
  | enqueue =>
    simp only [heartbeatNext] at hnext
    split at hnext
    · next lease key hstage =>
      split_ifs at hnext with hopen hsize
      · cases hnext
        exact ledger_dropHeartbeat h hstage rfl
      · cases hnext
        exact ledger_dropHeartbeat h hstage rfl
      · cases hnext
        exact ledger_insertHeartbeat h hstage (not_not.mp hsize) rfl
    · cases hnext
  | notOpen =>
    simp only [heartbeatNext] at hnext
    split_ifs at hnext
    split at hnext
    · next hstage =>
      cases hnext
      refine h.exchange (fun ids hids => ?_) (.refl _)
      change s.sequenceRegistry.Holds (_ + held (s.heartbeat.lease.toList ++ _) + ids) at hids
      rw [hstage] at hids
      exact hids
    · next lease key hstage =>
      cases hnext
      exact ledger_dropHeartbeat h hstage rfl
    · cases hnext

theorem heartbeatAwaiting_some {key : HeartbeatAttemptKey} {entry : PendingHeartbeat}
    (h : s.heartbeatAwaiting key = some entry) :
    s.heartbeatPending.find key.sequenceId = some entry ∧
      entry.heartbeatId = key.heartbeatId ∧
        ∃ writtenAt, entry.state = .awaitingResponse key.attempt writtenAt := by
  unfold heartbeatAwaiting at h
  split at h
  · next entry' hfind =>
    split at h
    · next attempt writtenAt hstate =>
      split_ifs at h with hmatch
      cases h
      obtain ⟨hid, rfl⟩ := hmatch
      exact ⟨hfind, hid, writtenAt, hstate⟩
    · cases h
  · cases h

theorem ledger_giveUpSubmit (h : Ledger config s.holdings) (now : ℕ) (key : SubmitAttemptKey)
    (keys : List SubmitAttemptKey) (sent : Bool) :
    Ledger config (s.giveUpSubmit now key keys sent).holdings := by
  rw [giveUpSubmit]
  split
  · exact h
  next entry hawait =>
  obtain ⟨hretire, hledger⟩ := h.giveUp (stillAwaiting_some hawait).1
  cases sent with
  | false => exact h
  | true =>
    change entry.sequenceLease.retire s.sequenceRegistry = _ at hretire
    simp only [hretire]
    exact hledger

theorem ledger_retrySubmit (h : Ledger config s.holdings) (now : ℕ) (key : SubmitAttemptKey)
    (keys : List SubmitAttemptKey) : Ledger config (s.retrySubmit now key keys).holdings := by
  rw [retrySubmit]
  split
  · exact h
  next entry hawait =>
  split_ifs
  · exact h
  · exact h.restate (restates_setState (stillAwaiting_some hawait).1 _)

theorem ledger_timeoutNext {event : TimeoutEvent} (h : Ledger config s.holdings)
    (hnext : s.timeoutNext config event = some s') : Ledger config s'.holdings := by
  have hfinish (t : TimeoutStage) : Ledger config (s.finish.setTimeout t).holdings :=
    (finish_holdings s).symm ▸ h
  cases event with
  | tick =>
    simp only [timeoutNext] at hnext
    split_ifs at hnext
    cases hnext
    exact h
  | scanHeartbeat =>
    simp only [timeoutNext] at hnext
    split at hnext
    · split at hnext <;> cases hnext <;> exact h
    · cases hnext
  | giveUpHeartbeat =>
    simp only [timeoutNext] at hnext
    split at hnext
    · split_ifs at hnext
      split at hnext
      · cases hnext
        exact h
      · next entry hawait =>
        cases hnext
        exact ledger_eraseHeartbeat h (heartbeatAwaiting_some hawait).1
    · cases hnext
  | heartbeatSlot =>
    simp only [timeoutNext] at hnext
    split at hnext
    · split_ifs at hnext
      cases hnext
      exact h
    · cases hnext
  | heartbeatFull =>
    simp only [timeoutNext] at hnext
    split at hnext
    · split_ifs at hnext
      cases hnext
      exact h
    · cases hnext
  | retryHeartbeat =>
    simp only [timeoutNext] at hnext
    split at hnext
    · split at hnext
      · cases hnext
        exact h
      · next entry hawait =>
        split_ifs at hnext
        · cases hnext
          exact h
        · cases hnext
          exact ledger_setHeartbeat h (heartbeatAwaiting_some hawait).1 rfl
    · cases hnext
  | teardown =>
    simp only [timeoutNext] at hnext
    split at hnext
    · cases hnext
      exact hfinish _
    · cases hnext
      exact hfinish _
    · cases hnext
  | scanSubmits =>
    simp only [timeoutNext] at hnext
    split at hnext <;> cases hnext
    exact h
  | giveUpSubmit sent =>
    simp only [timeoutNext] at hnext
    split at hnext
    · split_ifs at hnext
      cases hnext
      exact ledger_giveUpSubmit h _ _ _ _
    · cases hnext
  | submitSlot =>
    simp only [timeoutNext] at hnext
    split at hnext
    · split_ifs at hnext
      cases hnext
      exact h
    · cases hnext
  | submitFull =>
    simp only [timeoutNext] at hnext
    split at hnext
    · split_ifs at hnext
      cases hnext
      exact h
    · cases hnext
  | retrySubmit =>
    simp only [timeoutNext] at hnext
    split at hnext <;> cases hnext
    exact ledger_retrySubmit h _ _ _
  | rest =>
    simp only [timeoutNext] at hnext
    split at hnext <;> cases hnext
    exact h
  | stop =>
    simp only [timeoutNext] at hnext
    split_ifs at hnext
    cases hnext
    exact h

/-- The lease of the local TERMINATE is taken from the registry. -/
theorem ledger_leaseTerminate (h : Ledger config s.holdings) {id : ℕ}
    {sequenceRegistry : SequenceState}
    (hreserve : s.sequenceRegistry.reserveNext = (some id, sequenceRegistry)) :
    Ledger config ({ s with
      sequenceRegistry := dropLeases sequenceRegistry s.pendingTerminate.toList
      pendingTerminate := some ⟨id, false, true⟩
      terminateWritten := false } : Connection).holdings := by
  refine h.exchange (fun ids hids => ?_)
    ((h.holds.issue hreserve).2.1.trans (keeps_dropLeases _ _))
  have hissued := (hids.issue hreserve).1
  have hsplit : id ::ₘ (held s.holdings.heartbeatLeases + held s.holdings.others + ids) =
      held s.pendingTerminate.toList + (held s.holdings.heartbeatLeases +
        (held s.heartbeat.lease.toList + {id}) + ids) := by
    change _ ::ₘ (_ + held (s.heartbeat.lease.toList ++ s.pendingTerminate.toList) + ids) = _
    rw [held_append, ← Multiset.singleton_add]
    abel
  rw [hsplit] at hissued
  change (dropLeases sequenceRegistry s.pendingTerminate.toList).Holds
    (held s.holdings.heartbeatLeases + held (s.heartbeat.lease.toList ++ [⟨id, false, true⟩]) + ids)
  rw [held_append, held_releasable rfl]
  exact holds_dropLeases hissued

theorem ledger_closerNext {event : CloserEvent} (h : Ledger config s.holdings)
    (hnext : s.closerNext event = some s') : Ledger config s'.holdings := by
  cases event with
  | close =>
    simp only [closerNext] at hnext
    split_ifs at hnext
    have hclosing := beginClosing_holdings s true
    split at hnext <;> next heq => rw [heq] at hclosing; cases hnext; exact hclosing.symm ▸ h
  | sendMarker =>
    simp only [closerNext] at hnext
    split_ifs at hnext
    cases hnext
    exact h
  | markerAnswered =>
    simp only [closerNext] at hnext
    split_ifs at hnext
    cases hnext
    exact h
  | markerGivenUp =>
    simp only [closerNext] at hnext
    split_ifs at hnext
    cases hnext
    exact h
  | clearDrain =>
    simp only [closerNext] at hnext
    split_ifs at hnext
    cases hnext
    exact h
  | leaseTerminate =>
    simp only [closerNext] at hnext
    split_ifs at hnext
    split at hnext
    · next registry hreserve =>
      cases hnext
      rw [finish_eq]
      exact h.exchange (fun ids hids => (hids.exhaust hreserve).1) (h.holds.exhaust hreserve).2
    · next id registry hreserve =>
      cases hnext
      exact ledger_leaseTerminate h hreserve
  | sendTerminate =>
    simp only [closerNext] at hnext
    split at hnext
    · split_ifs at hnext
      cases hnext
      exact h
    · cases hnext
  | handshakeOver =>
    simp only [closerNext] at hnext
    split at hnext
    · cases hnext
      exact h
    · cases hnext
      exact h
    · cases hnext
  | finish =>
    simp only [closerNext] at hnext
    split at hnext <;> cases hnext
    exact (finish_holdings s).symm ▸ h
  | forget =>
    simp only [closerNext] at hnext
    split at hnext
    · split_ifs at hnext
      · cases hnext
        have hforget := ledger_forgetTerminate h
        exact hforget
      · cases hnext
        exact h
    · cases hnext

theorem ledger_cleanupNext {event : CleanupEvent} (h : Ledger config s.holdings)
    (hnext : s.cleanupNext index event = some s') : Ledger config s'.holdings := by
  cases event with
  | start =>
    simp only [cleanupNext] at hnext
    split_ifs at hnext
    cases hnext
    exact h
  | drain order =>
    simp only [cleanupNext] at hnext
    split at hnext
    · split_ifs at hnext
      cases hnext
      exact ledger_setPending h fun q hq => absurd hq OrderedMap.not_mem_empty
    · cases hnext
  | sendDropped sent =>
    simp only [cleanupNext] at hnext
    split at hnext <;> cases hnext
    exact h
  | sweep =>
    simp only [cleanupNext] at hnext
    split at hnext
    · cases hnext
      refine h.exchange (fun ids hids => ?_) (keeps_dropLeases _ _)
      have hsplit : held s.holdings.heartbeatLeases + held s.holdings.others + ids =
          held (s.holdings.heartbeatLeases ++ s.pendingTerminate.toList) +
            (held s.heartbeat.lease.toList + ids) := by
        change _ + held (s.heartbeat.lease.toList ++ s.pendingTerminate.toList) + ids = _
        rw [held_append, held_append]
        abel
      rw [hsplit] at hids
      change (dropLeases s.sequenceRegistry
        (s.holdings.heartbeatLeases ++ s.pendingTerminate.toList)).Holds
          (held [] + held (s.heartbeat.lease.toList ++ []) + ids)
      rw [List.append_nil, held_nil, zero_add]
      exact holds_dropLeases hids
    · cases hnext
  | abort =>
    simp only [cleanupNext] at hnext
    split at hnext <;> cases hnext
    exact h

/-! ## Runs -/

theorem ledger_submit {options : SubmitOptions} {content : String} {base : Option UInt32}
    (h : Ledger config s.holdings) (hnext : s.submit options content base = some s') :
    Ledger config s'.holdings := by
  have hadd (call : SubmitCall) (hmanual : call.manualSequenceLeases = [])
      (hlease : call.lease = none) (hpermit : call.holdsPermit = false)
      (hstage : ∀ l packet key,
        ¬ (call.stage = .encoded l packet key ∨ call.stage = .reserved l packet key)) :
      Ledger config { s.holdings with calls := s.calls ++ [call] } := by
    have hleases : call.leases = [] := by
      rw [SubmitCall.leases, hlease, hmanual]
      rfl
    refine ⟨?_, ?_, h.blocked, h.keyed, h.retired, ?_⟩
    · have hbefore := h.holds
      simp only [Holdings.leases, List.flatMap_append, List.flatMap_cons, hleases,
        List.flatMap_nil, List.append_nil] at hbefore ⊢
      exact hbefore
    · have hbefore := h.permits
      simp only [List.countP_append, List.countP_cons, hpermit, List.countP_nil] at hbefore ⊢
      exact hbefore
    · intro c hc
      rcases List.mem_append.mp hc with hc | hc
      · exact h.calls c hc
      · rw [List.mem_singleton] at hc
        subst hc
        have hnone : ∀ l, l ∉ c.leases := fun l hl => List.not_mem_nil (hleases ▸ hl)
        exact ⟨fun l hl => absurd hl (hnone l), fun l hl => absurd hl (hnone l),
          fun l hl => absurd hl (hnone l), fun l packet key hk => absurd hk (hstage l packet key),
          fun _ => hmanual⟩
  simp only [submit] at hnext
  split_ifs at hnext
  · cases hnext
    exact hadd _ rfl rfl rfl (by simp)
  · cases hnext
    exact hadd _ rfl rfl rfl (by simp)
  split at hnext
  · cases hnext
    exact hadd _ rfl rfl rfl (by simp)
  · cases hnext
    exact hadd _ rfl rfl rfl (by simp)
  · cases hnext

theorem ledger_next {event : ConnectionEvent} (h : Ledger config s.holdings)
    (hnext : s.next gbk config event = some s') : Ledger config s'.holdings := by
  cases event with
  | clock duration =>
    cases hnext
    exact h
  | udhCounter counter =>
    cases hnext
    exact h
  | submit options content base => exact ledger_submit h hnext
  | call index event =>
    simp only [next] at hnext
    split at hnext
    · next call hcall => exact ledger_callStep h hcall (callNext_step hnext)
    · cases hnext
  | writer event => exact ledger_writerNext h hnext
  | reader event => exact ledger_readerNext h hnext
  | heartbeat event => exact ledger_heartbeatNext h hnext
  | timeout event => exact ledger_timeoutNext h hnext
  | closer event => exact ledger_closerNext h hnext
  | overloadClose =>
    cases hnext
    exact (beginClosing_holdings s false).symm ▸ h
  | finish =>
    cases hnext
    exact (finish_holdings s).symm ▸ h
  | finishStores =>
    simp only [next] at hnext
    split_ifs at hnext
    cases hnext
    exact h
  | cleanup index event => exact ledger_cleanupNext h hnext

theorem ledger_initial (config : ConnectionConfig) (clock : ℕ) (udhCounter : UInt32) :
    Ledger config (initial config clock udhCounter).holdings where
  holds := ⟨new_wellFormed 2, rfl⟩
  permits := rfl
  blocked _ hx := absurd hx List.not_mem_nil
  keyed _ hp := absurd hp OrderedMap.not_mem_empty
  retired _ hp := absurd hp OrderedMap.not_mem_empty
  calls _ hcall := absurd hcall List.not_mem_nil

end Connection

end CmppProtocol
