import CmppProtocol.Connection.Progress

/-! # The scan for overdue attempts

Each scan of an open connection that finds an overdue attempt moves an entry
that waits for its response, so that rounds of the scan come to every entry.
-/

namespace CmppProtocol

/-- The ids whose entries wait for a response. -/
def awaitingIds (pending : PendingSubmits) : List ℕ :=
  pending.entries.filterMap fun (sequenceId, entry) =>
    match entry.state with
    | .awaitingResponse _ _ => some sequenceId
    | _ => none

section Awaiting

variable {pending pending' : PendingSubmits} {x : ℕ}

theorem mem_awaitingIds : x ∈ awaitingIds pending ↔ ∃ entry attempt writtenAt,
    pending.find x = some entry ∧ entry.state = .awaitingResponse attempt writtenAt := by
  rw [awaitingIds, List.mem_filterMap]
  constructor
  · rintro ⟨⟨y, entry⟩, hmem, hx⟩
    cases hstate : entry.state with
    | awaitingResponse attempt writtenAt =>
      simp only [hstate, Option.some.injEq] at hx
      subst hx
      exact ⟨entry, attempt, writtenAt, OrderedMap.find_eq_some_iff.mpr hmem, hstate⟩
    | _ => simp only [hstate, reduceCtorEq] at hx
  · rintro ⟨entry, attempt, writtenAt, hfind, hstate⟩
    exact ⟨(x, entry), OrderedMap.find_eq_some_iff.mp hfind, by simp only [hstate]⟩

theorem awaitingIds_nodup (pending : PendingSubmits) : (awaitingIds pending).Nodup := by
  apply OrderedMap.filterMap_keys_nodup
  rintro ⟨x, entry⟩ k hk
  cases hstate : entry.state with
  | awaitingResponse attempt writtenAt =>
    simp only [hstate, Option.some.injEq] at hk
    exact hk.symm
  | _ => simp only [hstate, reduceCtorEq] at hk

/-- When one id has gone and none has come, fewer are left. -/
theorem awaitingIds_length_lt (hx : x ∈ awaitingIds pending)
    (hsub : ∀ y ∈ awaitingIds pending', y ∈ awaitingIds pending)
    (hgone : x ∉ awaitingIds pending') :
    (awaitingIds pending').length < (awaitingIds pending).length := by
  have hnodup : (x :: awaitingIds pending').Nodup :=
    List.nodup_cons.mpr ⟨hgone, awaitingIds_nodup pending'⟩
  have hsubset : x :: awaitingIds pending' ⊆ awaitingIds pending :=
    List.cons_subset.mpr ⟨hx, hsub⟩
  exact (hnodup.subperm hsubset).length_le

theorem awaitingIds_length_le (hsub : ∀ y ∈ awaitingIds pending', y ∈ awaitingIds pending) :
    (awaitingIds pending').length ≤ (awaitingIds pending).length :=
  ((awaitingIds_nodup pending').subperm hsub).length_le

theorem awaitingIds_of_stillAwaiting {key : SubmitAttemptKey} {entry : PendingSubmit}
    (h : stillAwaiting pending key = some entry) : key.sequenceId ∈ awaitingIds pending := by
  obtain ⟨hfind, _, writtenAt, hstate⟩ := stillAwaiting_some h
  exact mem_awaitingIds.mpr ⟨entry, key.attempt, writtenAt, hfind, hstate⟩

theorem awaitingIds_erase (pending : PendingSubmits) (y : ℕ) :
    (∀ x ∈ awaitingIds (pending.erase y), x ∈ awaitingIds pending) ∧
      y ∉ awaitingIds (pending.erase y) := by
  constructor
  · intro x hx
    obtain ⟨entry, attempt, writtenAt, hfind, hstate⟩ := mem_awaitingIds.mp hx
    rw [OrderedMap.find_erase] at hfind
    split_ifs at hfind
    exact mem_awaitingIds.mpr ⟨entry, attempt, writtenAt, hfind, hstate⟩
  · intro hy
    obtain ⟨entry, attempt, writtenAt, hfind, hstate⟩ := mem_awaitingIds.mp hy
    rw [OrderedMap.find_erase, if_pos rfl] at hfind
    cases hfind

theorem awaitingIds_requeue (attempt : ℕ) {y : ℕ} {entry : PendingSubmit}
    (hfind : pending.find y = some entry) :
    (∀ x ∈ awaitingIds (setState pending y entry (.queued attempt)), x ∈ awaitingIds pending) ∧
      y ∉ awaitingIds (setState pending y entry (.queued attempt)) := by
  constructor
  · intro x hx
    obtain ⟨e, k, t, hfind', hstate⟩ := mem_awaitingIds.mp hx
    rw [find_setState hfind] at hfind'
    split_ifs at hfind'
    · cases hfind'
      cases hstate
    · exact mem_awaitingIds.mpr ⟨e, k, t, hfind', hstate⟩
  · intro hy
    obtain ⟨e, k, t, hfind', hstate⟩ := mem_awaitingIds.mp hy
    rw [find_setState hfind, if_pos rfl] at hfind'
    cases hfind'
    cases hstate

end Awaiting

namespace Connection

variable {gbk : Gbk} {config : ConnectionConfig} {s s' : Connection} {x : ℕ}
  {entry : PendingSubmit} {now : ℕ} {key : SubmitAttemptKey} {keys : List SubmitAttemptKey}

/-- The ids that wait for a response are among those of before, and this one is gone if it
waited. -/
def Attended (s s' : Connection) (key : SubmitAttemptKey) : Prop :=
  (∀ y ∈ awaitingIds s'.pendingSubmits, y ∈ awaitingIds s.pendingSubmits) ∧
    (stillAwaiting s.pendingSubmits key ≠ none → key.sequenceId ∉ awaitingIds s'.pendingSubmits)

theorem attended_retrySubmit (hopen : s.phase = .opened) :
    s.Attended (s.retrySubmit now key keys) key ∧
      (s.retrySubmit now key keys).timeout = .expired now keys := by
  rw [retrySubmit]
  split
  · next hnone => exact ⟨⟨fun _ hy => hy, fun hstill => absurd hnone hstill⟩, rfl⟩
  · next entry hstill =>
    rw [if_neg (not_not.mpr hopen)]
    obtain ⟨hsub, hgone⟩ := awaitingIds_requeue (key.attempt + 1) (stillAwaiting_some hstill).1
    exact ⟨⟨hsub, fun _ => hgone⟩, rfl⟩

theorem attended_giveUpSubmit (s : Connection) (now : ℕ) (key : SubmitAttemptKey)
    (keys : List SubmitAttemptKey) :
    s.Attended (s.giveUpSubmit now key keys true) key ∧
      ((s.giveUpSubmit now key keys true).timeout = .expired now keys ∨
        (s.giveUpSubmit now key keys true).timeout = .failing) := by
  rw [giveUpSubmit]
  split
  · next hnone => exact ⟨⟨fun _ hy => hy, fun hstill => absurd hnone hstill⟩, Or.inl rfl⟩
  · next entry hstill =>
    rw [if_neg (by decide)]
    obtain ⟨hsub, hgone⟩ := awaitingIds_erase s.pendingSubmits key.sequenceId
    have hstage (retired : Bool) :
        (if retired then TimeoutStage.expired now keys else .failing) = .expired now keys ∨
          (if retired then TimeoutStage.expired now keys else .failing) = .failing := by
      cases retired with
      | true => exact Or.inl rfl
      | false => exact Or.inr rfl
    exact ⟨⟨hsub, fun _ => hgone⟩, hstage _⟩

/-- The machine that only lets time pass and scans. -/
abbrev scanning (gbk : Gbk) (config : ConnectionConfig) (clock : ℕ) (udhCounter : UInt32) :
    Machine Connection ConnectionEvent :=
  (machine gbk config clock udhCounter).restrict fun _ event =>
    (∃ duration, event = .clock duration) ∨ ∃ event', event = .timeout event'

variable {clock : ℕ} {udhCounter : UInt32}

/-- The SUBMITs that wait for a response. -/
def awaitingCount (s : Connection) : ℕ := (awaitingIds s.pendingSubmits).length

variable (gbk) in
/-- The scan can take a step, which moves the entry or leaves it. -/
theorem Holding.scan (h : s.Holding config x entry) {event : TimeoutEvent}
    (hnext : s.timeoutNext config event = some s') :
    (scanning gbk config clock udhCounter).Reaches s s' ∧
      (s'.Moved x entry ∨ s'.Holding config x entry) := by
  have hstep : Connection.next gbk config s (.timeout event) = some s' := hnext
  exact ⟨.step ⟨hstep, Or.inr ⟨event, rfl⟩⟩, h.next hstep⟩

/-- The first overdue attempt is retried or given up. -/
theorem Holding.attend (h : s.Holding config x entry)
    (hstage : s.timeout = .expired now (key :: keys)) :
    ∃ s', (scanning gbk config clock udhCounter).Reaches s s' ∧ (s'.Moved x entry ∨
      s'.Holding config x entry ∧ s.Attended s' key ∧
        (s'.timeout = .expired now keys ∨ s'.timeout = .failing)) := by
  by_cases hattempt : key.attempt < config.retryCount
  · have hslot : s.timeoutNext config .submitSlot =
        some (s.setTimeout (.retrySlot now key keys)) := by
      simp only [timeoutNext, hstage, if_pos hattempt]
    obtain ⟨hreach, hmoved | ht⟩ := h.scan gbk hslot
    · exact ⟨_, hreach, Or.inl hmoved⟩
    have hretry : (s.setTimeout (.retrySlot now key keys)).timeoutNext config .retrySubmit =
        some ((s.setTimeout (.retrySlot now key keys)).retrySubmit now key keys) := rfl
    obtain ⟨hreach', hmoved | ht'⟩ := ht.scan gbk hretry
    · exact ⟨_, hreach.trans hreach', Or.inl hmoved⟩
    obtain ⟨hattended, hstage'⟩ := attended_retrySubmit (s := s.setTimeout _) h.opened
    exact ⟨_, hreach.trans hreach', Or.inr ⟨ht', hattended, Or.inl hstage'⟩⟩
  · have hgiveUp : s.timeoutNext config (.giveUpSubmit true) =
        some (s.giveUpSubmit now key keys true) := by
      simp only [timeoutNext, hstage, if_neg hattempt]
    obtain ⟨hreach, hmoved | ht⟩ := h.scan gbk hgiveUp
    · exact ⟨_, hreach, Or.inl hmoved⟩
    · obtain ⟨hattended, hstage'⟩ := s.attended_giveUpSubmit now key keys
      exact ⟨_, hreach, Or.inr ⟨ht, hattended, hstage'⟩⟩

/-- After an error the scan ends the connection. -/
theorem Holding.fail (h : s.Holding config x entry)
    (hstage : s.timeout = .failing ∨ s.timeout = .heartbeatExhausted) :
    ∃ s', (scanning gbk config clock udhCounter).Reaches s s' ∧ s'.Moved x entry := by
  have hteardown : s.timeoutNext config .teardown = some (s.finish.setTimeout .stopped) := by
    rcases hstage with hstage | hstage
    · simp only [timeoutNext, hstage]
    · simp only [timeoutNext, hstage]
  refine ⟨_, (h.scan gbk hteardown).1, Or.inr ?_⟩
  rw [finish_eq]
  rintro ⟨⟩

/-- The heartbeat is looked at first; the entries of the SUBMITs stay as they are. -/
theorem Holding.checkExpired (h : s.Holding config x entry) {heartbeat : HeartbeatAttemptKey}
    (hstage : s.timeout = .heartbeatExpired now heartbeat) :
    ∃ s', (scanning gbk config clock udhCounter).Reaches s s' ∧ (s'.Moved x entry ∨
      s'.Holding config x entry ∧ s'.timeout = .heartbeatChecked now ∧
        s'.pendingSubmits = s.pendingSubmits) := by
  by_cases hattempt : heartbeat.attempt < config.retryCount
  · have hfull : s.timeoutNext config .heartbeatFull =
        some (s.setTimeout (.heartbeatChecked now)) := by
      simp only [timeoutNext, hstage, if_pos hattempt]
    obtain ⟨hreach, hmoved | ht⟩ := h.scan gbk hfull
    · exact ⟨_, hreach, Or.inl hmoved⟩
    · exact ⟨_, hreach, Or.inr ⟨ht, rfl, rfl⟩⟩
  · cases hawaiting : s.heartbeatAwaiting heartbeat with
    | none =>
      have hgiveUp : s.timeoutNext config .giveUpHeartbeat =
          some (s.setTimeout (.heartbeatChecked now)) := by
        simp only [timeoutNext, hstage, if_neg hattempt, hawaiting]
      obtain ⟨hreach, hmoved | ht⟩ := h.scan gbk hgiveUp
      · exact ⟨_, hreach, Or.inl hmoved⟩
      · exact ⟨_, hreach, Or.inr ⟨ht, rfl, rfl⟩⟩
    | some pending =>
      have hgiveUp : s.timeoutNext config .giveUpHeartbeat = some (({ s with
          sequenceRegistry := pending.sequenceLease.drop s.sequenceRegistry
          heartbeatPending := s.heartbeatPending.erase heartbeat.sequenceId } :
            Connection).setTimeout .heartbeatExhausted) := by
        simp only [timeoutNext, hstage, if_neg hattempt, hawaiting]
      obtain ⟨hreach, hmoved | ht⟩ := h.scan gbk hgiveUp
      · exact ⟨_, hreach, Or.inl hmoved⟩
      · obtain ⟨s', hreach', hmoved⟩ := ht.fail (Or.inr rfl)
        exact ⟨s', hreach.trans hreach', Or.inl hmoved⟩

theorem Holding.check (h : s.Holding config x entry) (hstage : s.timeout = .ticked now) :
    ∃ s', (scanning gbk config clock udhCounter).Reaches s s' ∧ (s'.Moved x entry ∨
      s'.Holding config x entry ∧ s'.timeout = .heartbeatChecked now ∧
        s'.pendingSubmits = s.pendingSubmits) := by
  cases hexpired : s.expiredHeartbeat config now with
  | none =>
    have hscan : s.timeoutNext config .scanHeartbeat =
        some (s.setTimeout (.heartbeatChecked now)) := by
      simp only [timeoutNext, hstage, hexpired]
    obtain ⟨hreach, hmoved | ht⟩ := h.scan gbk hscan
    · exact ⟨_, hreach, Or.inl hmoved⟩
    · exact ⟨_, hreach, Or.inr ⟨ht, rfl, rfl⟩⟩
  | some heartbeat =>
    have hscan : s.timeoutNext config .scanHeartbeat =
        some (s.setTimeout (.heartbeatExpired now heartbeat)) := by
      simp only [timeoutNext, hstage, hexpired]
    obtain ⟨hreach, hmoved | ht⟩ := h.scan gbk hscan
    · exact ⟨_, hreach, Or.inl hmoved⟩
    · obtain ⟨s', hreach', hchecked⟩ := ht.checkExpired rfl
      exact ⟨s', hreach.trans hreach', hchecked⟩

/-- The overdue attempts of a scan are attended one after the other. -/
theorem Holding.attendAll (h : s.Holding config x entry) (hstage : s.timeout = .expired now keys) :
    ∃ s', (scanning gbk config clock udhCounter).Reaches s s' ∧ (s'.Moved x entry ∨
      s'.Holding config x entry ∧ s'.timeout = .waiting ∧
        ∀ y ∈ awaitingIds s'.pendingSubmits, y ∈ awaitingIds s.pendingSubmits) := by
  induction keys generalizing s with
  | nil =>
    have hrest : s.timeoutNext config .rest = some (s.setTimeout .waiting) := by
      simp only [timeoutNext, hstage]
    obtain ⟨hreach, hmoved | ht⟩ := h.scan gbk hrest
    · exact ⟨_, hreach, Or.inl hmoved⟩
    · exact ⟨_, hreach, Or.inr ⟨ht, rfl, fun _ hy => hy⟩⟩
  | cons key keys ih =>
    obtain ⟨t, hreach, hmoved | ⟨ht, hattended, hexpired | hfailing⟩⟩ := h.attend hstage
    · exact ⟨t, hreach, Or.inl hmoved⟩
    · obtain ⟨s', hreach', hmoved | ⟨hs', hwaiting, hsub⟩⟩ := ih ht hexpired
      · exact ⟨s', hreach.trans hreach', Or.inl hmoved⟩
      · exact ⟨s', hreach.trans hreach',
          Or.inr ⟨hs', hwaiting, fun y hy => hattended.1 y (hsub y hy)⟩⟩
    · obtain ⟨s', hreach', hmoved⟩ := ht.fail (Or.inl hfailing)
      exact ⟨s', hreach.trans hreach', Or.inl hmoved⟩

theorem Holding.scanSubmits (h : s.Holding config x entry)
    (hstage : s.timeout = .heartbeatChecked now) :
    (scanning gbk config clock udhCounter).Reaches s (s.setTimeout (.expired now
        (expiredSubmits s.pendingSubmits now config.responseTimeout config.submitRetryBatchSize))) ∧
      ((s.setTimeout (.expired now (expiredSubmits s.pendingSubmits now config.responseTimeout
          config.submitRetryBatchSize))).Moved x entry ∨
        (s.setTimeout (.expired now (expiredSubmits s.pendingSubmits now config.responseTimeout
          config.submitRetryBatchSize))).Holding config x entry) := by
  have hscan : s.timeoutNext config .scanSubmits = some (s.setTimeout (.expired now
      (expiredSubmits s.pendingSubmits now config.responseTimeout
        config.submitRetryBatchSize))) := by
    simp only [timeoutNext, hstage]
  exact h.scan gbk hscan

/-- The scan comes to its end. -/
theorem Holding.rest (h : s.Holding config x entry) :
    ∃ s', (scanning gbk config clock udhCounter).Reaches s s' ∧ (s'.Moved x entry ∨
      s'.Holding config x entry ∧ s'.timeout = .waiting ∧
        ∀ y ∈ awaitingIds s'.pendingSubmits, y ∈ awaitingIds s.pendingSubmits) := by
  have hchecked {t : Connection} {now : ℕ} (ht : t.Holding config x entry)
      (hstage : t.timeout = .heartbeatChecked now)
      (hpending : t.pendingSubmits = s.pendingSubmits) :
      ∃ s', (scanning gbk config clock udhCounter).Reaches t s' ∧ (s'.Moved x entry ∨
        s'.Holding config x entry ∧ s'.timeout = .waiting ∧
          ∀ y ∈ awaitingIds s'.pendingSubmits, y ∈ awaitingIds s.pendingSubmits) := by
    obtain ⟨hreach, hmoved | hu⟩ := ht.scanSubmits hstage
    · exact ⟨_, hreach, Or.inl hmoved⟩
    · obtain ⟨s', hreach', hend⟩ := hu.attendAll rfl
      refine ⟨s', hreach.trans hreach', hend.imp_right fun ⟨hs', hwaiting, hsub⟩ => ?_⟩
      exact ⟨hs', hwaiting, fun y hy => hpending ▸ hsub y hy⟩
  cases hstage : s.timeout with
  | waiting => exact ⟨s, .refl s, Or.inr ⟨h, hstage, fun _ hy => hy⟩⟩
  | ticked now =>
    obtain ⟨t, hreach, hmoved | ⟨ht, hstage', hpending⟩⟩ := h.check hstage
    · exact ⟨t, hreach, Or.inl hmoved⟩
    · obtain ⟨s', hreach', hend⟩ := hchecked ht hstage' hpending
      exact ⟨s', hreach.trans hreach', hend⟩
  | heartbeatExpired now heartbeat =>
    obtain ⟨t, hreach, hmoved | ⟨ht, hstage', hpending⟩⟩ := h.checkExpired hstage
    · exact ⟨t, hreach, Or.inl hmoved⟩
    · obtain ⟨s', hreach', hend⟩ := hchecked ht hstage' hpending
      exact ⟨s', hreach.trans hreach', hend⟩
  | heartbeatSlot now heartbeat =>
    obtain ⟨t, hretry, hstage', hpending⟩ : ∃ t, s.timeoutNext config .retryHeartbeat = some t ∧
        t.timeout = .heartbeatChecked now ∧ t.pendingSubmits = s.pendingSubmits := by
      simp only [timeoutNext, hstage]
      split
      · exact ⟨_, rfl, rfl, rfl⟩
      · split_ifs
        · exact ⟨_, rfl, rfl, rfl⟩
        · exact ⟨_, rfl, rfl, rfl⟩
    obtain ⟨hreach, hmoved | ht⟩ := h.scan gbk hretry
    · exact ⟨t, hreach, Or.inl hmoved⟩
    · obtain ⟨s', hreach', hend⟩ := hchecked ht hstage' hpending
      exact ⟨s', hreach.trans hreach', hend⟩
  | heartbeatChecked now => exact hchecked h hstage rfl
  | expired now keys => exact h.attendAll hstage
  | retrySlot now key keys =>
    have hretry : s.timeoutNext config .retrySubmit = some (s.retrySubmit now key keys) := by
      simp only [timeoutNext, hstage]
    obtain ⟨hreach, hmoved | ht⟩ := h.scan gbk hretry
    · exact ⟨_, hreach, Or.inl hmoved⟩
    obtain ⟨hattended, hstage'⟩ := attended_retrySubmit h.opened
    obtain ⟨s', hreach', hmoved | ⟨hs', hwaiting, hsub⟩⟩ := ht.attendAll hstage'
    · exact ⟨s', hreach.trans hreach', Or.inl hmoved⟩
    · exact ⟨s', hreach.trans hreach',
        Or.inr ⟨hs', hwaiting, fun y hy => hattended.1 y (hsub y hy)⟩⟩
  | heartbeatExhausted =>
    obtain ⟨s', hreach, hmoved⟩ := h.fail (Or.inr hstage)
    exact ⟨s', hreach, Or.inl hmoved⟩
  | failing =>
    obtain ⟨s', hreach, hmoved⟩ := h.fail (Or.inl hstage)
    exact ⟨s', hreach, Or.inl hmoved⟩
  | stopped => exact absurd h.opened (h.running.timeout hstage)

/-- A scan that reads the clock a response timeout after the write finds an overdue attempt. -/
theorem expiredSubmits_ne_nil {pending : PendingSubmits} {attempt writtenAt timeout limit : ℕ}
    (hfind : pending.find x = some entry)
    (hstate : entry.state = .awaitingResponse attempt writtenAt)
    (hdue : timeout ≤ now - writtenAt) (hlimit : 0 < limit) :
    ∃ key keys entry', expiredSubmits pending now timeout limit = key :: keys ∧
      stillAwaiting pending key = some entry' := by
  cases hexpired : expiredSubmits pending now timeout limit with
  | nil =>
    rw [expiredSubmits, List.map_eq_nil_iff, List.take_eq_nil_iff] at hexpired
    rcases hexpired with hzero | hnil
    · exact absurd hzero hlimit.ne'
    · have hlength := congrArg List.length hnil
      rw [List.length_mergeSort] at hlength
      have hnone := List.length_eq_zero_iff.mp hlength
      rw [List.filterMap_eq_nil_iff] at hnone
      have hmem := hnone (x, entry) (OrderedMap.find_eq_some_iff.mp hfind)
      simp only [hstate, if_pos hdue, reduceCtorEq] at hmem
  | cons key keys =>
    have hmem : key ∈ expiredSubmits pending now timeout limit := by
      rw [hexpired]
      exact List.mem_cons_self
    obtain ⟨entry', t, hfind', hsub, hstate', _⟩ := mem_expiredSubmits hmem
    refine ⟨key, keys, entry', rfl, ?_⟩
    simp only [stillAwaiting, hfind', hstate', hsub, and_self, if_true]

/-- What waits for its response was written before now. -/
theorem Sound.writtenAt_le (h : s.Sound config) {attempt writtenAt : ℕ}
    (hfind : s.pendingSubmits.find x = some entry)
    (hstate : entry.state = .awaitingResponse attempt writtenAt) : writtenAt ≤ s.clock := by
  rcases h.lives x with hlife | ⟨a, n, _, hlife⟩
  · have hnone : s.pendingSubmits.find x = none := hlife.entry
    rw [hnone] at hfind
    cases hfind
  · obtain ⟨_, _, hagrees⟩ := hlife.entry entry hfind
    simp only [Life.Agrees, hstate] at hagrees
    exact hlife.clocked _ (List.mem_of_getLast? hagrees.2.2.2)

theorem submitRetryBatchSize_pos (config : ConnectionConfig) : 0 < config.submitRetryBatchSize := by
  have hwindow := config.windowSize_pos
  rw [ConnectionConfig.submitRetryBatchSize]
  omega

/-- A scan that starts late enough attends some attempt that waits for its response. -/
theorem Holding.overdue (h : s.Holding config x entry) {attempt writtenAt : ℕ}
    (hstate : entry.state = .awaitingResponse attempt writtenAt) (hwaiting : s.timeout = .waiting) :
    ∃ s', (scanning gbk config clock udhCounter).Reaches s s' ∧ (s'.Moved x entry ∨
      s'.Holding config x entry ∧ ∃ key keys entry' now, s'.timeout = .expired now (key :: keys) ∧
        stillAwaiting s'.pendingSubmits key = some entry' ∧
        s'.pendingSubmits = s.pendingSubmits) := by
  have hclock : Connection.next gbk config s (.clock config.responseTimeout) =
      some { s with clock := s.clock + config.responseTimeout } := rfl
  have hlate : (scanning gbk config clock udhCounter).Reaches s
      { s with clock := s.clock + config.responseTimeout } :=
    .step ⟨hclock, Or.inl ⟨config.responseTimeout, rfl⟩⟩
  obtain hmoved | ht := h.next hclock
  · exact ⟨_, hlate, Or.inl hmoved⟩
  have htick :
      ({ s with clock := s.clock + config.responseTimeout } : Connection).timeoutNext config
      .tick = some (({ s with clock := s.clock + config.responseTimeout } : Connection).setTimeout
        (.ticked (s.clock + config.responseTimeout))) := by
    simp only [timeoutNext, hwaiting, h.opened, and_self, if_true]
  obtain ⟨hticked, hmoved | hu⟩ := ht.scan gbk htick
  · exact ⟨_, hlate.trans hticked, Or.inl hmoved⟩
  obtain ⟨v, hchecked, hmoved | ⟨hv, hstage, hpending⟩⟩ := hu.check rfl
  · exact ⟨v, (hlate.trans hticked).trans hchecked, Or.inl hmoved⟩
  obtain ⟨hscanned, hmoved | hz⟩ := hv.scanSubmits hstage
  · exact ⟨_, ((hlate.trans hticked).trans hchecked).trans hscanned, Or.inl hmoved⟩
  have hwritten := h.sound.writtenAt_le h.find hstate
  have hdue : config.responseTimeout ≤ s.clock + config.responseTimeout - writtenAt := by omega
  obtain ⟨key, keys, entry', hexpired, hstill⟩ := expiredSubmits_ne_nil hv.find hstate hdue
    (submitRetryBatchSize_pos config)
  refine ⟨_, ((hlate.trans hticked).trans hchecked).trans hscanned, Or.inr ⟨hz, key, keys, entry',
    s.clock + config.responseTimeout, ?_, hstill, hpending⟩⟩
  rw [← hexpired]
  rfl

/-- One whole scan moves the entry or leaves fewer that wait. -/
theorem Holding.round (h : s.Holding config x entry) {attempt writtenAt : ℕ}
    (hstate : entry.state = .awaitingResponse attempt writtenAt) :
    ∃ s', (scanning gbk config clock udhCounter).Reaches s s' ∧ (s'.Moved x entry ∨
      s'.Holding config x entry ∧ s'.awaitingCount < s.awaitingCount) := by
  obtain ⟨t, hrest, hmoved | ⟨ht, hwaiting, hsub⟩⟩ := h.rest
  · exact ⟨t, hrest, Or.inl hmoved⟩
  obtain ⟨u, hoverdue, hmoved | ⟨hu, key, keys, entry', now, hstage, hstill, hpending⟩⟩ :=
    ht.overdue hstate hwaiting
  · exact ⟨u, hrest.trans hoverdue, Or.inl hmoved⟩
  obtain ⟨s', hattend, hmoved | ⟨hs', ⟨hkept, hgone⟩, _⟩⟩ := hu.attend hstage
  · exact ⟨s', (hrest.trans hoverdue).trans hattend, Or.inl hmoved⟩
  refine ⟨s', (hrest.trans hoverdue).trans hattend, Or.inr ⟨hs', ?_⟩⟩
  have hlt : s'.awaitingCount < u.awaitingCount := by
    apply awaitingIds_length_lt (awaitingIds_of_stillAwaiting hstill) hkept (hgone ?_)
    rw [hstill]
    exact Option.some_ne_none entry'
  have hle : u.awaitingCount ≤ s.awaitingCount := by
    rw [awaitingCount, hpending]
    exact awaitingIds_length_le hsub
  exact hlt.trans_le hle

/-- Time and the scan alone move an entry that waits for its response. -/
theorem Holding.scanned (h : s.Holding config x entry) {attempt writtenAt : ℕ}
    (hstate : entry.state = .awaitingResponse attempt writtenAt) :
    ∃ s', (scanning gbk config clock udhCounter).Reaches s s' ∧ s'.Moved x entry :=
  Machine.reaches_of_descent awaitingCount (fun _ h => h.round hstate) h

theorem running_run {events : List ConnectionEvent}
    (hrun : (machine gbk config clock udhCounter).Run events s) : s.Running := by
  have hinv := hrun.invariant (I := fun _ s => s.Sound config ∧ s.Running)
    (fun s hs => by
      obtain rfl : s = initial config clock udhCounter := hs
      exact ⟨sound_initial config clock udhCounter, running_initial config clock udhCounter⟩)
    fun _ _ _ _ h hnext => ⟨h.1.next hnext, h.1.running_next h.2 hnext⟩
  exact hinv.2

/-- In every state of an open connection a pending SUBMIT has exactly its frame, and it can be
moved: by the writer alone if it waits to be written or to be completed, by time and the scan alone
if it waits for its response. -/
theorem submits_never_stuck {events : List ConnectionEvent}
    (hrun : (machine gbk config clock udhCounter).Run events s) (hopen : s.phase = .opened)
    (hfind : s.pendingSubmits.find x = some entry) :
    s.Covered x entry ∧
    ((∀ attempt writtenAt, entry.state ≠ .awaitingResponse attempt writtenAt) →
      ∃ s', (writing gbk config clock udhCounter).Reaches s s' ∧ s'.Moved x entry) ∧
    (∀ attempt writtenAt, entry.state = .awaitingResponse attempt writtenAt →
      ∃ s', (scanning gbk config clock udhCounter).Reaches s s' ∧ s'.Moved x entry) := by
  have hsound := sound_run hrun
  have hholding : s.Holding config x entry := ⟨hsound, running_run hrun, hopen, hfind⟩
  exact ⟨hsound.covered hopen hfind, hholding.written, fun _ _ => hholding.scanned⟩

/-- A SUBMIT in the queue of an open connection. -/
theorem submits_never_stuck_queued : ∃ events s entry,
    (machine asciiGbk smallConfig 0 0).Run events s ∧ s.pendingSubmits.find 2 = some entry ∧
      entry.state = .queued 1 ∧ s.Covered 2 entry ∧
      ∃ s', (writing asciiGbk smallConfig 0 0).Reaches s s' ∧ s'.Moved 2 entry := by
  have hexec : (Machine.exec (next asciiGbk smallConfig) (initial smallConfig 0 0) admitOne).map
      (fun s => (s.phase, (s.pendingSubmits.find 2).map PendingSubmit.state)) =
      some (.opened, some (.queued 1)) := by decide +kernel
  obtain ⟨s, hrun, hview⟩ := Machine.exists_run_of_exec _ hexec
  obtain ⟨hopen, hqueued⟩ := Prod.mk.inj hview
  obtain ⟨entry, hfind, hstate⟩ := Option.map_eq_some_iff.mp hqueued
  obtain ⟨hcovered, hwritten, _⟩ := submits_never_stuck hrun hopen hfind
  refine ⟨_, s, entry, hrun, hfind, hstate, hcovered, hwritten fun attempt writtenAt h => ?_⟩
  rw [hstate] at h
  cases h

end Connection

end CmppProtocol
