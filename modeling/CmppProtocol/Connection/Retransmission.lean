import CmppProtocol.Connection.Reached

/-! # The attempts of a SUBMIT

The frames of an admitted SUBMIT reach the socket in the order of its attempts.
A retry follows an attempt that was written a response timeout ago and still
waits; after the outcome nothing more is claimed.
-/

namespace CmppProtocol

namespace Life

variable {config : ConnectionConfig} {x : ℕ} {l : Life}

/-- An overdue attempt was written a response timeout ago, with the packet of its entry. -/
theorem Inv.due (h : Inv config x l) {key : SubmitAttemptKey} (hkey : key ∈ l.expired)
    (hid : key.sequenceId = x) {e : PendingSubmit} (he : l.entry = some e) {writtenAt : ℕ}
    (hstate : e.state = .awaitingResponse key.attempt writtenAt) :
    (.submit e.packet key, writtenAt) ∈ l.written ∧
      writtenAt + config.responseTimeout ≤ l.clock := by
  rcases h with h | ⟨a, n, hx, h⟩
  · rw [h.entry] at he
    cases he
  obtain ⟨_, hpacket, hagrees⟩ := h.entry e he
  simp only [Agrees, hstate] at hagrees
  obtain ⟨hattempt, hwritten, _, hlast⟩ := hagrees
  obtain ⟨hsub, k, q, hk, hq, hdue⟩ := h.expired key hkey
  have hframe : Outbound.submit e.packet key = a.frame n.queued := by
    rw [hpacket, Admission.frame, Admission.key, ← hattempt, hx, ← hid, ← hsub]
  have hindex : n.queued - 1 = k := by omega
  have hget : l.written[k]? = some (a.frame n.queued, writtenAt) := by
    rw [List.getLast?_eq_getElem?, h.written_length, hwritten, hindex] at hlast
    exact hlast
  obtain rfl := Option.some.inj (hq.symm.trans hget)
  rw [hframe]
  exact ⟨List.mem_of_getElem? hget, hdue.trans h.now_le⟩

end Life

namespace Window

variable {config : ConnectionConfig} {w w' : Window} {x : ℕ}

/-- What can be put into the queue: a first attempt, or the attempt after one that is overdue. -/
theorem Step.enqueued (hstep : Step config w w') (hlives : ∀ x, (w.life x).Inv config x)
    {key : SubmitAttemptKey} {queuedAt : ℕ} (hmem : (key, queuedAt) ∈ w'.log.enqueued) :
    (key, queuedAt) ∈ w.log.enqueued ∨ key.attempt = 1 ∨
      ∃ entry attempt writtenAt, key.attempt = attempt + 1 ∧
        w.pending.find key.sequenceId = some entry ∧ entry.submissionId = key.submissionId ∧
        entry.state = .awaitingResponse attempt writtenAt ∧
        (.submit entry.packet { key with attempt }, writtenAt) ∈ w.log.written ∧
        writtenAt + config.responseTimeout ≤ queuedAt := by
  cases hstep with
  | admitSubmit admission entry hopen hnew hnone hsub hpacket hstate =>
    rcases List.mem_append.mp hmem with hmem | hmem
    · exact Or.inl hmem
    · cases List.mem_singleton.mp hmem
      exact Or.inr (Or.inl rfl)
  | retry key' keys entry hopen hexpired hattempt hstill =>
    rcases List.mem_append.mp hmem with hmem | hmem
    · exact Or.inl hmem
    · cases List.mem_singleton.mp hmem
      obtain ⟨hfind, hsub, writtenAt, hstate⟩ := stillAwaiting_some hstill
      have hkey : key' ∈ (w.life key'.sequenceId).expired := by
        refine List.mem_filter.mpr ⟨?_, decide_eq_true rfl⟩
        rw [hexpired]
        exact List.mem_cons_self
      obtain ⟨hwritten, hdue⟩ := (hlives key'.sequenceId).due hkey rfl hfind hstate
      exact Or.inr (Or.inr ⟨entry, key'.attempt, writtenAt, rfl, hfind, hsub, hstate,
        (List.mem_filter.mp hwritten).1, hdue⟩)
  | _ => exact Or.inl hmem

/-- A SUBMIT that was admitted and has its outcome. -/
structure Settled (w : Window) (x : ℕ) : Prop where
  admitted : ∃ a ∈ w.log.admissions, a.sequenceId = x
  entry : Life.live (w.pending.find x) = 0

theorem sweep_claimEntry_settled {allowed : Bool} {entry : Option PendingSubmit}
    (h : Life.live entry = 0) (batch : List Outbound)
    (hbatch : ∀ o ∈ batch, o.submitAttempt ≠ none) :
    Compaction.sweep (claimEntry allowed) entry batch = (entry, []) := by
  induction batch with
  | nil => rfl
  | cons outbound batch ih =>
    obtain ⟨hfirst, hrest⟩ := List.forall_mem_cons.mp hbatch
    obtain ⟨key, hkey⟩ := Option.ne_none_iff_exists'.mp hfirst
    have hskip : claimEntry allowed entry outbound = (false, entry) := by
      cases entry with
      | none => simp only [claimEntry, hkey]
      | some e =>
        simp only [claimEntry, hkey]
        rw [if_neg]
        rintro ⟨_, _, hstate⟩
        simp only [Life.live, hstate] at h
        cases h
    rw [Compaction.sweep_skip hskip, ih hrest]

theorem live_completeEntry {writtenAt : ℕ} {entry : Option PendingSubmit} (h : Life.live entry = 0)
    (keys : List SubmitAttemptKey) :
    Life.live (keys.foldl (completeEntry writtenAt) entry) = 0 := by
  induction keys generalizing entry with
  | nil => exact h
  | cons key keys ih =>
    apply ih
    cases entry with
    | none => rfl
    | some e =>
      cases hstate : e.state with
      | respondedWhileWriting k =>
        rw [completeEntry]
        split_ifs with hsub hwriting
        · exact h
        · rw [hstate] at hwriting
          cases hwriting
        · rfl
        · exact h
      | _ => simp [Life.live, hstate] at h

/-- The outcome of a SUBMIT stays, and no frame of it is claimed any more. -/
theorem Step.settled (hstep : Step config w w') (h : w.Settled x) :
    w'.Settled x ∧
      w'.log.claimed.filter (Outbound.carries x) = w.log.claimed.filter (Outbound.carries x) := by
  obtain ⟨hadmitted, hentry⟩ := h
  cases hstep with
  | admitSubmit admission entry hopen hnew hnone hsub hpacket hstate =>
    obtain ⟨a, ha, hx⟩ := hadmitted
    have hne : x ≠ admission.sequenceId := fun heq => hnew a ha (hx.trans heq)
    refine ⟨⟨⟨a, List.mem_append_left _ ha, hx⟩, ?_⟩, rfl⟩
    rw [OrderedMap.find_insert, if_neg hne]
    exact hentry
  | claim batch rest hline hstatus hheld =>
    have hown := claimSubmitAttempts_at w.pending w.canSendSubmit x batch
    rw [sweep_claimEntry_settled hentry _ fun o ho hnone => by
      simp [Outbound.carries, hnone] at ho] at hown
    obtain ⟨hfind, hkept⟩ := Prod.mk.inj hown
    refine ⟨⟨hadmitted, hfind ▸ hentry⟩, ?_⟩
    rw [List.filter_append, filter_carries, ← hkept, List.append_nil]
  | complete batch writtenAt hheld hstatus =>
    refine ⟨⟨hadmitted, ?_⟩, rfl⟩
    rw [completeSubmitAttempts_at]
    exact live_completeEntry hentry _
  | matchResps responses hemitting =>
    have hown := matchSubmitResps_at w.pending x responses
    have hlive := (Life.sweep_matchEntry (w.pending.find x)
      (responses.filter fun r => r.sequenceId = x)).1
    rw [hown, hentry] at hlive
    exact ⟨⟨hadmitted, Nat.eq_zero_of_add_eq_zero_right hlive⟩, rfl⟩
  | giveUp key keys entry hexpired hattempt hstill =>
    refine ⟨⟨hadmitted, ?_⟩, rfl⟩
    rw [OrderedMap.find_erase]
    split_ifs
    · rfl
    · exact hentry
  | retry key keys entry hopen hexpired hattempt hstill =>
    obtain ⟨hfind, _, t, hstate⟩ := stillAwaiting_some hstill
    have hne : x ≠ key.sequenceId := by
      rintro rfl
      rw [hfind] at hentry
      simp [Life.live, hstate] at hentry
    refine ⟨⟨hadmitted, ?_⟩, rfl⟩
    rw [find_setState hfind, if_neg hne]
    exact hentry
  | drain index order hindex horder => exact ⟨⟨hadmitted, rfl⟩, rfl⟩
  | _ => exact ⟨⟨hadmitted, hentry⟩, rfl⟩

/-- A matched response, a timeout or a drop is an outcome. -/
theorem settled_of_outcome (hlives : ∀ x, (w.life x).Inv config x)
    (h : x ∈ w.log.responded ∨ x ∈ w.emitting.map SubmitResponse.sequenceId ∨
      x ∈ w.log.timedOut ∨ x ∈ w.log.drained) : w.Settled x := by
  have hpos : 0 < (w.life x).responded + (w.life x).emitting + (w.life x).timedOut +
      (w.life x).drained := by
    rcases h with h | h | h | h
    · have hcount : 0 < (w.life x).responded := List.count_pos_iff.mpr h
      omega
    · obtain ⟨response, hmem, hx⟩ := List.mem_map.mp h
      have hcount : 0 < (w.life x).emitting :=
        List.length_pos_of_mem (List.mem_filter.mpr ⟨hmem, decide_eq_true hx⟩)
      omega
    · have hcount : 0 < (w.life x).timedOut := List.count_pos_iff.mpr h
      omega
    · have hcount : 0 < (w.life x).drained := List.count_pos_iff.mpr h
      omega
  rcases hlives x with hlife | ⟨a, n, hx, hlife⟩
  · obtain ⟨hemitting, hresponded, htimedOut, hdrained, _⟩ := hlife.counts
    omega
  · have houtcome := hlife.outcome
    have hmem : a ∈ (w.life x).admissions := by
      rw [hlife.admissions]
      exact List.mem_singleton_self a
    refine ⟨⟨a, (List.mem_filter.mp hmem).1, hx⟩, ?_⟩
    change Life.live (w.life x).entry = 0
    omega

/-- The life of an admitted SUBMIT. -/
theorem admitted_life (hlives : ∀ x, (w.life x).Inv config x) {a : Admission}
    (ha : a ∈ w.log.admissions) : ∃ n, (w.life a.sequenceId).Admitted config a n := by
  have hmem : a ∈ (w.life a.sequenceId).admissions :=
    List.mem_filter.mpr ⟨ha, decide_eq_true rfl⟩
  rcases hlives a.sequenceId with h | ⟨b, n, _, h⟩
  · rw [h.admissions] at hmem
    cases hmem
  · rw [h.admissions] at hmem
    obtain rfl := List.mem_singleton.mp hmem
    exact ⟨n, h⟩

theorem owned_of_handed (hlives : ∀ x, (w.life x).Inv config x) {outbound : Outbound}
    (hmem : outbound ∈ w.log.handed) {key : SubmitAttemptKey}
    (hkey : outbound.submitAttempt = some key) :
    ∃ a ∈ w.log.admissions, ∃ n, outbound = a.frame n := by
  have hown : outbound ∈ (w.life key.sequenceId).handed :=
    List.mem_filter.mpr ⟨hmem, by simp [Outbound.carries, hkey]⟩
  rcases hlives key.sequenceId with h | ⟨a, n, _, h⟩
  · rw [h.handed] at hown
    cases hown
  · have ha : a ∈ (w.life key.sequenceId).admissions := by
      rw [h.admissions]
      exact List.mem_singleton_self a
    rw [h.handed] at hown
    obtain ⟨k, _, hframe⟩ := List.mem_map.mp hown
    exact ⟨a, (List.mem_filter.mp ha).1, k, hframe.symm⟩

theorem timeout_of_puts (hlives : ∀ x, (w.life x).Inv config x) {attempts : ℕ}
    (hmem : .submitTimeout x attempts ∈ w.log.puts) :
    attempts = (w.log.written.filter fun p => p.1.carries x).length ∧
      attempts = config.retryCount := by
  have hput : Event.submitTimeout x attempts ∈ (w.life x).puts :=
    List.mem_filter.mpr ⟨hmem, decide_eq_true rfl⟩
  rcases hlives x with h | ⟨a, n, _, h⟩
  · rw [h.puts] at hput
    cases hput
  · obtain ⟨hattempts, hwritten⟩ := h.gaveUp x attempts hput
    have hlength := h.written_length
    change (w.log.written.filter fun p => p.1.carries x).length = _ at hlength
    omega

end Window

namespace Connection

variable {gbk : Gbk} {config : ConnectionConfig} {s s' : Connection}

/-- The frames of each SUBMIT are its attempts from the first on. -/
structure Disciplined (config : ConnectionConfig) (s : Connection) : Prop where
  enqueued : ∀ a ∈ s.log.admissions, ∃ k ≤ config.retryCount,
    (s.log.enqueued.filter fun p => p.1.sequenceId = a.sequenceId).map Prod.fst =
      (List.range' 1 k).map a.key
  claimed : ∀ a ∈ s.log.admissions, ∃ k ≤ config.retryCount,
    s.log.claimed.filter (Outbound.carries a.sequenceId) = a.frames k
  handed : ∀ a ∈ s.log.admissions, ∃ k ≤ config.retryCount,
    s.log.handed.filter (Outbound.carries a.sequenceId) = a.frames k
  owned : ∀ outbound ∈ s.log.handed, outbound.submitAttempt ≠ none →
    ∃ a ∈ s.log.admissions, ∃ n, outbound = a.frame n
  gaveUp : ∀ x attempts, .submitTimeout x attempts ∈ s.log.puts →
    attempts = (s.log.written.filter fun p => p.1.carries x).length ∧ attempts = config.retryCount

theorem Sound.disciplined (h : s.Sound config) : s.Disciplined config where
  enqueued a ha := by
    obtain ⟨n, hn⟩ := Window.admitted_life h.lives ha
    exact ⟨n.queued, hn.counts.2.1, hn.enqueued⟩
  claimed a ha := by
    obtain ⟨n, hn⟩ := Window.admitted_life h.lives ha
    obtain ⟨_, hretry, _, _, hclaimed, _⟩ := hn.counts
    exact ⟨n.claimed, hclaimed.trans hretry, hn.claimed⟩
  handed a ha := by
    obtain ⟨n, hn⟩ := Window.admitted_life h.lives ha
    obtain ⟨_, hretry, _, hhanded, hclaimed, _⟩ := hn.counts
    exact ⟨n.handed, hhanded.trans (hclaimed.trans hretry), hn.handed⟩
  owned outbound hmem hne := by
    obtain ⟨key, hkey⟩ := Option.ne_none_iff_exists'.mp hne
    exact Window.owned_of_handed h.lives hmem hkey
  gaveUp _ _ hmem := Window.timeout_of_puts h.lives hmem

/-- The outcome of a SUBMIT is known: answered, given up or dropped. -/
def HasOutcome (s : Connection) (x : ℕ) : Prop :=
  x ∈ s.log.responded ∨ x ∈ s.reader.emitting.map SubmitResponse.sequenceId ∨
    x ∈ s.log.timedOut ∨ x ∈ s.log.drained

/-- The attempt before this one was written a response timeout ago and still waits. -/
def FollowsOverdue (config : ConnectionConfig) (s : Connection) (key : SubmitAttemptKey)
    (queuedAt : ℕ) : Prop :=
  ∃ entry attempt writtenAt, key.attempt = attempt + 1 ∧
    s.pendingSubmits.find key.sequenceId = some entry ∧ entry.submissionId = key.submissionId ∧
    entry.state = .awaitingResponse attempt writtenAt ∧
    (.submit entry.packet { key with attempt }, writtenAt) ∈ s.log.written ∧
    writtenAt + config.responseTimeout ≤ queuedAt

theorem settled_path {clock : ℕ} {udhCounter : UInt32} {events : List ConnectionEvent}
    (h : s.Sound config) (hpath : (machine gbk config clock udhCounter).Path s events s') {x : ℕ}
    (hsettled : s.window.Settled x) :
    s'.log.claimed.filter (Outbound.carries x) = s.log.claimed.filter (Outbound.carries x) := by
  have hrelated := hpath.relates (h := []) (I := fun _ s => s.Sound config)
    (R := fun s s' => ∀ x, s.window.Settled x → s'.window.Settled x ∧
      s'.log.claimed.filter (Outbound.carries x) = s.log.claimed.filter (Outbound.carries x))
    h (fun _ _ _ _ hs hnext => hs.next hnext) (fun _ _ hx => ⟨hx, rfl⟩)
    (fun s t u hst htu x hx => by
      obtain ⟨ht, hclaimed⟩ := hst x hx
      obtain ⟨hu, hclaimed'⟩ := htu x ht
      exact ⟨hu, hclaimed'.trans hclaimed⟩)
    (fun _ s _ s' hs hnext x hx => by
      rcases (follows_next hs.wired hs.ledger hnext).window with hsame | hstep
      · have hclaimed : s'.log.claimed = s.log.claimed :=
          congrArg (fun w : Window => w.log.claimed) hsame
        rw [hsame, hclaimed]
        exact ⟨hx, rfl⟩
      · exact hstep.settled hx)
  exact (hrelated.2 x hsettled).2

/-- The frames of a SUBMIT are its attempts in order, at most as many as the retry count; each
attempt after the first follows one that is overdue; after the outcome no frame is claimed; and a
SUBMIT that was given up was written exactly as often as its event says. -/
theorem attempt_discipline {clock : ℕ} {udhCounter : UInt32} {events : List ConnectionEvent}
    (hrun : (machine gbk config clock udhCounter).Run events s) :
    s.Disciplined config ∧
    (∀ event s', next gbk config s event = some s' → ∀ key queuedAt,
      (key, queuedAt) ∈ s'.log.enqueued → (key, queuedAt) ∈ s.log.enqueued ∨ key.attempt = 1 ∨
        s.FollowsOverdue config key queuedAt) ∧
    (∀ x, s.HasOutcome x → ∀ events' s',
      (machine gbk config clock udhCounter).Path s events' s' →
        s'.log.claimed.filter (Outbound.carries x) =
          s.log.claimed.filter (Outbound.carries x)) := by
  have hsound := sound_run hrun
  refine ⟨hsound.disciplined, fun event s' hnext key queuedAt hmem => ?_,
    fun x houtcome events' s' hpath => ?_⟩
  · rcases (follows_next hsound.wired hsound.ledger hnext).window with hsame | hstep
    · have henqueued : s'.log.enqueued = s.log.enqueued :=
        congrArg (fun w : Window => w.log.enqueued) hsame
      exact Or.inl (henqueued ▸ hmem)
    · exact hstep.enqueued hsound.lives hmem
  · exact settled_path hsound hpath (Window.settled_of_outcome hsound.lives houtcome)

/-- A SUBMIT that is sent twice and given up. -/
theorem attempt_discipline_exhausted : ∃ events s,
    (machine asciiGbk smallConfig 0 0).Run events s ∧ .submitTimeout 2 2 ∈ s.log.puts ∧
      s.Disciplined smallConfig := by
  have hexec : (Machine.exec (next asciiGbk smallConfig) (initial smallConfig 0 0) (admitOne ++
      writeOne ++ scanOnce ++ [.timeout .submitSlot, .timeout .retrySubmit, .timeout .rest] ++
        writeOne ++ scanOnce ++ [.timeout (.giveUpSubmit true)])).map (fun s => s.log.puts) =
      some [.submitTimeout 2 2] := by decide +kernel
  obtain ⟨s, hrun, hputs⟩ := Machine.exists_run_of_exec _ hexec
  refine ⟨_, s, hrun, ?_, (attempt_discipline hrun).1⟩
  rw [hputs]
  exact List.mem_singleton_self _

end Connection

end CmppProtocol
