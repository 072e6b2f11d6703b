import CmppProtocol.Connection.Owners
import CmppProtocol.Connection.Retransmission

/-! # Answers to SUBMITs that were sent

A response is matched by its sequence id alone. It may find the entry of a
SUBMIT whose first attempt is still queued; apart from this case an answered
SUBMIT was claimed by the writer before.
-/

namespace CmppProtocol

namespace Window

variable {config : ConnectionConfig} {w w' : Window} {x : ℕ}

/-- A frame of the SUBMIT was claimed for writing. -/
def Claimed (w : Window) (x : ℕ) : Prop := w.log.claimed.filter (Outbound.carries x) ≠ []

/-- Matched responses belong to SUBMITs that were claimed. -/
structure Answered (w : Window) : Prop where
  emitting : ∀ r ∈ w.emitting, w.Claimed r.sequenceId
  responded : ∀ x ∈ w.log.responded, w.Claimed x
  reported : ∀ x msgId result, .submitResp x msgId result ∈ w.log.puts → x ∈ w.log.responded

/-- An entry that is not at its first attempt in the queue was claimed. -/
theorem claimed_of_entry (hlives : ∀ x, (w.life x).Inv config x) {entry : PendingSubmit}
    (hfind : w.pending.find x = some entry) (hstate : entry.state ≠ .queued 1) : w.Claimed x := by
  have hclaimed : (w.life x).claimed ≠ [] := by
    rcases hlives x with h | ⟨a, n, _, h⟩
    · have hnone : w.pending.find x = none := h.entry
      rw [hnone] at hfind
      cases hfind
    · obtain ⟨_, _, hagrees⟩ := h.entry entry hfind
      obtain ⟨hpos, _, hwh, hhc, _⟩ := h.counts
      have hclaimed : 0 < n.claimed := by
        cases hs : entry.state with
        | queued k =>
          simp only [Life.Agrees, hs] at hagrees
          have hne : k ≠ 1 := fun h => hstate (h ▸ hs)
          omega
        | writing k =>
          simp only [Life.Agrees, hs] at hagrees
          rcases h.held with hnil | ⟨_, hclaimed, _⟩
          · rw [hnil] at hagrees
            cases hagrees.2
          · omega
        | respondedWhileWriting k =>
          simp only [Life.Agrees, hs] at hagrees
          rcases h.held with hnil | ⟨_, hclaimed, _⟩
          · rw [hnil] at hagrees
            cases hagrees.2
          · omega
        | awaitingResponse k t =>
          simp only [Life.Agrees, hs] at hagrees
          omega
      rw [h.claimed, ← Nat.succ_pred_eq_of_pos hclaimed, Nat.succ_eq_add_one, Admission.frames_succ]
      exact List.append_ne_nil_of_right_ne_nil _ (List.cons_ne_nil _ _)
  exact hclaimed

/-- An entry at its first attempt in the queue was not claimed. -/
theorem not_claimed_of_queued (hlives : ∀ x, (w.life x).Inv config x) {entry : PendingSubmit}
    (hfind : w.pending.find x = some entry) (hstate : entry.state = .queued 1) : ¬ w.Claimed x := by
  have hclaimed : (w.life x).claimed = [] := by
    rcases hlives x with h | ⟨a, n, _, h⟩
    · exact h.claimed
    · obtain ⟨_, _, hagrees⟩ := h.entry entry hfind
      simp only [Life.Agrees, hstate] at hagrees
      have hzero : n.claimed = 0 := by omega
      rw [h.claimed, hzero]
      rfl
  exact fun h => h hclaimed

theorem Claimed.step (h : w.Claimed x) (hstep : Step config w w') : w'.Claimed x := by
  cases hstep with
  | claim batch rest hline hstatus hheld =>
    rw [Claimed, List.filter_append]
    exact List.append_ne_nil_of_left_ne_nil h _
  | _ => exact h

theorem Step.responded (hstep : Step config w w') (h : x ∈ w'.log.responded) :
    x ∈ w.log.responded ∨ ∃ r ∈ w.emitting, r.sequenceId = x := by
  cases hstep with
  | emitResp response emitting sent hemitting =>
    rcases List.mem_append.mp h with h | h
    · exact Or.inl h
    · refine Or.inr ⟨response, ?_, (List.mem_singleton.mp h).symm⟩
      rw [hemitting]
      exact List.mem_cons_self
  | _ => exact Or.inl h

theorem Step.reported (hstep : Step config w w') {msgId : Vector UInt8 8} {result : UInt8}
    (h : ∀ x msgId result, .submitResp x msgId result ∈ w.log.puts → x ∈ w.log.responded)
    (hmem : .submitResp x msgId result ∈ w'.log.puts) : x ∈ w'.log.responded := by
  cases hstep with
  | emitResp response emitting sent hemitting =>
    cases sent with
    | true =>
      rcases List.mem_append.mp hmem with hmem | hmem
      · exact List.mem_append_left _ (h _ _ _ hmem)
      · cases List.mem_singleton.mp hmem
        exact List.mem_append_right _ (List.mem_singleton_self _)
    | false => exact List.mem_append_left _ (h _ _ _ hmem)
  | giveUp key keys entry hexpired hattempt hstill =>
    rcases List.mem_append.mp hmem with hmem | hmem
    · exact h _ _ _ hmem
    · cases List.mem_singleton.mp hmem
  | sendDropped index batch batches sent hindex =>
    cases sent with
    | true =>
      rcases List.mem_append.mp hmem with hmem | hmem
      · exact h _ _ _ hmem
      · obtain ⟨_, _, hy⟩ := List.mem_map.mp hmem
        cases hy
    | false => exact h _ _ _ hmem
  | _ => exact h _ _ _ hmem

end Window

namespace Connection

variable {gbk : Gbk} {config : ConnectionConfig} {s s' : Connection}

/-- Every SUBMIT that a response has been matched to was claimed for writing before. -/
def AnsweredSent (s : Connection) : Prop :=
  ∀ x, (x ∈ s.log.responded ∨ (∃ r ∈ s.reader.emitting, r.sequenceId = x) ∨
    ∃ msgId result, .submitResp x msgId result ∈ s.log.puts) →
      s.log.claimed.filter (Outbound.carries x) ≠ []

/-- No response that is about to be matched finds its SUBMIT at the first attempt in the queue. -/
def flushesSent (s : Connection) : ConnectionEvent → Bool
  | .reader .matchResps => s.reader.pendingResps.all fun response =>
    (s.pendingSubmits.find response.sequenceId).all fun entry => entry.state ≠ .queued 1
  | _ => true

/-- What a step may add to the matched responses. -/
theorem emitting_next {event : ConnectionEvent} (h : next gbk config s event = some s')
    {r : SubmitResponse} (hr : r ∈ s'.reader.emitting) :
    r ∈ s.reader.emitting ∨ event = .reader .matchResps ∧
      r ∈ (matchSubmitResps s.pendingSubmits s.reader.pendingResps).2 := by
  have howned := next_owned h
  cases event with
  | reader event =>
    cases event with
    | matchResps =>
      simp only [next, readerNext] at h
      split_ifs at h
      cases h
      exact Or.inr ⟨rfl, hr⟩
    | emitResp sent =>
      simp only [next, readerNext] at h
      split at h
      · cases h
      · next emitting hemitting =>
        cases h
        rw [hemitting]
        exact Or.inl (List.mem_cons_of_mem _ hr)
    | terminate sequenceId =>
      simp only [next, readerNext] at h
      split_ifs at h
      cases h
      have hclosing := congrArg Owned.reader
        (beginClosing_owned { s with peerTerminateSeen := true } false)
      change r ∈ (beginClosing _ false).2.reader.emitting at hr
      change (beginClosing _ false).2.reader = s.reader at hclosing
      rw [hclosing] at hr
      exact Or.inl hr
    | _ =>
      left
      simp only [next, readerNext] at h
      repeat' split at h
      all_goals cases h
      all_goals exact hr
  | _ =>
    have hreader : s'.reader = s.reader := congrArg Owned.reader howned
    rw [hreader] at hr
    exact Or.inl hr

/-- A response that is kept has an entry. -/
theorem find_of_kept {pending : PendingSubmits} {responses : List SubmitResponse}
    {r : SubmitResponse} (hr : r ∈ (matchSubmitResps pending responses).2) :
    r ∈ responses ∧ ∃ entry, pending.find r.sequenceId = some entry := by
  have hown := matchSubmitResps_at pending r.sequenceId responses
  have hlive := (Life.sweep_matchEntry (pending.find r.sequenceId)
    (responses.filter fun response => response.sequenceId = r.sequenceId)).1
  have hkept : r ∈ (matchSubmitResps pending responses).2.filter fun response =>
      response.sequenceId = r.sequenceId :=
    List.mem_filter.mpr ⟨hr, decide_eq_true rfl⟩
  constructor
  · rw [matchSubmitResps_eq] at hr
    exact (Compaction.sweep_sublist _ _).subset hr
  · cases hfind : pending.find r.sequenceId with
    | some entry => exact ⟨entry, rfl⟩
    | none =>
      rw [hown, hfind] at hlive
      have hpos := List.length_pos_of_mem hkept
      simp only [Life.live] at hlive
      omega

/-- One response of a SUBMIT in the queue is kept. -/
theorem kept_of_queued {pending : PendingSubmits} {responses : List SubmitResponse}
    {r : SubmitResponse} (hr : r ∈ responses) {entry : PendingSubmit} {k : ℕ}
    (hfind : pending.find r.sequenceId = some entry) (hstate : entry.state = .queued k) :
    ∃ r' ∈ (matchSubmitResps pending responses).2, r'.sequenceId = r.sequenceId := by
  have hown := matchSubmitResps_at pending r.sequenceId responses
  have hmem : r ∈ responses.filter fun response => response.sequenceId = r.sequenceId :=
    List.mem_filter.mpr ⟨hr, decide_eq_true rfl⟩
  cases hresponses : responses.filter fun response => response.sequenceId = r.sequenceId with
  | nil =>
    rw [hresponses] at hmem
    cases hmem
  | cons r' rest =>
    have hkeep : matchEntry (some entry) r' = (true, none) := by
      simp only [matchEntry, hstate]
    rw [hresponses, hfind, Compaction.sweep_keep hkeep] at hown
    have hfilter : r' :: (Compaction.sweep matchEntry none rest).2 =
        (matchSubmitResps pending responses).2.filter fun response =>
          response.sequenceId = r.sequenceId := congrArg Prod.snd hown
    have hkept : r' ∈ (matchSubmitResps pending responses).2.filter fun response =>
        response.sequenceId = r.sequenceId := by
      rw [← hfilter]
      exact List.mem_cons_self
    obtain ⟨hin, hid⟩ := List.mem_filter.mp hkept
    exact ⟨r', hin, of_decide_eq_true hid⟩

theorem Sound.answered_next (hsound : s.Sound config) (h : s.window.Answered)
    {event : ConnectionEvent} (hsent : s.flushesSent event = true)
    (hnext : Connection.next gbk config s event = some s') : s'.window.Answered := by
  have hclaimed {x : ℕ} (hx : s.window.Claimed x) : s'.window.Claimed x := by
    rcases (follows_next hsound.wired hsound.ledger hnext).window with hsame | hstep
    · exact hsame ▸ hx
    · exact hx.step hstep
  refine ⟨fun r hr => ?_, fun x hx => ?_, fun x msgId result hmem => ?_⟩
  · rcases emitting_next hnext hr with hold | ⟨rfl, hkept⟩
    · exact hclaimed (h.emitting r hold)
    · obtain ⟨hmem, entry, hfind⟩ := find_of_kept hkept
      have hstate : entry.state ≠ .queued 1 := by
        have hall := List.all_eq_true.mp hsent r hmem
        rw [hfind] at hall
        exact of_decide_eq_true hall
      exact hclaimed (Window.claimed_of_entry hsound.lives hfind hstate)
  · rcases (follows_next hsound.wired hsound.ledger hnext).window with hsame | hstep
    · rw [hsame] at hx
      exact hclaimed (h.responded x hx)
    · rcases hstep.responded hx with hold | ⟨r, hr, rfl⟩
      · exact hclaimed (h.responded x hold)
      · exact hclaimed (h.emitting r hr)
  · rcases (follows_next hsound.wired hsound.ledger hnext).window with hsame | hstep
    · rw [hsame] at hmem ⊢
      exact h.reported x msgId result hmem
    · exact hstep.reported h.reported hmem

theorem answeredSent_of_answered (h : s.window.Answered) : s.AnsweredSent := by
  rintro x (hx | ⟨r, hr, rfl⟩ | ⟨msgId, result, hput⟩)
  · exact h.responded x hx
  · exact h.emitting r hr
  · exact h.responded x (h.reported x msgId result hput)

/-- A flush that finds a SUBMIT at its first attempt in the queue reports it unsent. -/
theorem Sound.not_answeredSent (hsound : s.Sound config)
    (hnext : Connection.next gbk config s (.reader .matchResps) = some s')
    (hsent : s.flushesSent (.reader .matchResps) = false) : ¬ s'.AnsweredSent := by
  obtain ⟨r, hr, hany⟩ := List.all_eq_false.mp hsent
  cases hfind : s.pendingSubmits.find r.sequenceId with
  | none =>
    rw [hfind] at hany
    exact absurd rfl hany
  | some entry =>
    rw [hfind] at hany
    have hstate : entry.state = .queued 1 := by simpa using hany
    have hkept := kept_of_queued hr hfind hstate
    obtain ⟨r', hr', hid⟩ := hkept
    have hunclaimed := Window.not_claimed_of_queued hsound.lives hfind hstate
    intro hanswered
    simp only [Connection.next, readerNext] at hnext
    split_ifs at hnext
    cases hnext
    exact hunclaimed (hanswered _ (Or.inr (Or.inl ⟨r', hr', hid⟩)))

/-- In every run whose flushes only find SUBMITs that were sent, only SUBMITs that were claimed are
answered; every other flush answers a SUBMIT that was not claimed. -/
theorem answers_follow_claims (clock : ℕ) (udhCounter : UInt32) :
    (∀ events s, ((machine gbk config clock udhCounter).restrict fun s event =>
      s.flushesSent event = true).Run events s → s.AnsweredSent) ∧
    (∀ events s s', (machine gbk config clock udhCounter).Run events s →
      next gbk config s (.reader .matchResps) = some s' →
        s.flushesSent (.reader .matchResps) = false → ¬ s'.AnsweredSent) := by
  constructor
  · intro events s hrun
    have hinv := hrun.invariant (I := fun _ s => s.Sound config ∧ s.window.Answered)
      (fun s hs => ?_) fun _ s event s' h hstep => ?_
    · exact answeredSent_of_answered hinv.2
    · obtain rfl : s = initial config clock udhCounter := hs
      exact ⟨sound_initial config clock udhCounter, nofun, nofun, nofun⟩
    · exact ⟨h.1.next hstep.1, h.1.answered_next h.2 hstep.2 hstep.1⟩
  · intro events s s' hrun hnext hsent
    exact (sound_run hrun).not_answeredSent hnext hsent

/-- An early response, before and after the first attempt is claimed. -/
def respond : List ConnectionEvent :=
  [.reader (.submitResp ⟨2, .replicate 8 0, 0⟩), .reader .matchResps, .reader (.emitResp true)]

/-- A response that comes after the SUBMIT was sent. -/
theorem answers_follow_claims_sent : ∃ events s,
    ((machine asciiGbk smallConfig 0 0).restrict fun s event =>
      s.flushesSent event = true).Run events s ∧ s.log.responded = [2] ∧ s.AnsweredSent := by
  have hexec : (Machine.exec (fun s e => if s.flushesSent e then next asciiGbk smallConfig s e
      else none) (initial smallConfig 0 0) (admitOne ++ writeOne ++ respond)).map
        (fun s => s.log.responded) = some [2] := by decide +kernel
  obtain ⟨s, hrun, hresponded⟩ := Machine.exists_run_restrict_of_exec _ hexec
  exact ⟨_, s, hrun, hresponded, (answers_follow_claims 0 0).1 _ s hrun⟩

/-- A response that comes while the first attempt waits in the queue: it cancels the SUBMIT, which
is reported as answered and never sent. -/
theorem unsent_submit_answered : ∃ events s,
    (machine asciiGbk smallConfig 0 0).Run events s ∧ s.log.responded = [2] ∧
      s.log.puts = [.submitResp 2 (.replicate 8 0) 0] ∧ s.log.handed = [] ∧ ¬ s.AnsweredSent := by
  have hexec : (Machine.exec (next asciiGbk smallConfig) (initial smallConfig 0 0) (admitOne ++
      respond ++ List.replicate 11 (.writer .advance))).map
        (fun s => (s.log.responded, s.log.puts, s.log.handed, s.log.claimed)) =
      some ([2], [.submitResp 2 (.replicate 8 0) 0], [], []) := by decide +kernel
  obtain ⟨s, hrun, hview⟩ := Machine.exists_run_of_exec _ hexec
  simp only [Prod.mk.injEq] at hview
  obtain ⟨hresponded, hputs, hhanded, hclaimed⟩ := hview
  refine ⟨_, s, hrun, hresponded, hputs, hhanded, fun hanswered => ?_⟩
  apply hanswered 2 (Or.inl (hresponded ▸ List.mem_singleton_self 2))
  rw [hclaimed]
  rfl

end Connection

end CmppProtocol
