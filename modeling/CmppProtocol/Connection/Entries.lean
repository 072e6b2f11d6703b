import CmppProtocol.Connection.Attempts

/-! # One entry of the window

Every operation on the pending SUBMITs acts on one id at a time and leaves the
others alone. An entry keeps its submission, its packet and its leases as long
as it is there.
-/

namespace CmppProtocol

/-- The frame carries an attempt for the SUBMIT with this id. -/
def Outbound.carries (sequenceId : ℕ) (outbound : Outbound) : Bool :=
  outbound.submitAttempt.map SubmitAttemptKey.sequenceId = some sequenceId

@[simp] theorem Outbound.carries_submit {sequenceId : ℕ} {packet : List UInt8}
    {key : SubmitAttemptKey} :
    (Outbound.submit packet key).carries sequenceId = decide (key.sequenceId = sequenceId) := by
  simp [Outbound.carries, Outbound.submit]

variable {pending pending' : PendingSubmits} {x : ℕ} {allowed : Bool}

/-! ## Entries that stay -/

/-- Every entry was there before, with the same leases. -/
def Shrinks (pending pending' : PendingSubmits) : Prop :=
  ∀ q ∈ pending', ∃ p ∈ pending, p.1 = q.1 ∧ p.2.sequenceLease = q.2.sequenceLease ∧
    p.2.udhReferenceLease = q.2.udhReferenceLease

/-- No entry has come or gone, and all have the same leases. -/
def Restates (pending pending' : PendingSubmits) : Prop :=
  (∀ p ∈ pending, ∃ q ∈ pending', q.1 = p.1) ∧ Shrinks pending pending'

theorem Shrinks.refl (pending : PendingSubmits) : Shrinks pending pending :=
  fun q hq => ⟨q, hq, rfl, rfl, rfl⟩

theorem Shrinks.trans {pending'' : PendingSubmits} (h : Shrinks pending pending')
    (h' : Shrinks pending' pending'') : Shrinks pending pending'' := by
  intro q hq
  obtain ⟨p, hp, hk, hl, hu⟩ := h' q hq
  obtain ⟨o, ho, hk', hl', hu'⟩ := h p hp
  exact ⟨o, ho, hk'.trans hk, hl'.trans hl, hu'.trans hu⟩

theorem Restates.refl (pending : PendingSubmits) : Restates pending pending :=
  ⟨fun p hp => ⟨p, hp, rfl⟩, .refl pending⟩

theorem Restates.trans {pending'' : PendingSubmits} (h : Restates pending pending')
    (h' : Restates pending' pending'') : Restates pending pending'' := by
  refine ⟨fun p hp => ?_, h.2.trans h'.2⟩
  obtain ⟨q, hq, hk⟩ := h.1 p hp
  obtain ⟨r, hr, hk'⟩ := h'.1 q hq
  exact ⟨r, hr, hk'.trans hk⟩

theorem restates_setState {entry : PendingSubmit} (h : pending.find x = some entry)
    (state : SubmitAttemptState) : Restates pending (setState pending x entry state) := by
  have hmem := OrderedMap.find_eq_some_iff.mp h
  constructor
  · intro p hp
    by_cases hk : p.1 = x
    · exact ⟨_, (OrderedMap.mem_set ⟨_, hmem⟩).mpr (Or.inl rfl), hk.symm⟩
    · exact ⟨p, (OrderedMap.mem_set ⟨_, hmem⟩).mpr (Or.inr ⟨hp, hk⟩), rfl⟩
  · intro q hq
    rcases (OrderedMap.mem_set ⟨_, hmem⟩).mp hq with rfl | ⟨hq, _⟩
    · exact ⟨_, hmem, rfl, rfl, rfl⟩
    · exact ⟨q, hq, rfl, rfl, rfl⟩

theorem shrinks_erase (pending : PendingSubmits) (x : ℕ) : Shrinks pending (pending.erase x) :=
  fun q hq => ⟨q, (OrderedMap.mem_erase.mp hq).1, rfl, rfl, rfl⟩

theorem find_setState {entry : PendingSubmit} {state : SubmitAttemptState} {y : ℕ}
    (h : pending.find x = some entry) :
    (setState pending x entry state).find y =
      if y = x then some { entry with state } else pending.find y :=
  OrderedMap.find_set (by rw [h]; exact Option.some_ne_none _)

/-! ## Claiming -/

def claimEntry (allowed : Bool) (entry : Option PendingSubmit) (outbound : Outbound) :
    Bool × Option PendingSubmit :=
  match outbound.submitAttempt, entry with
  | none, _ => (true, entry)
  | some key, some pending =>
    if allowed ∧ pending.submissionId = key.submissionId ∧ pending.state = .queued key.attempt then
      (true, some { pending with state := .writing key.attempt })
    else (false, entry)
  | some _, none => (false, none)

/-- A frame is claimed when its entry is queued with its key, and only then it moves the entry. -/
theorem claimSubmitAttempt_cases (allowed : Bool) (pending : PendingSubmits)
    (key : SubmitAttemptKey) :
    (∃ entry, allowed = true ∧ pending.find key.sequenceId = some entry ∧
      entry.submissionId = key.submissionId ∧ entry.state = .queued key.attempt ∧
      claimSubmitAttempt allowed pending key =
        (true, setState pending key.sequenceId entry (.writing key.attempt))) ∨
    (∀ entry, allowed = true → pending.find key.sequenceId = some entry →
      entry.submissionId = key.submissionId → entry.state ≠ .queued key.attempt) ∧
      claimSubmitAttempt allowed pending key = (false, pending) := by
  cases allowed with
  | false => exact Or.inr ⟨fun _ ha => absurd ha Bool.false_ne_true, rfl⟩
  | true =>
    cases hfind : pending.find key.sequenceId with
    | none =>
      refine Or.inr ⟨fun _ _ he => absurd he (by simp), ?_⟩
      simp only [claimSubmitAttempt, hfind]
    | some entry =>
      simp only [claimSubmitAttempt, hfind]
      split_ifs with hid
      · exact Or.inr ⟨fun e _ he hs => absurd (Option.some.inj he ▸ hs) hid, rfl⟩
      split
      · next attempt hstate =>
        split_ifs with hattempt
        · exact Or.inl ⟨entry, trivial, rfl, not_not.mp hid, hattempt ▸ hstate, rfl⟩
        · refine Or.inr ⟨fun e _ he _ hs => ?_, rfl⟩
          rw [← Option.some.inj he, hstate] at hs
          exact hattempt (SubmitAttemptState.queued.inj hs)
      · next hstate =>
        exact Or.inr ⟨fun e _ he _ hs => hstate _ (Option.some.inj he ▸ hs), rfl⟩

theorem claimFrame_own (allowed : Bool) (pending : PendingSubmits) (outbound : Outbound)
    (h : outbound.carries x = true) :
    claimEntry allowed (pending.find x) outbound =
      ((claimFrame allowed pending outbound).1,
        (claimFrame allowed pending outbound).2.find x) := by
  rw [Outbound.carries, decide_eq_true_eq] at h
  obtain ⟨key, hkey, rfl⟩ := Option.map_eq_some_iff.mp h
  simp only [claimFrame, claimEntry, hkey]
  rcases claimSubmitAttempt_cases allowed pending key with
    ⟨entry, rfl, hfind, hsub, hstate, hclaim⟩ | ⟨hnot, hclaim⟩
  · rw [hclaim, find_setState hfind, hfind]
    simp [hsub, hstate]
  · rw [hclaim]
    cases hfind : pending.find key.sequenceId with
    | none => rfl
    | some entry =>
      have hcond : ¬ (allowed = true ∧ entry.submissionId = key.submissionId ∧
          entry.state = .queued key.attempt) :=
        fun ⟨ha, hs, hq⟩ => hnot entry ha hfind hs hq
      simp only [if_neg hcond]

theorem claimFrame_other (allowed : Bool) (pending : PendingSubmits) (outbound : Outbound)
    (h : outbound.carries x = false) :
    (claimFrame allowed pending outbound).2.find x = pending.find x := by
  rw [claimFrame]
  split
  · next key hkey =>
    have hne : x ≠ key.sequenceId := by
      rintro rfl
      simp [Outbound.carries, hkey] at h
    rcases claimSubmitAttempt_cases allowed pending key with
      ⟨entry, _, hfind, _, _, hclaim⟩ | ⟨_, hclaim⟩
    · rw [hclaim, find_setState hfind, if_neg hne]
    · rw [hclaim]
  · rfl

theorem claimFrame_restates (allowed : Bool) (pending : PendingSubmits) (outbound : Outbound) :
    Restates pending (claimFrame allowed pending outbound).2 := by
  rw [claimFrame]
  split
  · next key hkey =>
    rcases claimSubmitAttempt_cases allowed pending key with
      ⟨entry, _, hfind, _, _, hclaim⟩ | ⟨_, hclaim⟩
    · rw [hclaim]
      exact restates_setState hfind _
    · rw [hclaim]
      exact .refl pending
  · exact .refl pending

theorem sweep_claimFrame_nil {batch : List Outbound}
    (h : batch.all (fun outbound => outbound.submitAttempt.isNone) = true) :
    Compaction.sweep (claimFrame allowed) pending batch = (pending, batch) := by
  induction batch with
  | nil => rfl
  | cons outbound batch ih =>
    rw [List.all_cons, Bool.and_eq_true] at h
    have hclaim : claimFrame allowed pending outbound = (true, pending) := by
      rw [claimFrame, Option.isNone_iff_eq_none.mp h.1]
    rw [Compaction.sweep_keep hclaim, ih h.2]

theorem claimSubmitAttempts_eq (batch : List Outbound) :
    claimSubmitAttempts allowed pending batch =
      Compaction.sweep (claimFrame allowed) pending batch := by
  rw [claimSubmitAttempts]
  split_ifs with h
  · exact (sweep_claimFrame_nil h).symm
  · exact Compaction.run_eq_sweep

theorem claimSubmitAttempts_restates (batch : List Outbound) :
    Restates pending (claimSubmitAttempts allowed pending batch).1 := by
  rw [claimSubmitAttempts_eq]
  exact Compaction.sweep_relates .refl (fun _ _ _ => .trans) (claimFrame_restates allowed) _ _

variable (allowed pending) in
/-- What a claim does to the entry of one id and to its frames. -/
theorem claimSubmitAttempts_at (x : ℕ) (batch : List Outbound) :
    Compaction.sweep (claimEntry allowed) (pending.find x) (batch.filter (Outbound.carries x)) =
      ((claimSubmitAttempts allowed pending batch).1.find x,
        (claimSubmitAttempts allowed pending batch).2.filter (Outbound.carries x)) := by
  rw [claimSubmitAttempts_eq]
  exact Compaction.sweep_project (claimFrame_own allowed) (claimFrame_other allowed) pending batch

/-! ## Completing -/

def completeEntry (writtenAt : ℕ) (entry : Option PendingSubmit) (key : SubmitAttemptKey) :
    Option PendingSubmit :=
  match entry with
  | none => none
  | some pending =>
    if pending.submissionId ≠ key.submissionId then entry
    else if pending.state = .writing key.attempt then
      some { pending with state := .awaitingResponse key.attempt writtenAt }
    else if pending.state = .respondedWhileWriting key.attempt then none
    else entry

theorem completeSubmitAttempt_own (writtenAt : ℕ) (pending : PendingSubmits)
    (key : SubmitAttemptKey) :
    (completeSubmitAttempt writtenAt pending key).find key.sequenceId =
      completeEntry writtenAt (pending.find key.sequenceId) key := by
  cases hfind : pending.find key.sequenceId with
  | none => simp only [completeSubmitAttempt, completeEntry, hfind]
  | some entry =>
    simp only [completeSubmitAttempt, completeEntry, hfind]
    split_ifs with hid hw hr
    · exact hfind
    · simp only [hw, if_true, find_setState hfind]
    · simp only [hr, if_true, OrderedMap.find_erase]
    · split
      · next attempt hstate =>
        have hne : attempt ≠ key.attempt := fun h => hw (h ▸ hstate)
        rw [if_neg hne, hfind]
      · next attempt hstate =>
        have hne : attempt ≠ key.attempt := fun h => hr (h ▸ hstate)
        rw [if_neg hne, hfind]
      · exact hfind

theorem completeSubmitAttempt_other (writtenAt : ℕ) (pending : PendingSubmits)
    (key : SubmitAttemptKey) (hx : x ≠ key.sequenceId) :
    (completeSubmitAttempt writtenAt pending key).find x = pending.find x := by
  rw [completeSubmitAttempt]
  split
  · next entry hfind =>
    split_ifs
    · rfl
    split
    · split_ifs
      · rw [find_setState hfind, if_neg hx]
      · rfl
    · split_ifs
      · rw [OrderedMap.find_erase, if_neg hx]
      · rfl
    · rfl
  · rfl

theorem completeSubmitAttempt_shrinks (writtenAt : ℕ) (pending : PendingSubmits)
    (key : SubmitAttemptKey) : Shrinks pending (completeSubmitAttempt writtenAt pending key) := by
  rw [completeSubmitAttempt]
  split
  · next entry hfind =>
    split_ifs
    · exact .refl pending
    split
    · split_ifs
      · exact (restates_setState hfind _).2
      · exact .refl pending
    · split_ifs
      · exact shrinks_erase pending _
      · exact .refl pending
    · exact .refl pending
  · exact .refl pending

theorem completeSubmitAttempts_shrinks (writtenAt : ℕ) (pending : PendingSubmits)
    (keys : List SubmitAttemptKey) :
    Shrinks pending (completeSubmitAttempts writtenAt pending keys) := by
  induction keys generalizing pending with
  | nil => exact .refl pending
  | cons key keys ih =>
    exact (completeSubmitAttempt_shrinks writtenAt pending key).trans (ih _)

/-- What a completed batch does to the entry of one id. -/
theorem completeSubmitAttempts_at (x writtenAt : ℕ) (pending : PendingSubmits)
    (batch : List Outbound) :
    (completeSubmitAttempts writtenAt pending (batch.filterMap Outbound.submitAttempt)).find x =
      ((batch.filter (Outbound.carries x)).filterMap Outbound.submitAttempt).foldl
        (completeEntry writtenAt) (pending.find x) := by
  induction batch generalizing pending with
  | nil => rfl
  | cons outbound batch ih =>
    cases hkey : outbound.submitAttempt with
    | none =>
      have hcarries : outbound.carries x = false := by simp [Outbound.carries, hkey]
      rw [List.filterMap_cons_none hkey, List.filter_cons_of_neg (by simp [hcarries])]
      exact ih pending
    | some key =>
      rw [List.filterMap_cons_some hkey]
      change (completeSubmitAttempts writtenAt (completeSubmitAttempt writtenAt pending key)
        (batch.filterMap Outbound.submitAttempt)).find x = _
      rw [ih]
      by_cases hx : x = key.sequenceId
      · have hcarries : outbound.carries x = true := by simp [Outbound.carries, hkey, hx]
        rw [List.filter_cons_of_pos hcarries, List.filterMap_cons_some hkey, List.foldl_cons, hx,
          completeSubmitAttempt_own]
      · have hcarries : outbound.carries x = false := by
          simp [Outbound.carries, hkey, Ne.symm hx]
        rw [List.filter_cons_of_neg (by simp [hcarries]), completeSubmitAttempt_other _ _ _ hx]

/-! ## Matching responses -/

def matchEntry (entry : Option PendingSubmit) (_response : SubmitResponse) :
    Bool × Option PendingSubmit :=
  match entry with
  | none => (false, none)
  | some pending =>
    match pending.state with
    | .writing attempt => (true, some { pending with state := .respondedWhileWriting attempt })
    | .respondedWhileWriting _ => (false, entry)
    | .queued _ => (true, none)
    | .awaitingResponse _ _ => (true, none)

theorem matchSubmitResp_own (pending : PendingSubmits) (response : SubmitResponse)
    (h : decide (response.sequenceId = x) = true) :
    matchEntry (pending.find x) response =
      ((matchSubmitResp pending response).1, (matchSubmitResp pending response).2.find x) := by
  rw [decide_eq_true_eq] at h
  subst h
  cases hfind : pending.find response.sequenceId with
  | none => simp only [matchEntry, matchSubmitResp, hfind]
  | some entry =>
    cases hstate : entry.state with
    | queued attempt =>
      simp only [matchEntry, matchSubmitResp, hfind, hstate, OrderedMap.find_erase, if_true]
    | writing attempt =>
      simp only [matchEntry, matchSubmitResp, hfind, hstate, find_setState hfind, if_true]
    | awaitingResponse attempt writtenAt =>
      simp only [matchEntry, matchSubmitResp, hfind, hstate, OrderedMap.find_erase, if_true]
    | respondedWhileWriting attempt =>
      simp only [matchEntry, matchSubmitResp, hfind, hstate]

theorem matchSubmitResp_other (pending : PendingSubmits) (response : SubmitResponse)
    (h : decide (response.sequenceId = x) = false) :
    (matchSubmitResp pending response).2.find x = pending.find x := by
  have hne : x ≠ response.sequenceId := fun hx => by simp [hx] at h
  rw [matchSubmitResp]
  split
  · next entry hfind =>
    split
    · rw [find_setState hfind, if_neg hne]
    · rfl
    · rw [OrderedMap.find_erase, if_neg hne]
    · rw [OrderedMap.find_erase, if_neg hne]
  · rfl

theorem matchSubmitResp_shrinks (pending : PendingSubmits) (response : SubmitResponse) :
    Shrinks pending (matchSubmitResp pending response).2 := by
  rw [matchSubmitResp]
  split
  · next entry hfind =>
    split
    · exact (restates_setState hfind _).2
    · exact .refl pending
    · exact shrinks_erase pending _
    · exact shrinks_erase pending _
  · exact .refl pending

theorem matchSubmitResps_eq (responses : List SubmitResponse) :
    matchSubmitResps pending responses = Compaction.sweep matchSubmitResp pending responses :=
  Compaction.run_eq_sweep

theorem matchSubmitResps_shrinks (responses : List SubmitResponse) :
    Shrinks pending (matchSubmitResps pending responses).1 := by
  rw [matchSubmitResps_eq]
  exact Compaction.sweep_relates .refl (fun _ _ _ => .trans) matchSubmitResp_shrinks _ _

variable (pending) in
/-- What matching does to the entry of one id, and which of its responses are reported. -/
theorem matchSubmitResps_at (x : ℕ) (responses : List SubmitResponse) :
    Compaction.sweep matchEntry (pending.find x)
        (responses.filter fun response => response.sequenceId = x) =
      ((matchSubmitResps pending responses).1.find x,
        (matchSubmitResps pending responses).2.filter fun response => response.sequenceId = x) := by
  rw [matchSubmitResps_eq]
  exact Compaction.sweep_project matchSubmitResp_own matchSubmitResp_other pending responses

/-! ## Expiry -/

theorem stillAwaiting_some {pending : PendingSubmits} {key : SubmitAttemptKey}
    {entry : PendingSubmit} (h : stillAwaiting pending key = some entry) :
    pending.find key.sequenceId = some entry ∧ entry.submissionId = key.submissionId ∧
      ∃ writtenAt, entry.state = .awaitingResponse key.attempt writtenAt := by
  rw [stillAwaiting] at h
  split at h
  · next found hfind =>
    split at h
    · next attempt writtenAt hstate =>
      split_ifs at h with hkey
      cases h
      exact ⟨hfind, hkey.1, writtenAt, hkey.2 ▸ hstate⟩
    · cases h
  · cases h

theorem mem_expiredSubmits {pending : PendingSubmits} {now timeout limit : ℕ}
    {key : SubmitAttemptKey} (h : key ∈ expiredSubmits pending now timeout limit) :
    ∃ e t, pending.find key.sequenceId = some e ∧ e.submissionId = key.submissionId ∧
      e.state = .awaitingResponse key.attempt t ∧ timeout ≤ now - t := by
  rw [expiredSubmits] at h
  obtain ⟨⟨t, key'⟩, hmem, rfl⟩ := List.mem_map.mp h
  have hmem' := (List.mergeSort_perm _ _).mem_iff.mp (List.mem_of_mem_take hmem)
  obtain ⟨⟨y, e⟩, he, hdue⟩ := List.mem_filterMap.mp hmem'
  simp only at hdue
  split at hdue
  · next attempt writtenAt hstate =>
    split_ifs at hdue with htime
    cases hdue
    exact ⟨e, t, OrderedMap.find_eq_some_iff.mpr he, rfl, hstate, htime⟩
  · cases hdue

end CmppProtocol
