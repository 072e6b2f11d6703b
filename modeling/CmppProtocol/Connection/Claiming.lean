import CmppProtocol.Connection.Entries
import CmppProtocol.Connection.State

/-! # Claiming a batch

A batch is claimed under one lock. What it leaves is what claiming its SUBMIT
frames one at a time would leave.
-/

namespace CmppProtocol

open Compaction

variable {allowed : Bool} {pending : PendingSubmits}

/-- The pending map after the attempts have been claimed one at a time. -/
def claimInOrder (allowed : Bool) (pending : PendingSubmits) (keys : List SubmitAttemptKey) :
    PendingSubmits :=
  keys.foldl (fun pending key => (claimSubmitAttempt allowed pending key).2) pending

/-- The entry of an attempt is there, in the given state. -/
def InState (pending : PendingSubmits) (key : SubmitAttemptKey) (state : SubmitAttemptState) :
    Prop :=
  ∃ entry, pending.find key.sequenceId = some entry ∧ entry.submissionId = key.submissionId ∧
    entry.state = state

/-- An attempt is claimed exactly when sending is allowed and its entry is queued with this key. -/
theorem claimSubmitAttempt_iff (key : SubmitAttemptKey) :
    (claimSubmitAttempt allowed pending key).1 = true ↔
      allowed = true ∧ InState pending key (.queued key.attempt) := by
  rcases claimSubmitAttempt_cases allowed pending key with
    ⟨entry, hallowed, hfind, hsub, hstate, hclaim⟩ | ⟨hnot, hclaim⟩
  · rw [hclaim]
    exact iff_of_true rfl ⟨hallowed, entry, hfind, hsub, hstate⟩
  · rw [hclaim]
    apply iff_of_false Bool.false_ne_true
    rintro ⟨hallowed, entry, hfind, hsub, hstate⟩
    exact hnot entry hallowed hfind hsub hstate

/-- The entry of a claimed attempt is being written. -/
theorem inState_of_claimed {key : SubmitAttemptKey}
    (h : (claimSubmitAttempt allowed pending key).1 = true) :
    InState (claimSubmitAttempt allowed pending key).2 key (.writing key.attempt) := by
  rcases claimSubmitAttempt_cases allowed pending key with
    ⟨entry, _, hfind, hsub, _, hclaim⟩ | ⟨_, hclaim⟩
  · rw [hclaim]
    refine ⟨{ entry with state := .writing key.attempt }, ?_, hsub, rfl⟩
    rw [find_setState hfind, if_pos rfl]
  · rw [hclaim] at h
    cases h

theorem after_claimFrame (batch : List Outbound) :
    after (claimFrame allowed) pending batch =
      claimInOrder allowed pending (batch.filterMap Outbound.submitAttempt) := by
  induction batch generalizing pending with
  | nil => rfl
  | cons outbound batch ih =>
    cases hkey : outbound.submitAttempt with
    | none =>
      rw [List.filterMap_cons_none hkey, ← ih]
      simp only [after, List.foldl_cons, claimFrame, hkey]
    | some key =>
      rw [List.filterMap_cons_some hkey]
      change after (claimFrame allowed) (claimFrame allowed pending outbound).2 batch = _
      rw [ih, claimFrame, hkey]
      rfl

/-- Entries are moved from `queued` to `writing` by a frame with their key, or stay as they are. -/
def Claimed (pending pending' : PendingSubmits) (keys : List SubmitAttemptKey) : Prop :=
  ∀ x, pending'.find x = pending.find x ∨ ∃ entry attempt,
    pending.find x = some entry ∧ entry.state = .queued attempt ∧
      ⟨x, entry.submissionId, attempt⟩ ∈ keys ∧
      pending'.find x = some { entry with state := .writing attempt }

variable (allowed pending) in
theorem claimed_one (key : SubmitAttemptKey) :
    Claimed pending (claimSubmitAttempt allowed pending key).2 [key] := by
  intro x
  rcases claimSubmitAttempt_cases allowed pending key with
    ⟨entry, _, hfind, hsub, hstate, hclaim⟩ | ⟨_, hclaim⟩
  · rw [hclaim, find_setState hfind]
    split_ifs with hx
    · subst hx
      refine Or.inr ⟨entry, key.attempt, hfind, hstate, ?_, rfl⟩
      rw [hsub]
      exact List.mem_singleton_self key
    · exact Or.inl rfl
  · rw [hclaim]
    exact Or.inl rfl

theorem claimed_inOrder (keys : List SubmitAttemptKey) :
    Claimed pending (claimInOrder allowed pending keys) keys := by
  induction keys generalizing pending with
  | nil => exact fun x => Or.inl rfl
  | cons key keys ih =>
    intro x
    change (claimInOrder allowed (claimSubmitAttempt allowed pending key).2 keys).find x = _ ∨ _
    rcases claimed_one allowed pending key x with
      hsame | ⟨entry, attempt, hfind, hstate, hmem, hnew⟩
    · rcases ih x with hrest | ⟨entry, attempt, hfind, hstate, hmem, hnew⟩
      · exact Or.inl (hrest.trans hsame)
      · exact Or.inr ⟨entry, attempt, hsame ▸ hfind, hstate, List.mem_cons_of_mem _ hmem, hnew⟩
    · -- An entry that is being written is not claimed again.
      rcases ih x with hrest | ⟨entry', attempt', hfind', hstate', _, _⟩
      · refine Or.inr ⟨entry, attempt, hfind, hstate, ?_, hrest.trans hnew⟩
        rw [List.mem_singleton.mp hmem]
        exact List.mem_cons_self
      · rw [hnew] at hfind'
        cases hfind'
        cases hstate'

/-- An entry that is being written stays so. -/
theorem writing_inOrder (allowed : Bool) {key : SubmitAttemptKey} {attempt : ℕ}
    (keys : List SubmitAttemptKey) (h : InState pending key (.writing attempt)) :
    InState (claimInOrder allowed pending keys) key (.writing attempt) := by
  obtain ⟨entry, hfind, hsub, hstate⟩ := h
  have hclaimed : Claimed pending (claimInOrder allowed pending keys) keys := claimed_inOrder keys
  rcases hclaimed key.sequenceId with hsame | ⟨entry', attempt', hfind', hstate', _, _⟩
  · exact ⟨entry, hsame.trans hfind, hsub, hstate⟩
  · rw [hfind] at hfind'
    cases hfind'
    rw [hstate] at hstate'
    cases hstate'

theorem claimInOrder_forbidden (keys : List SubmitAttemptKey) :
    claimInOrder false pending keys = pending := by
  induction keys with
  | nil => rfl
  | cons key keys ih => exact ih

namespace Connection

theorem canSendSubmit_iff (s : Connection) :
    s.canSendSubmit = true ↔
      s.phase = .opened ∨ s.phase = .closing ∧ s.drainSubmitsOnClose = true := by
  simp [canSendSubmit]

/-- The map that the first frames of a batch have left. -/
def claimedBefore (s : Connection) (batch : List Outbound) (i : ℕ) : PendingSubmits :=
  claimInOrder s.canSendSubmit s.pendingSubmits ((batch.take i).filterMap Outbound.submitAttempt)

/-- What happens to one frame of a batch, in the map that the frames before it have left. -/
def claimVerdict (s : Connection) (batch : List Outbound) (i : ℕ) (outbound : Outbound) : Bool :=
  match outbound.submitAttempt with
  | some key => (claimSubmitAttempt s.canSendSubmit (s.claimedBefore batch i) key).1
  | none => true

theorem claimVerdict_submit {s : Connection} {batch : List Outbound} {i : ℕ} {outbound : Outbound}
    {key : SubmitAttemptKey} (hkey : outbound.submitAttempt = some key) :
    s.claimVerdict batch i outbound =
      (claimSubmitAttempt s.canSendSubmit (s.claimedBefore batch i) key).1 := by
  rw [claimVerdict, hkey]

/-- A claimed attempt is being written when the whole batch has been claimed. -/
theorem writing_of_claimVerdict {s : Connection} {batch : List Outbound} {i : ℕ}
    {outbound : Outbound} {key : SubmitAttemptKey} (hmem : batch[i]? = some outbound)
    (hkey : outbound.submitAttempt = some key) (h : s.claimVerdict batch i outbound = true) :
    InState (claimInOrder s.canSendSubmit s.pendingSubmits (batch.filterMap Outbound.submitAttempt))
      key (.writing key.attempt) := by
  obtain ⟨hlt, rfl⟩ := List.getElem?_eq_some_iff.mp hmem
  have hsplit : batch.filterMap Outbound.submitAttempt =
      (batch.take i).filterMap Outbound.submitAttempt ++
        key :: (batch.drop (i + 1)).filterMap Outbound.submitAttempt := by
    rw [← List.filterMap_cons_some hkey, ← List.filterMap_append, List.getElem_cons_drop,
      List.take_append_drop]
  rw [claimVerdict_submit hkey] at h
  have hwriting := writing_inOrder s.canSendSubmit
    ((batch.drop (i + 1)).filterMap Outbound.submitAttempt) (inState_of_claimed h)
  rw [claimInOrder, hsplit, List.foldl_append]
  exact hwriting

/-- A batch is claimed as if its frames were claimed one at a time: the frames that are no SUBMITs
and those that are claimed stay, in their order, and only entries with their keys move. A SUBMIT is
claimed exactly when sending is allowed and its entry is queued with this key, and is then being
written. -/
theorem batch_claim_one_by_one (s : Connection) (batch : List Outbound) :
    (claimSubmitAttempts s.canSendSubmit s.pendingSubmits batch).1 =
      claimInOrder s.canSendSubmit s.pendingSubmits (batch.filterMap Outbound.submitAttempt) ∧
    (claimSubmitAttempts s.canSendSubmit s.pendingSubmits batch).2 =
      (batch.zipIdx.filter fun p => s.claimVerdict batch p.2 p.1).map Prod.fst ∧
    (∀ i outbound key, batch[i]? = some outbound → outbound.submitAttempt = some key →
      (s.claimVerdict batch i outbound = true ↔
        (s.phase = .opened ∨ s.phase = .closing ∧ s.drainSubmitsOnClose = true) ∧
          InState (s.claimedBefore batch i) key (.queued key.attempt)) ∧
      (s.claimVerdict batch i outbound = true →
        InState (claimSubmitAttempts s.canSendSubmit s.pendingSubmits batch).1 key
          (.writing key.attempt))) ∧
    Claimed s.pendingSubmits (claimSubmitAttempts s.canSendSubmit s.pendingSubmits batch).1
      (batch.filterMap Outbound.submitAttempt) ∧
    (¬ (s.phase = .opened ∨ s.phase = .closing ∧ s.drainSubmitsOnClose = true) →
      (claimSubmitAttempts s.canSendSubmit s.pendingSubmits batch).1 = s.pendingSubmits) := by
  have hmap : (claimSubmitAttempts s.canSendSubmit s.pendingSubmits batch).1 =
      claimInOrder s.canSendSubmit s.pendingSubmits (batch.filterMap Outbound.submitAttempt) := by
    rw [claimSubmitAttempts_eq, sweep_eq, after_claimFrame]
  refine ⟨hmap, ?_, fun i outbound key hmem hkey => ⟨?_, fun h => ?_⟩, ?_, fun hforbidden => ?_⟩
  · rw [claimSubmitAttempts_eq, sweep_eq]
    refine congrArg (List.map Prod.fst) (List.filter_congr fun p _ => ?_)
    rw [after_claimFrame, claimVerdict, claimFrame]
    cases p.1.submitAttempt with
    | none => rfl
    | some key => rfl
  · rw [claimVerdict_submit hkey, claimSubmitAttempt_iff, canSendSubmit_iff]
  · rw [hmap]
    exact writing_of_claimVerdict hmem hkey h
  · rw [hmap]
    exact claimed_inOrder _
  · have hbarred : s.canSendSubmit = false := by
      rw [← s.canSendSubmit_iff, Bool.not_eq_true] at hforbidden
      exact hforbidden
    rw [hmap, hbarred, claimInOrder_forbidden]

end Connection

end CmppProtocol
