import CmppProtocol.Connection.Window

/-! # The life of one SUBMIT

What the connection knows about one sequence id: its entry, its frames in the
line and in the batch, and its part of the log. An accepted SUBMIT has one
admission; its frames are the attempts from the first on, each queued, claimed,
handed over and written in this order.
-/

namespace CmppProtocol

open Compaction

def Event.about : Event → Option ℕ
  | .submitResp sequenceId _ _ => some sequenceId
  | .submitTimeout sequenceId _ => some sequenceId
  | .submitDropped sequenceId => some sequenceId
  | _ => none

namespace Admission

def key (a : Admission) (attempt : ℕ) : SubmitAttemptKey := ⟨a.sequenceId, a.submissionId, attempt⟩

def frame (a : Admission) (attempt : ℕ) : Outbound := .submit a.packet (a.key attempt)

/-- The frames of the first attempts. -/
def frames (a : Admission) (attempts : ℕ) : List Outbound :=
  (List.range' 1 attempts).map a.frame

@[simp] theorem frames_zero (a : Admission) : a.frames 0 = [] := rfl

theorem frames_succ (a : Admission) (n : ℕ) :
    a.frames (n + 1) = a.frames n ++ [a.frame (n + 1)] := by
  rw [frames, List.range'_concat, List.map_append, Nat.one_mul, Nat.add_comm 1 n]
  rfl

@[simp] theorem frame_submitAttempt (a : Admission) (n : ℕ) :
    (a.frame n).submitAttempt = some (a.key n) := rfl

theorem keys_succ (a : Admission) (n : ℕ) :
    (List.range' 1 (n + 1)).map a.key = (List.range' 1 n).map a.key ++ [a.key (n + 1)] := by
  rw [List.range'_concat, List.map_append, Nat.one_mul, Nat.add_comm 1 n]
  rfl

end Admission

structure Life where
  entry : Option PendingSubmit
  line : List Outbound
  held : List Outbound
  sendable : Bool
  status : BatchStatus
  clock : ℕ
  now : ℕ
  expired : List SubmitAttemptKey
  admissions : List Admission
  enqueued : List (SubmitAttemptKey × ℕ)
  claimed : List Outbound
  handed : List Outbound
  written : List (Outbound × ℕ)
  puts : List Event
  emitting : ℕ
  responded : ℕ
  timedOut : ℕ
  drained : ℕ
  lost : ℕ
  owed : ℕ
  swept : Bool

namespace Life

/-- The terminal event of the SUBMIT is still to come from its entry. -/
def live (entry : Option PendingSubmit) : ℕ :=
  match entry with
  | none => 0
  | some e =>
    match e.state with
    | .respondedWhileWriting _ => 0
    | _ => 1

/-- Nothing was ever admitted under the id. -/
structure Unused (l : Life) : Prop where
  entry : l.entry = none
  line : l.line = []
  held : l.held = []
  expired : l.expired = []
  admissions : l.admissions = []
  enqueued : l.enqueued = []
  claimed : l.claimed = []
  handed : l.handed = []
  written : l.written = []
  puts : l.puts = []
  counts : l.emitting = 0 ∧ l.responded = 0 ∧ l.timedOut = 0 ∧ l.drained = 0 ∧
    l.lost = 0 ∧ l.owed = 0
  now_le : l.now ≤ l.clock

/-- How many attempts were queued, claimed, handed to the socket and completely written. -/
structure Attempts where
  queued : ℕ
  claimed : ℕ
  handed : ℕ
  written : ℕ

/-- How far the frame in the batch has come. -/
def Batched (l : Life) (a : Admission) (n : Attempts) : Prop :=
  match l.status with
  | .claimed => n.handed + 1 = n.queued ∧ n.written + 1 = n.queued
  | .handed => n.handed = n.queued ∧ n.written + 1 = n.queued
  | .written writtenAt =>
    n.written = n.queued ∧ l.written.getLast? = some (a.frame n.queued, writtenAt)
  | _ => False

/-- What the entry says about its frames. -/
def Agrees (l : Life) (a : Admission) (n : Attempts) (e : PendingSubmit) : Prop :=
  match e.state with
  | .queued k =>
    k = n.queued ∧ n.claimed + 1 = n.queued ∧ (l.sendable = true → l.line = [a.frame n.queued])
  | .writing k => k = n.queued ∧ l.held = [a.frame n.queued]
  | .respondedWhileWriting k => k = n.queued ∧ l.held = [a.frame n.queued]
  | .awaitingResponse k writtenAt =>
    k = n.queued ∧ n.written = n.queued ∧ l.held = [] ∧
      l.written.getLast? = some (a.frame n.queued, writtenAt)

/-- The SUBMIT was admitted. -/
structure Admitted (config : ConnectionConfig) (l : Life) (a : Admission)
    (n : Attempts) : Prop where
  admissions : l.admissions = [a]
  enqueued : l.enqueued.map Prod.fst = (List.range' 1 n.queued).map a.key
  claimed : l.claimed = a.frames n.claimed
  handed : l.handed = a.frames n.handed
  written : l.written.map Prod.fst = a.frames n.written
  counts : 1 ≤ n.queued ∧ n.queued ≤ config.retryCount ∧ n.written ≤ n.handed ∧
    n.handed ≤ n.claimed ∧ n.claimed ≤ n.queued ∧ n.queued ≤ n.written + 1
  line : l.line = [] ∨ l.line = [a.frame n.queued] ∧ n.claimed + 1 = n.queued
  held : l.held = [] ∨ l.held = [a.frame n.queued] ∧ n.claimed = n.queued ∧ l.Batched a n
  entry : ∀ e, l.entry = some e →
    e.submissionId = a.submissionId ∧ e.packet = a.packet ∧ l.Agrees a n e
  torn : l.held ≠ [] → l.entry = none → l.swept = true
  outcome : live l.entry + l.emitting + l.responded + l.timedOut + l.drained = 1
  reported : l.puts.length + l.lost + l.owed = l.responded + l.timedOut + l.drained
  gaveUp : ∀ x k, .submitTimeout x k ∈ l.puts →
    k = config.retryCount ∧ n.written = config.retryCount
  paced : ∀ (k : ℕ) (p : SubmitAttemptKey × ℕ) (q : Outbound × ℕ),
    l.enqueued[k + 1]? = some p → l.written[k]? = some q → q.2 + config.responseTimeout ≤ p.2
  clocked : ∀ q ∈ l.written, q.2 ≤ l.clock
  expired : ∀ key ∈ l.expired, key.submissionId = a.submissionId ∧ ∃ k q,
    key.attempt = k + 1 ∧ l.written[k]? = some q ∧ q.2 + config.responseTimeout ≤ l.now
  now_le : l.now ≤ l.clock

/-- The invariant of one id. -/
def Inv (config : ConnectionConfig) (x : ℕ) (l : Life) : Prop :=
  l.Unused ∨ ∃ a n, a.sequenceId = x ∧ l.Admitted config a n

variable {config : ConnectionConfig} {x : ℕ} {l : Life} {a : Admission} {n : Attempts}

/-- An index into a list with one more item. -/
theorem getElem?_concat {α : Type*} {xs : List α} {y z : α} {k : ℕ}
    (h : (xs ++ [y])[k]? = some z) : xs[k]? = some z ∨ k = xs.length ∧ z = y := by
  rcases Nat.lt_trichotomy k xs.length with hlt | rfl | hgt
  · rw [List.getElem?_append_left hlt] at h
    exact Or.inl h
  · rw [List.getElem?_concat_length] at h
    exact Or.inr ⟨rfl, (Option.some.inj h).symm⟩
  · rw [List.getElem?_append_right hgt.le, List.getElem?_eq_none (by simp; omega)] at h
    cases h

theorem Admitted.enqueued_length (h : l.Admitted config a n) : l.enqueued.length = n.queued := by
  simpa using congrArg List.length h.enqueued

theorem Admitted.written_length (h : l.Admitted config a n) : l.written.length = n.written := by
  simpa [Admission.frames] using congrArg List.length h.written

/-- Time passes and permission to send is lost. -/
theorem Inv.pass (h : Inv config x l) {clock now : ℕ} {sendable : Bool}
    {expired : List SubmitAttemptKey} (hclock : l.clock ≤ clock)
    (hsend : sendable = true → l.sendable = true) (hnow : now ≤ clock)
    (hexpired : expired = [] ∨ now = l.now ∧ expired ⊆ l.expired) :
    Inv config x { l with clock, now, sendable, expired } := by
  rcases h with h | ⟨a, n, hx, h⟩
  · refine Or.inl { h with expired := ?_, now_le := hnow }
    rcases hexpired with he | ⟨_, hsub⟩
    · exact he
    · rw [h.expired] at hsub
      exact List.subset_nil.mp hsub
  · refine Or.inr ⟨a, n, hx, { h with
      entry := fun e he => ?_, clocked := ?_, expired := ?_, now_le := hnow }⟩
    · obtain ⟨hsub, hpacket, hagrees⟩ := h.entry e he
      refine ⟨hsub, hpacket, ?_⟩
      unfold Agrees at hagrees ⊢
      split at hagrees
      · exact ⟨hagrees.1, hagrees.2.1, fun hs => hagrees.2.2 (hsend hs)⟩
      · exact hagrees
      · exact hagrees
      · exact hagrees
    · exact fun q hq => (h.clocked q hq).trans hclock
    · intro key hkey
      rcases hexpired with he | ⟨hn, hsub⟩
      · exact absurd hkey (by simp [he])
      · rw [hn]
        exact h.expired key (hsub hkey)

theorem Inv.now_le (h : Inv config x l) : l.now ≤ l.clock := by
  rcases h with h | ⟨a, n, _, h⟩
  · exact h.now_le
  · exact h.now_le

theorem Inv.silence (h : Inv config x l) {sendable : Bool}
    (hsend : sendable = true → l.sendable = true) : Inv config x { l with sendable } :=
  h.pass le_rfl hsend h.now_le (Or.inr ⟨rfl, List.Subset.refl _⟩)

/-- The batch moves on without a frame of this SUBMIT. -/
theorem Inv.pause (h : Inv config x l) (hheld : l.held = []) (status : BatchStatus) :
    Inv config x { l with status } := by
  rcases h with h | ⟨a, n, hx, h⟩
  · exact Or.inl { h with }
  · exact Or.inr ⟨a, n, hx, { h with held := Or.inl hheld }⟩

theorem Inv.admitted (h : Inv config a.sequenceId l) (hfresh : l.admissions = [])
    (hretry : 1 ≤ config.retryCount) {e : PendingSubmit} (hsub : e.submissionId = a.submissionId)
    (hpacket : e.packet = a.packet) (hstate : e.state = .queued 1) :
    Inv config a.sequenceId { l with
      entry := some e
      line := l.line ++ [a.frame 1]
      admissions := l.admissions ++ [a]
      enqueued := l.enqueued ++ [(a.key 1, l.clock)] } := by
  rcases h with h | ⟨b, n, _, h⟩
  swap
  · rw [h.admissions] at hfresh
    cases hfresh
  rw [h.line, h.admissions, h.enqueued]
  obtain ⟨hemitting, hresponded, htimedOut, hdrained, hlost, howed⟩ := h.counts
  refine Or.inr ⟨a, ⟨1, 0, 0, 0⟩, rfl, ?_⟩
  constructor
  case admissions => rfl
  case enqueued => rfl
  case claimed => exact h.claimed
  case handed => exact h.handed
  case written => rw [h.written]; rfl
  case counts => exact ⟨le_rfl, hretry, le_rfl, le_rfl, Nat.zero_le 1, le_rfl⟩
  case line => exact Or.inr ⟨rfl, rfl⟩
  case held => exact Or.inl h.held
  case entry =>
    intro e' he
    obtain rfl := Option.some.inj he
    refine ⟨hsub, hpacket, ?_⟩
    simp only [Agrees, hstate]
    exact ⟨trivial, trivial, fun _ => rfl⟩
  case torn => exact fun hheld _ => absurd h.held hheld
  case outcome => simp only [live, hstate, hemitting, hresponded, htimedOut, hdrained]
  case reported =>
    simp only [h.puts, hlost, howed, hresponded, htimedOut, hdrained, List.length_nil]
  case gaveUp =>
    intro x k hmem
    rw [h.puts] at hmem
    cases hmem
  case paced =>
    intro k p q _ hq
    rw [h.written] at hq
    cases hq
  case clocked =>
    intro q hq
    rw [h.written] at hq
    cases hq
  case expired =>
    intro key hkey
    rw [h.expired] at hkey
    cases hkey
  case now_le => exact h.now_le

/-- Frames leave the line unclaimed. -/
theorem Admitted.skip (h : l.Admitted config a n) (hheld : l.held = []) {rest : List Outbound}
    (hrest : rest = l.line ∨ rest = [] ∧
      ∀ e, l.entry = some e → l.sendable = true → e.state ≠ .queued n.queued) :
    Admitted config { l with
      line := rest
      held := []
      status := .claimed
      claimed := l.claimed ++ [] } a n := by
  refine { h with
    claimed := (List.append_nil _).trans h.claimed
    line := ?_
    held := Or.inl rfl
    entry := fun e he => ?_
    torn := fun hne => absurd rfl hne }
  · rcases hrest with rfl | ⟨rfl, _⟩
    · exact h.line
    · exact Or.inl rfl
  · obtain ⟨hsub, hpacket, hagrees⟩ := h.entry e he
    refine ⟨hsub, hpacket, ?_⟩
    unfold Agrees at hagrees ⊢
    rw [hheld] at hagrees
    split at hagrees
    · next k hstate =>
      refine ⟨hagrees.1, hagrees.2.1, fun hsend => ?_⟩
      rcases hrest with rfl | ⟨_, hnot⟩
      · exact hagrees.2.2 hsend
      · exact absurd (hagrees.1 ▸ hstate) (hnot e he hsend)
    · exact hagrees
    · exact hagrees
    · exact hagrees

theorem Inv.claim (h : Inv config x l) {batch rest held : List Outbound}
    {entry : Option PendingSubmit} (hline : l.line = batch ++ rest) (hheld : l.held = [])
    (hclaim : sweep (claimEntry l.sendable) l.entry batch = (entry, held)) :
    Inv config x { l with
      entry
      line := rest
      held
      status := .claimed
      claimed := l.claimed ++ held } := by
  rcases h with h | ⟨a, n, hx, h⟩
  · obtain ⟨rfl, rfl⟩ := List.append_eq_nil_iff.mp (hline.symm.trans h.line)
    obtain ⟨rfl, rfl⟩ := Prod.mk.inj hclaim
    exact Or.inl { h with line := rfl, held := rfl, claimed := by rw [h.claimed]; rfl }
  rcases h.line with hnil | ⟨hone, hclaimed⟩
  · obtain ⟨rfl, rfl⟩ := List.append_eq_nil_iff.mp (hline.symm.trans hnil)
    obtain ⟨rfl, rfl⟩ := Prod.mk.inj hclaim
    exact Or.inr ⟨a, n, hx, h.skip hheld (Or.inl hnil.symm)⟩
  rcases List.append_eq_singleton_iff.mp (hline.symm.trans hone) with ⟨rfl, rfl⟩ | ⟨rfl, rfl⟩
  · obtain ⟨rfl, rfl⟩ := Prod.mk.inj hclaim
    exact Or.inr ⟨a, n, hx, h.skip hheld (Or.inl hone.symm)⟩
  by_cases hqueued : ∃ e, l.sendable = true ∧ l.entry = some e ∧ e.state = .queued n.queued
  · obtain ⟨e, hsend, he, hstate⟩ := hqueued
    obtain ⟨hsub, hpacket, _⟩ := h.entry e he
    obtain ⟨hpos, hretry, hwh, hhc, hcq, hqw⟩ := h.counts
    have hown : claimEntry l.sendable l.entry (a.frame n.queued) =
        (true, some { e with state := .writing n.queued }) := by
      simp only [claimEntry, Admission.frame_submitAttempt, he, hsend, hsub, hstate, Admission.key,
        and_self, if_true]
    rw [sweep_keep hown] at hclaim
    obtain ⟨rfl, rfl⟩ := Prod.mk.inj hclaim
    refine Or.inr ⟨a, { n with claimed := n.queued }, hx, { h with
      claimed := ?_
      counts := ⟨hpos, hretry, hwh, hhc.trans hcq, le_rfl, hqw⟩
      line := Or.inl rfl
      held := Or.inr ⟨rfl, rfl, ?_⟩
      entry := fun e' he' => ?_
      torn := fun _ hnone => absurd hnone (Option.some_ne_none _)
      outcome := ?_ }⟩
    · rw [h.claimed, ← hclaimed, Admission.frames_succ]
      rfl
    · show n.handed + 1 = n.queued ∧ n.written + 1 = n.queued
      omega
    · obtain rfl := Option.some.inj he'
      exact ⟨hsub, hpacket, rfl, rfl⟩
    · have hout := h.outcome
      simp only [he, live, hstate] at hout
      exact hout
  · have hown : claimEntry l.sendable l.entry (a.frame n.queued) = (false, l.entry) := by
      cases he : l.entry with
      | none => rfl
      | some e =>
        simp only [claimEntry, Admission.frame_submitAttempt]
        rw [if_neg]
        rintro ⟨hsend, _, hstate⟩
        exact hqueued ⟨e, hsend, he, hstate⟩
    rw [sweep_skip hown] at hclaim
    obtain ⟨rfl, rfl⟩ := Prod.mk.inj hclaim
    refine Or.inr ⟨a, n, hx, h.skip hheld (Or.inr ⟨rfl, fun e he hsend hstate => ?_⟩)⟩
    exact hqueued ⟨e, hsend, he, hstate⟩

theorem Inv.hand (h : Inv config x l) (hstatus : l.status = .claimed) :
    Inv config x { l with status := .handed, handed := l.handed ++ l.held } := by
  rcases h with h | ⟨a, n, hx, h⟩
  · exact Or.inl { h with handed := by rw [h.handed, h.held]; rfl }
  rcases h.held with hnil | ⟨hone, hclaimed, hbatched⟩
  · exact Or.inr ⟨a, n, hx, { h with
      handed := by rw [hnil, List.append_nil]; exact h.handed
      held := Or.inl hnil }⟩
  · simp only [Batched, hstatus] at hbatched
    obtain ⟨hhanded, hwritten⟩ := hbatched
    obtain ⟨hpos, hretry, hwh, hhc, hcq, hqw⟩ := h.counts
    refine Or.inr ⟨a, { n with handed := n.queued }, hx, { h with
      handed := ?_
      counts := ⟨hpos, hretry, hwh.trans (hhc.trans hcq), hclaimed.ge, hcq, hqw⟩
      held := Or.inr ⟨hone, hclaimed, rfl, hwritten⟩ }⟩
    rw [h.handed, hone, ← hhanded, Admission.frames_succ]

theorem Inv.write (h : Inv config x l) (hstatus : l.status = .handed) :
    Inv config x { l with
      status := .written l.clock
      written := l.written ++ l.held.map fun outbound => (outbound, l.clock) } := by
  rcases h with h | ⟨a, n, hx, h⟩
  · exact Or.inl { h with written := by rw [h.written, h.held]; rfl }
  rcases h.held with hnil | ⟨hone, hclaimed, hbatched⟩
  · have hsame : l.written ++ l.held.map (fun outbound => (outbound, l.clock)) = l.written := by
      rw [hnil, List.map_nil, List.append_nil]
    rw [hsame]
    exact Or.inr ⟨a, n, hx, { h with held := Or.inl hnil }⟩
  · simp only [Batched, hstatus] at hbatched
    obtain ⟨hhanded, hwritten⟩ := hbatched
    obtain ⟨hpos, hretry, hwh, hhc, hcq, hqw⟩ := h.counts
    have hwrite : l.written ++ l.held.map (fun outbound => (outbound, l.clock)) =
        l.written ++ [(a.frame n.queued, l.clock)] := by
      rw [hone]
      rfl
    rw [hwrite]
    refine Or.inr ⟨a, { n with written := n.queued }, hx, { h with
      written := ?_
      counts := ⟨hpos, hretry, hhanded.ge, hhc, hcq, Nat.le_succ _⟩
      held := Or.inr ⟨hone, hclaimed, rfl, List.getLast?_concat⟩
      entry := fun e he => ?_
      gaveUp := fun y k hmem => ?_
      paced := fun k p q hp hq => ?_
      clocked := fun q hq => ?_
      expired := fun key hkey => ?_ }⟩
    · rw [List.map_append, h.written, ← hwritten, Admission.frames_succ]
      rfl
    · obtain ⟨hsub, hpacket, hagrees⟩ := h.entry e he
      refine ⟨hsub, hpacket, ?_⟩
      unfold Agrees at hagrees ⊢
      split at hagrees
      · exact hagrees
      · exact hagrees
      · exact hagrees
      · exact absurd hagrees.2.2.1 (by simp [hone])
    · obtain ⟨hk, hall⟩ := h.gaveUp y k hmem
      omega
    · rcases getElem?_concat hq with hq | ⟨hk, _⟩
      · exact h.paced k p q hp hq
      · have hlt := (List.getElem?_eq_some_iff.mp hp).1
        rw [h.enqueued_length, hk, h.written_length] at hlt
        omega
    · rcases List.mem_append.mp hq with hq | hq
      · exact h.clocked q hq
      · obtain rfl := List.mem_singleton.mp hq
        exact le_rfl
    · obtain ⟨hsub, k, q, hk, hq, hdue⟩ := h.expired key hkey
      refine ⟨hsub, k, q, hk, ?_, hdue⟩
      rw [List.getElem?_append_left (List.getElem?_eq_some_iff.mp hq).1]
      exact hq

theorem Inv.complete (h : Inv config x l) {writtenAt : ℕ}
    (hstatus : l.status = .written writtenAt) :
    Inv config x { l with
      entry := (l.held.filterMap Outbound.submitAttempt).foldl (completeEntry writtenAt) l.entry
      held := []
      status := .completed writtenAt } := by
  rcases h with h | ⟨a, n, hx, h⟩
  · exact Or.inl { h with entry := by rw [h.held, h.entry]; rfl, held := rfl }
  rcases h.held with hnil | ⟨hone, hclaimed, hbatched⟩
  · rw [hnil, List.filterMap_nil, List.foldl_nil]
    refine Or.inr ⟨a, n, hx, { h with
      held := Or.inl rfl
      entry := fun e he => ?_
      torn := fun hne => absurd rfl hne }⟩
    obtain ⟨hsub, hpacket, hagrees⟩ := h.entry e he
    refine ⟨hsub, hpacket, ?_⟩
    unfold Agrees at hagrees ⊢
    rw [hnil] at hagrees
    exact hagrees
  simp only [Batched, hstatus] at hbatched
  obtain ⟨hwritten, hlast⟩ := hbatched
  have hcomplete :
      (l.held.filterMap Outbound.submitAttempt).foldl (completeEntry writtenAt) l.entry =
      completeEntry writtenAt l.entry (a.key n.queued) := by
    rw [hone]
    rfl
  rw [hcomplete]
  cases he : l.entry with
  | none =>
    have hnone := he
    refine Or.inr ⟨a, n, hx, { h with
      held := Or.inl rfl
      entry := fun e he' => by cases he'
      torn := fun hne => absurd rfl hne
      outcome := ?_ }⟩
    have hout := h.outcome
    rw [he] at hout
    exact hout
  | some e =>
    obtain ⟨hsub, hpacket, hagrees⟩ := h.entry e he
    have hout := h.outcome
    rw [he] at hout
    cases hstate : e.state with
    | queued k =>
      simp only [Agrees, hstate] at hagrees
      omega
    | awaitingResponse k t =>
      simp only [Agrees, hstate] at hagrees
      exact absurd hagrees.2.2.1 (by simp [hone])
    | writing k =>
      simp only [Agrees, hstate] at hagrees
      obtain ⟨rfl, _⟩ := hagrees
      have hdone : completeEntry writtenAt (some e) (a.key n.queued) =
          some { e with state := .awaitingResponse n.queued writtenAt } := by
        simp [completeEntry, hsub, hstate, Admission.key]
      rw [hdone]
      refine Or.inr ⟨a, n, hx, { h with
        held := Or.inl rfl
        entry := fun e' he' => ?_
        torn := fun hne => absurd rfl hne
        outcome := ?_ }⟩
      · obtain rfl := Option.some.inj he'
        exact ⟨hsub, hpacket, rfl, hwritten, rfl, hlast⟩
      · simp only [live, hstate] at hout
        exact hout
    | respondedWhileWriting k =>
      simp only [Agrees, hstate] at hagrees
      obtain ⟨rfl, _⟩ := hagrees
      have hdone : completeEntry writtenAt (some e) (a.key n.queued) = none := by
        simp [completeEntry, hsub, hstate, Admission.key]
      rw [hdone]
      refine Or.inr ⟨a, n, hx, { h with
        held := Or.inl rfl
        entry := fun e' he' => by cases he'
        torn := fun hne => absurd rfl hne
        outcome := ?_ }⟩
      simp only [live, hstate] at hout
      exact hout

/-- What matching does to an entry. -/
theorem sweep_matchEntry (entry : Option PendingSubmit) (responses : List SubmitResponse) :
    live (sweep matchEntry entry responses).1 + (sweep matchEntry entry responses).2.length =
      live entry ∧
    ((sweep matchEntry entry responses).1 = entry ∨
      ((sweep matchEntry entry responses).1 = none ∧ ∃ e, entry = some e ∧
        ((∃ k, e.state = .queued k) ∨ ∃ k t, e.state = .awaitingResponse k t)) ∨
      ∃ e k, entry = some e ∧ e.state = .writing k ∧
        (sweep matchEntry entry responses).1 =
          some { e with state := .respondedWhileWriting k }) := by
  have hstuck : ∀ entry : Option PendingSubmit, (∀ r, matchEntry entry r = (false, entry)) →
      ∀ responses, sweep matchEntry entry responses = (entry, []) := by
    intro entry hskip responses
    induction responses with
    | nil => rfl
    | cons r rs ih => rw [sweep_skip (hskip r), ih]
  have hnone := hstuck none fun _ => rfl
  cases responses with
  | nil => exact ⟨rfl, Or.inl rfl⟩
  | cons r rs =>
    cases entry with
    | none => exact ⟨by rw [hnone]; rfl, Or.inl (by rw [hnone])⟩
    | some e =>
      cases hstate : e.state with
      | queued k =>
        have hown : matchEntry (some e) r = (true, none) := by simp only [matchEntry, hstate]
        rw [sweep_keep hown, hnone]
        exact ⟨by simp [live, hstate], Or.inr (Or.inl ⟨rfl, e, rfl, Or.inl ⟨k, hstate⟩⟩)⟩
      | awaitingResponse k t =>
        have hown : matchEntry (some e) r = (true, none) := by simp only [matchEntry, hstate]
        rw [sweep_keep hown, hnone]
        exact ⟨by simp [live, hstate], Or.inr (Or.inl ⟨rfl, e, rfl, Or.inr ⟨k, t, hstate⟩⟩)⟩
      | writing k =>
        have hown : matchEntry (some e) r =
            (true, some { e with state := .respondedWhileWriting k }) := by
          simp only [matchEntry, hstate]
        rw [sweep_keep hown, hstuck _ fun _ => rfl]
        exact ⟨by simp [live, hstate], Or.inr (Or.inr ⟨e, k, rfl, hstate, rfl⟩)⟩
      | respondedWhileWriting k =>
        have hskip := hstuck (some e) fun r => by simp only [matchEntry, hstate]
        rw [hskip]
        exact ⟨rfl, Or.inl rfl⟩

theorem Inv.matchResps (h : Inv config x l) (responses : List SubmitResponse)
    (hemitting : l.emitting = 0) :
    Inv config x { l with
      entry := (sweep matchEntry l.entry responses).1
      emitting := (sweep matchEntry l.entry responses).2.length } := by
  obtain ⟨hlive, hcases⟩ := sweep_matchEntry l.entry responses
  rcases h with h | ⟨a, n, hx, h⟩
  · have hzero : live l.entry = 0 := by rw [h.entry]; rfl
    refine Or.inl { h with entry := ?_, counts := ?_ }
    · rcases hcases with hsame | ⟨hnone, _⟩ | ⟨e, _, he, _⟩
      · exact hsame.trans h.entry
      · exact hnone
      · rw [h.entry] at he
        cases he
    · exact ⟨by simp only; omega, h.counts.2⟩
  have hout := h.outcome
  refine Or.inr ⟨a, n, hx, { h with entry := fun e he => ?_, torn := ?_, outcome := ?_ }⟩
  · rcases hcases with hsame | ⟨hnone, _⟩ | ⟨e', k, he', hstate, hsome⟩
    · exact h.entry e (hsame.symm.trans he)
    · exact absurd (hnone.symm.trans he) (by simp)
    · obtain ⟨hsub, hpacket, hagrees⟩ := h.entry e' he'
      obtain rfl := Option.some.inj (hsome.symm.trans he)
      simp only [Agrees, hstate] at hagrees
      exact ⟨hsub, hpacket, hagrees⟩
  · intro hheld hnone
    rcases h.held with hnil | ⟨hone, hclaimed, hbatched⟩
    · exact absurd hnil hheld
    rcases hcases with hsame | ⟨_, e, he, hstates⟩ | ⟨e', k, _, _, hsome⟩
    · exact h.torn hheld (hsame.symm.trans hnone)
    · obtain ⟨_, _, hagrees⟩ := h.entry e he
      rcases hstates with ⟨k, hstate⟩ | ⟨k, t, hstate⟩
      · simp only [Agrees, hstate] at hagrees
        omega
      · simp only [Agrees, hstate] at hagrees
        exact absurd hagrees.2.2.1 hheld
    · exact absurd (hsome.symm.trans hnone) (by simp)
  · simp only
    omega

/-- A matched response is reported, or counted as lost. -/
theorem Inv.emit (h : Inv config x l) {emitting : ℕ} (msgId : Vector UInt8 8) (result : UInt8)
    (sent : Bool) (hemitting : l.emitting = emitting + 1) :
    Inv config x { l with
      emitting
      responded := l.responded + 1
      puts := if sent then l.puts ++ [.submitResp x msgId result] else l.puts
      lost := if sent then l.lost else l.lost + 1 } := by
  rcases h with h | ⟨a, n, hx, h⟩
  · rw [h.counts.1] at hemitting
    cases hemitting
  have hout := h.outcome
  have hreported := h.reported
  refine Or.inr ⟨a, n, hx, { h with outcome := ?_, reported := ?_, gaveUp := fun y k hmem => ?_ }⟩
  · simp only
    omega
  · cases sent with
    | true =>
      simp only [if_true, List.length_append, List.length_singleton]
      omega
    | false =>
      simp only [Bool.false_eq_true, if_false]
      omega
  · cases sent with
    | true =>
      rcases List.mem_append.mp hmem with hmem | hmem
      · exact h.gaveUp y k hmem
      · cases List.mem_singleton.mp hmem
    | false => exact h.gaveUp y k hmem

/-- The scan finds attempts that were written long ago. -/
theorem Inv.scan (h : Inv config x l) {expired : List SubmitAttemptKey}
    (hexpired : ∀ key ∈ expired, ∃ e t, l.entry = some e ∧ e.submissionId = key.submissionId ∧
      e.state = .awaitingResponse key.attempt t ∧ config.responseTimeout ≤ l.now - t) :
    Inv config x { l with expired } := by
  rcases h with h | ⟨a, n, hx, h⟩
  · refine Or.inl { h with expired := List.eq_nil_iff_forall_not_mem.mpr fun key hkey => ?_ }
    obtain ⟨e, _, he, _⟩ := hexpired key hkey
    rw [h.entry] at he
    cases he
  · refine Or.inr ⟨a, n, hx, { h with expired := fun key hkey => ?_ }⟩
    obtain ⟨e, t, he, hkeysub, hstate, hdue⟩ := hexpired key hkey
    obtain ⟨hsub, _, hagrees⟩ := h.entry e he
    simp only [Agrees, hstate] at hagrees
    obtain ⟨hattempt, hwritten, _, hlast⟩ := hagrees
    have hpos := h.counts.1
    have hlong := config.responseTimeout_pos
    refine ⟨hkeysub.symm.trans hsub, n.queued - 1, (a.frame n.queued, t), by omega, ?_, ?_⟩
    · rw [List.getLast?_eq_getElem?, h.written_length, hwritten] at hlast
      exact hlast
    · simp only
      omega

theorem Inv.giveUp (h : Inv config x l) {e : PendingSubmit} {attempt t : ℕ}
    (he : l.entry = some e) (hstate : e.state = .awaitingResponse attempt t)
    (hattempt : config.retryCount ≤ attempt) :
    Inv config x { l with
      entry := none
      timedOut := l.timedOut + 1
      puts := l.puts ++ [.submitTimeout x attempt] } := by
  rcases h with h | ⟨a, n, hx, h⟩
  · rw [h.entry] at he
    cases he
  obtain ⟨_, _, hagrees⟩ := h.entry e he
  simp only [Agrees, hstate] at hagrees
  obtain ⟨rfl, hwritten, hheld, _⟩ := hagrees
  obtain ⟨hpos, hretry, hwh, hhc, hcq, hqw⟩ := h.counts
  have hout := h.outcome
  have hreported := h.reported
  simp only [he, live, hstate] at hout
  refine Or.inr ⟨a, n, hx, { h with
    entry := fun e' he' => by cases he'
    torn := fun hne => absurd hheld hne
    outcome := ?_
    reported := ?_
    gaveUp := fun y k hmem => ?_ }⟩
  · simp only [live]
    omega
  · simp only [List.length_append, List.length_singleton]
    omega
  · rcases List.mem_append.mp hmem with hmem | hmem
    · exact h.gaveUp y k hmem
    · obtain ⟨_, rfl⟩ := Event.submitTimeout.inj (List.mem_singleton.mp hmem)
      omega

theorem Inv.retry (h : Inv config x l) {key : SubmitAttemptKey} {e : PendingSubmit} {t : ℕ}
    (hkey : key ∈ l.expired) (hid : key.sequenceId = x) (hattempt : key.attempt < config.retryCount)
    (he : l.entry = some e) (hstate : e.state = .awaitingResponse key.attempt t) :
    Inv config x { l with
      entry := some { e with state := .queued (key.attempt + 1) }
      line := l.line ++ [.submit e.packet { key with attempt := key.attempt + 1 }]
      enqueued := l.enqueued ++ [({ key with attempt := key.attempt + 1 }, l.clock)] } := by
  rcases h with h | ⟨a, n, hx, h⟩
  · rw [h.entry] at he
    cases he
  obtain ⟨hsub, hpacket, hagrees⟩ := h.entry e he
  simp only [Agrees, hstate] at hagrees
  obtain ⟨hqueued, hwritten, hheld, hlast⟩ := hagrees
  obtain ⟨hkeysub, k', q', hk', hq', hdue⟩ := h.expired key hkey
  obtain ⟨hpos, hretry, hwh, hhc, hcq, hqw⟩ := h.counts
  have hline : l.line = [] := h.line.resolve_right fun hone => by omega
  have hnext : { key with attempt := key.attempt + 1 } = a.key (n.queued + 1) := by
    rw [hkeysub, hid, hqueued, ← hx]
    rfl
  have hframe : l.line ++ [.submit e.packet (a.key (n.queued + 1))] = [a.frame (n.queued + 1)] := by
    rw [hline, hpacket]
    rfl
  have hclaimed : n.claimed + 1 = n.queued + 1 := by omega
  have hcounts : n.queued + 1 ≤ config.retryCount ∧ n.claimed ≤ n.queued + 1 ∧
      n.queued + 1 ≤ n.written + 1 := by omega
  rw [hnext, hframe, hqueued]
  refine Or.inr ⟨a, { n with queued := n.queued + 1 }, hx, { h with
    enqueued := ?_
    counts := ⟨Nat.le_add_left 1 _, hcounts.1, hwh, hhc, hcounts.2⟩
    line := Or.inr ⟨rfl, hclaimed⟩
    held := Or.inl hheld
    entry := fun e' he' => ?_
    torn := fun hne => absurd hheld hne
    outcome := ?_
    paced := fun k p q hp hq => ?_ }⟩
  · rw [List.map_append, h.enqueued, Admission.keys_succ]
    rfl
  · obtain rfl := Option.some.inj he'
    exact ⟨hsub, hpacket, rfl, hclaimed, fun _ => rfl⟩
  · have hout := h.outcome
    simp only [he, live, hstate] at hout
    exact hout
  · rcases getElem?_concat hp with hp | ⟨hk, rfl⟩
    · exact h.paced k p q hp hq
    · rw [h.enqueued_length] at hk
      obtain rfl : k = k' := by omega
      obtain rfl := Option.some.inj (hq'.symm.trans hq)
      exact hdue.trans h.now_le

/-- The map is drained: what was still to come from the entry is owed by a cleanup. -/
theorem Inv.drain (h : Inv config x l) :
    Inv config x { l with
      entry := none
      drained := l.drained + live l.entry
      owed := l.owed + live l.entry
      swept := true } := by
  rcases h with h | ⟨a, n, hx, h⟩
  · have hzero : live l.entry = 0 := by rw [h.entry]; rfl
    rw [hzero]
    exact Or.inl { h with entry := rfl }
  have hout := h.outcome
  have hreported := h.reported
  refine Or.inr ⟨a, n, hx, { h with
    entry := fun e he => by cases he
    torn := fun _ _ => rfl
    outcome := ?_
    reported := ?_ }⟩
  · change 0 + l.emitting + l.responded + l.timedOut + (l.drained + live l.entry) = 1
    omega
  · simp only
    omega

/-- A cleanup reports what it owes, or it is counted as lost. -/
theorem Inv.sendDropped (h : Inv config x l) {batch : List ℕ} {owed : ℕ} (sent : Bool)
    (hx : ∀ y ∈ batch, y = x) (howed : l.owed = batch.length + owed) :
    Inv config x { l with
      owed
      puts := if sent then l.puts ++ batch.map .submitDropped else l.puts
      lost := if sent then l.lost else l.lost + batch.length } := by
  rcases h with h | ⟨a, n, hax, h⟩
  · obtain ⟨hemitting, hresponded, htimedOut, hdrained, hlost, hzero⟩ := h.counts
    obtain rfl : batch = [] := List.length_eq_zero_iff.mp (by omega)
    refine Or.inl
      { h with puts := ?_, counts := ⟨hemitting, hresponded, htimedOut, hdrained, ?_, ?_⟩ }
    · rw [List.map_nil, List.append_nil, ite_self]
      exact h.puts
    · rw [List.length_nil, Nat.add_zero, ite_self]
      exact hlost
    · simp only
      omega
  have hreported := h.reported
  refine Or.inr ⟨a, n, hax, { h with reported := ?_, gaveUp := fun y k hmem => ?_ }⟩
  · cases sent with
    | true =>
      simp only [if_true, List.length_append, List.length_map]
      omega
    | false =>
      simp only [Bool.false_eq_true, if_false]
      omega
  · cases sent with
    | true =>
      rcases List.mem_append.mp hmem with hmem | hmem
      · exact h.gaveUp y k hmem
      · obtain ⟨z, _, hz⟩ := List.mem_map.mp hmem
        cases hz
    | false => exact h.gaveUp y k hmem

end Life

end CmppProtocol
