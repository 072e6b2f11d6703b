import CmppProtocol.Connection.Retransmission
import CmppProtocol.Connection.Writing

/-! # Every pending SUBMIT is covered

While the connection is open each entry in the queued state has one frame that
is not claimed, and each entry that is being written has one frame in the batch
of the writer.
-/

namespace CmppProtocol

/-- The frame carries this attempt. -/
def Outbound.attempts (key : SubmitAttemptKey) (outbound : Outbound) : Bool :=
  outbound.submitAttempt = some key

theorem Outbound.submitAttempt_of_attempts {key : SubmitAttemptKey} {outbound : Outbound}
    (h : outbound.attempts key = true) : outbound.submitAttempt = some key :=
  of_decide_eq_true h

namespace Connection

variable {gbk : Gbk} {config : ConnectionConfig} {s s' : Connection} {x : ℕ}
  {entry : PendingSubmit} {key : SubmitAttemptKey}

/-- The frames that are not claimed: in the queue, with the writer, or in the batch that it
assembles. -/
def unclaimed (s : Connection) : List Outbound :=
  (if s.writer.status = .collecting then s.writer.batch else []) ++
    (s.writer.stage.hand.toList ++ s.submitQueue)

/-- The frames of the batch that was claimed and is not completed. -/
def inBatch (s : Connection) : List Outbound :=
  if s.writer.status.holding then s.writer.batch else []

theorem countP_of_attempts {p : Outbound → Bool} (frames : List Outbound)
    (hp : ∀ o, o.submitAttempt = some key → p o = true) :
    (frames.filter p).countP (Outbound.attempts key) = frames.countP (Outbound.attempts key) := by
  rw [List.countP_filter]
  refine List.countP_congr fun o _ => ?_
  rw [Bool.and_eq_true]
  exact ⟨fun h => h.1, fun h => ⟨h, hp o (Outbound.submitAttempt_of_attempts h)⟩⟩

theorem countP_window_line (hw : s.Wired config) (key : SubmitAttemptKey) :
    s.window.line.countP (Outbound.attempts key) = s.unclaimed.countP (Outbound.attempts key) := by
  have hsubmit (frames : List Outbound) := countP_of_attempts (p := Outbound.isSubmit) frames
    fun o (ho : o.submitAttempt = some key) => by rw [Outbound.isSubmit, ho]; rfl
  have hline (frames : List Outbound) := countP_of_attempts (p := Outbound.standsInLine) frames
    fun o (ho : o.submitAttempt = some key) => by rw [Outbound.standsInLine, ho]; rfl
  have hmarker : s.writer.pendingMarker.toList.countP (Outbound.attempts key) = 0 := by
    rw [List.countP_eq_zero]
    intro o ho
    rw [hw.writer.marker o (Option.mem_toList.mp ho)]
    exact Bool.false_ne_true
  simp only [window, Writer.taken, unclaimed, List.countP_append, hline, hmarker]
  split_ifs with hstatus
  · rw [hsubmit]
    omega
  · omega

theorem countP_window_held (s : Connection) (key : SubmitAttemptKey) :
    s.window.held.countP (Outbound.attempts key) = s.inBatch.countP (Outbound.attempts key) := by
  simp only [window, Writer.held, inBatch]
  split_ifs
  · refine countP_of_attempts _ fun o (ho : o.submitAttempt = some key) => ?_
    rw [Outbound.isSubmit, ho]
    rfl
  · rfl

/-- An attempt is among the frames of its SUBMIT. -/
theorem countP_carries (frames : List Outbound) (key : SubmitAttemptKey) :
    (frames.filter (Outbound.carries key.sequenceId)).countP (Outbound.attempts key) =
      frames.countP (Outbound.attempts key) :=
  countP_of_attempts frames fun o (ho : o.submitAttempt = some key) => by
    rw [Outbound.carries, ho]
    exact decide_eq_true rfl

/-- The frames with the key of an entry: where one of them is, and where none is. -/
structure Covered (s : Connection) (x : ℕ) (entry : PendingSubmit) : Prop where
  queued : ∀ attempt, entry.state = .queued attempt →
    s.unclaimed.countP (Outbound.attempts ⟨x, entry.submissionId, attempt⟩) = 1
  writing : ∀ attempt, entry.state = .writing attempt →
    s.inBatch.countP (Outbound.attempts ⟨x, entry.submissionId, attempt⟩) = 1
  respondedWhileWriting : ∀ attempt, entry.state = .respondedWhileWriting attempt →
    s.inBatch.countP (Outbound.attempts ⟨x, entry.submissionId, attempt⟩) = 1
  awaitingResponse : ∀ attempt writtenAt, entry.state = .awaitingResponse attempt writtenAt →
    ∀ outbound ∈ s.unclaimed ++ s.inBatch,
      outbound.submitAttempt ≠ some ⟨x, entry.submissionId, attempt⟩

theorem Sound.covered (h : s.Sound config) (hopen : s.phase = .opened)
    (hfind : s.pendingSubmits.find x = some entry) : s.Covered x entry := by
  have hsendable : (s.window.life x).sendable = true := Window.canSendSubmit_of_opened hopen
  have hline (key : SubmitAttemptKey) (hx : key.sequenceId = x) :
      (s.window.life x).line.countP (Outbound.attempts key) =
        s.unclaimed.countP (Outbound.attempts key) := by
    subst hx
    exact (countP_carries _ key).trans (countP_window_line h.wired key)
  have hheld (key : SubmitAttemptKey) (hx : key.sequenceId = x) :
      (s.window.life x).held.countP (Outbound.attempts key) =
        s.inBatch.countP (Outbound.attempts key) := by
    subst hx
    exact (countP_carries _ key).trans (countP_window_held s key)
  rcases h.lives x with hlife | ⟨a, n, hx, hlife⟩
  · have hnone : s.pendingSubmits.find x = none := hlife.entry
    rw [hnone] at hfind
    cases hfind
  obtain ⟨hsub, _, hagrees⟩ := hlife.entry entry hfind
  have hone (attempt : ℕ) (hattempt : attempt = n.queued) :
      [a.frame n.queued].countP (Outbound.attempts ⟨x, entry.submissionId, attempt⟩) = 1 := by
    subst hattempt
    rw [List.countP_singleton, if_pos]
    refine decide_eq_true ?_
    rw [Admission.frame_submitAttempt, Admission.key, hx, hsub]
  constructor
  · intro attempt hstate
    simp only [Life.Agrees, hstate] at hagrees
    rw [← hline _ rfl, hagrees.2.2 hsendable]
    exact hone attempt hagrees.1
  · intro attempt hstate
    simp only [Life.Agrees, hstate] at hagrees
    rw [← hheld _ rfl, hagrees.2]
    exact hone attempt hagrees.1
  · intro attempt hstate
    simp only [Life.Agrees, hstate] at hagrees
    rw [← hheld _ rfl, hagrees.2]
    exact hone attempt hagrees.1
  · intro attempt writtenAt hstate outbound hmem hkey
    simp only [Life.Agrees, hstate] at hagrees
    obtain ⟨_, hwritten, hnone, _⟩ := hagrees
    have hnoline : (s.window.life x).line = [] := by
      rcases hlife.line with hnil | ⟨_, hclaimed⟩
      · exact hnil
      · obtain ⟨_, _, hwh, hhc, _⟩ := hlife.counts
        omega
    have hzero : (s.unclaimed ++ s.inBatch).countP
        (Outbound.attempts ⟨x, entry.submissionId, attempt⟩) = 0 := by
      rw [List.countP_append, ← hline _ rfl, ← hheld _ rfl, hnoline, hnone]
      rfl
    exact List.countP_eq_zero.mp hzero outbound hmem (decide_eq_true hkey)

end Connection

end CmppProtocol
