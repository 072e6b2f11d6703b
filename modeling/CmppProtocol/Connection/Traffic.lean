import CmppProtocol.Connection.Farewell

/-! # Frames between the queues and the socket

Where the frames are that the writer has taken up, which of them it may still
drop, and what every frame has that the tasks queue.
-/

namespace CmppProtocol

/-- The frames of a batch that were handed to the socket and not published yet. -/
def Writer.unpublished (writer : Writer) : List Outbound :=
  match writer.stage with
  | .writing | .wrote => writer.batch
  | .publishing rest => rest
  | .signalling _ rest => rest
  | _ => []

namespace WriterStage

/-- The frame that the writer has looked at and not put into the batch. -/
def passed : WriterStage → Option Outbound
  | .screened outbound | .admitted outbound => some outbound
  | _ => none

end WriterStage

/-- When the batch was written. -/
def BatchStatus.instant : BatchStatus → Option ℕ
  | .written writtenAt | .completed writtenAt => some writtenAt
  | _ => none

namespace Connection

variable {config : ConnectionConfig} {s s' : Connection} {P : Outbound → Prop}

/-- The frames that the writer has looked at and not handed to the socket. -/
def transit (writer : Writer) : List Outbound := unhanded writer ++ writer.stage.passed.toList

theorem unpublished_of_asks {writer : Writer} {allowed : Bool}
    (h : writer.stage.asks = some allowed) :
    writer.unpublished = [] ∧ writer.stage ≠ .failing ∧ writer.stage ≠ .stopped := by
  unfold Writer.unpublished
  cases hstage : writer.stage with
  | selecting _ | selectingSecond _ | picking _ | pickingSecond _ => exact ⟨rfl, nofun, nofun⟩
  | _ =>
    rw [hstage] at h
    cases h

theorem unpublished_of_hand {writer : Writer} {outbound : Outbound}
    (h : writer.stage.hand = some outbound) :
    writer.unpublished = [] ∧ writer.stage ≠ .failing ∧ writer.stage ≠ .stopped := by
  unfold Writer.unpublished
  cases hstage : writer.stage with
  | received _ _ | screened _ | admitted _ => exact ⟨rfl, nofun, nofun⟩
  | _ =>
    rw [hstage] at h
    cases h

/-- Every frame has a property, in the control queue, with the writer and on the socket. -/
def Bears (P : Outbound → Prop) (s : Connection) : Prop := ∀ o ∈ s.log.handed ++ s.underway, P o

theorem Bears.of_subset (h : s.Bears P)
    (hsub : ∀ o ∈ s'.log.handed ++ s'.underway, o ∈ s.log.handed ++ s.underway) : s'.Bears P :=
  fun o ho => h o (hsub o ho)

theorem Bears.release (h : s.Bears P) (hhanded : s'.log.handed = s.log.handed)
    (hcontrol : s'.controlQueue = s.controlQueue) (hbatch : s'.writer.batch = s.writer.batch)
    (hstatus : s'.writer.status = s.writer.status)
    (hhand : s'.writer.stage.hand = none ∨ s'.writer.stage.hand = s.writer.stage.hand) :
    s'.Bears P := by
  apply h.of_subset
  intro o ho
  rw [hhanded] at ho
  exact ((underway_release hcontrol hbatch hstatus hhand).append_left _).subset ho

theorem Bears.afterBatch (h : s.Bears P) : s.afterBatch.Bears P := by
  apply h.of_subset
  intro o ho
  rw [underway_afterBatch] at ho
  rcases List.mem_append.mp ho with ho | ho
  · exact List.mem_append_left _ ho
  · exact List.mem_append_right _ (List.mem_append_right _ (List.mem_append_right _ ho))

theorem Bears.writerMove (h : s.Bears P) (hw : s.Wired config)
    (hqueued : ∀ o : Outbound, o.IsQueued → P o) {event : WriterEvent}
    (hmove : WriterMove s event s') : s'.Bears P := by
  have hstaged := hw.writer.stage
  rw [Writer.Staged] at hstaged
  cases hmove with
  | takeSubmit allowed outbound submitQueue hasks hqueue =>
    have hold := underway_of_asks hasks
    have hnew := hqueued outbound (hw.submits outbound (hqueue ▸ List.mem_cons_self))
    intro o ho
    rw [Bears, hold] at h
    rcases List.mem_append.mp ho with ho | ho
    · exact h o (List.mem_append_left _ ho)
    rcases List.mem_append.mp ho with ho | ho
    · exact h o (List.mem_append_right _ (List.mem_append_left _ ho))
    rcases List.mem_cons.mp ho with rfl | ho
    · exact hnew
    · exact h o (List.mem_append_right _ (List.mem_append_right _ ho))
  | takeControl allowed outbound controlQueue hasks hqueue =>
    rw [Bears, underway_of_asks hasks, hqueue] at h
    exact h
  | push outbound hstage =>
    rw [hstage] at hstaged
    rw [Bears, underway, unhanded, hstaged.1, hstage] at h
    rw [Bears, underway, unhanded]
    simp only [hstaged.1]
    rw [List.append_assoc]
    exact h
  | claim hstage =>
    rw [hstage] at hstaged
    apply h.of_subset
    have hsub : (claimSubmitAttempts s.canSendSubmit s.pendingSubmits s.writer.batch).2.Sublist
        s.writer.batch := by
      rw [claimSubmitAttempts_eq]
      exact Compaction.sweep_sublist _ _
    have hold : s.underway = s.writer.batch ++ s.controlQueue := by
      rw [underway, unhanded, hstaged, hstage]
      rfl
    rw [hold]
    exact fun o ho => ((hsub.append_right _).append_left _).subset ho
  | hand hstage =>
    rw [hstage] at hstaged
    apply h.of_subset
    have hold : s.underway = s.writer.batch ++ s.controlQueue := by
      rw [underway, unhanded, hstaged, hstage]
      rfl
    rw [hold, ← List.append_assoc]
    exact fun o ho => ho
  | written hstage =>
    rw [hstage] at hstaged
    rw [Bears, underway, unhanded, hstaged, hstage] at h
    exact h
  | complete writtenAt hstage hstatus =>
    rw [Bears, underway, unhanded, hstatus, hstage] at h
    exact h
  | dropBatch hstage hbatch => exact h.afterBatch
  | endBatch hstage => exact h.afterBatch
  | giveUp hstage =>
    have hfinished : s.finish.Bears P := by
      rw [finish_eq]
      exact h
    exact hfinished.release rfl rfl rfl rfl (Or.inl rfl)
  | fail writer outbound hhand hstatus hbatch hfailing =>
    exact h.release rfl rfl hbatch hstatus (Or.inl (by rw [hfailing]; rfl))
  | admitOutbound outbound hstage =>
    exact h.release rfl rfl rfl rfl (Or.inr (by rw [hstage]; rfl))
  | screened outbound isSubmit heartbeatPending hstage hmarker hsize =>
    exact h.release rfl rfl rfl rfl (Or.inr (by rw [hstage]; rfl))
  | _ => exact h.release rfl rfl rfl rfl (Or.inl rfl)

/-- A task queues one more control frame. -/
theorem Bears.queue (h : s.Bears P) {outbound : Outbound} (hnew : P outbound)
    (hwriter : s'.writer = s.writer) (hhanded : s'.log.handed = s.log.handed)
    (hcontrol : s'.controlQueue = s.controlQueue ++ [outbound]) : s'.Bears P := by
  intro o ho
  rw [hhanded, underway, hwriter, hcontrol, ← List.append_assoc, ← List.append_assoc,
    ← List.append_assoc] at ho
  rcases List.mem_append.mp ho with ho | ho
  · rw [List.append_assoc, List.append_assoc] at ho
    exact h o ho
  · rw [List.mem_singleton.mp ho]
    exact hnew

theorem Bears.same (h : s.Bears P) (hwriter : s'.writer = s.writer)
    (hhanded : s'.log.handed = s.log.handed) (hcontrol : s'.controlQueue = s.controlQueue) :
    s'.Bears P := by
  rw [Bears, hhanded, underway, hwriter, hcontrol]
  exact h

end Connection

end CmppProtocol
