import CmppProtocol.Connection.Beats
import CmppProtocol.Connection.Consumed
import CmppProtocol.Connection.Traffic

/-! # The record of the heartbeats

The record of a run notes when an ACTIVE_TEST is queued, claimed and written,
when a response to one is processed, and when one is given up. The frames that
the writer carries are among those that were claimed.
-/

namespace CmppProtocol

open History SequenceState

namespace Connection

variable {gbk : Gbk} {config : ConnectionConfig} {s s' : Connection}
  {notes new : List HeartbeatNote}

/-! ## The record -/

/-- A step of the writer claims the frame that it looks at, or has written its batch. -/
def writerNotes (s s' : Connection) : List HeartbeatNote :=
  match s.writer.stage, s'.writer.stage with
  | .received outbound _, .screened _ =>
    outbound.heartbeatAttempt.toList.map fun key => .claimed key s.phase
  | .writing, .wrote =>
    (s.writer.batch.filterMap Outbound.heartbeatAttempt).map fun key => .written key s.clock
  | _, _ => []

/-- The heartbeat frames that a step of another task puts into the control queue. -/
def queuedNotes (s s' : Connection) : List HeartbeatNote :=
  ((s'.controlQueue.drop s.controlQueue.length).filterMap Outbound.heartbeatAttempt).map fun key =>
    .queued key s.clock

def heartbeatNotes (s : Connection) (event : ConnectionEvent) (s' : Connection) :
    List HeartbeatNote :=
  match event with
  | .writer _ => s.writerNotes s'
  | .reader (.activeTestResp sequenceId) => [.responded sequenceId]
  | .timeout .giveUpHeartbeat =>
    match s.timeout, s'.timeout with
    | .heartbeatExpired _ key, .heartbeatExhausted => [.exhausted key.sequenceId]
    | _, _ => []
  | .timeout .teardown => if s.timeout = .heartbeatExhausted then [.tornDown] else []
  | _ => s.queuedNotes s'

/-- The connection with a record of its heartbeats. -/
def recordedMachine (gbk : Gbk) (config : ConnectionConfig) (clock : ℕ) (udhCounter : UInt32) :
    Machine (Connection × List HeartbeatNote) ConnectionEvent :=
  (machine gbk config clock udhCounter).recorded [] fun notes s event s' =>
    notes ++ s.heartbeatNotes event s'

/-! ## Frames with the writer -/

structure Carried (notes : List HeartbeatNote) (s : Connection) : Prop where
  claimed : ((s.log.handed ++ transit s.writer).filterMap Outbound.heartbeatAttempt).Sublist
    (notes.filterMap HeartbeatNote.claimedKey)
  written : ∀ key writtenAt, .written key writtenAt ∈ notes →
    ∃ o ∈ s.log.handed, o.heartbeatAttempt = some key
  handed : ∀ o ∈ s.writer.unpublished, o ∈ s.log.handed
  noted : ∀ writtenAt, s.writer.status.instant = some writtenAt → ∀ o ∈ s.writer.unpublished,
    ∀ key, o.heartbeatAttempt = some key → .written key writtenAt ∈ notes

theorem carried_initial (config : ConnectionConfig) (clock : ℕ) (udhCounter : UInt32) :
    Carried [] (initial config clock udhCounter) := by
  constructor
  · exact List.Sublist.refl _
  · nofun
  · exact fun o ho => absurd ho List.not_mem_nil
  · nofun

/-- The writer moves on with the frames that it has, or drops some. -/
theorem Carried.pass (h : Carried notes s) (hhanded : s'.log.handed = s.log.handed)
    (htransit : (transit s'.writer).Sublist (transit s.writer))
    (hunpublished : ∀ o ∈ s'.writer.unpublished, o ∈ s.writer.unpublished)
    (hinstant : s'.writer.unpublished = [] ∨
      s'.writer.status.instant = s.writer.status.instant) : Carried notes s' := by
  constructor
  · rw [hhanded]
    exact ((htransit.append_left _).filterMap _).trans h.claimed
  · rw [hhanded]
    exact h.written
  · rw [hhanded]
    exact fun o ho => h.handed o (hunpublished o ho)
  · intro writtenAt hat o ho
    rcases hinstant with hnone | hinstant
    · rw [hnone] at ho
      exact absurd ho List.not_mem_nil
    · exact h.noted writtenAt (hinstant ▸ hat) o (hunpublished o ho)

theorem Carried.owned (h : Carried notes s) (howned : s'.owned.writer = s.owned.writer)
    (hhanded : s'.owned.handed = s.owned.handed)
    (hnew : ∀ key writtenAt, .written key writtenAt ∉ new) : Carried (notes ++ new) s' := by
  have howned : s'.writer = s.writer := howned
  have hhanded : s'.log.handed = s.log.handed := hhanded
  constructor
  · rw [hhanded, howned, List.filterMap_append (l := notes)]
    exact h.claimed.trans (List.sublist_append_left _ _)
  · intro key writtenAt hmem
    rw [hhanded]
    rcases List.mem_append.mp hmem with hmem | hmem
    · exact h.written key writtenAt hmem
    · exact absurd hmem (hnew key writtenAt)
  · rw [howned, hhanded]
    exact h.handed
  · rw [howned]
    exact fun writtenAt hat o ho key hkey =>
      List.mem_append_left _ (h.noted writtenAt hat o ho key hkey)

theorem writerNotes_screened {outbound o : Outbound} {isSubmit : Bool}
    (hstage : s.writer.stage = .received outbound isSubmit)
    (hstage' : s'.writer.stage = .screened o) :
    s.writerNotes s' = outbound.heartbeatAttempt.toList.map fun key => .claimed key s.phase := by
  rw [writerNotes, hstage, hstage']

/-- The frame that was received is looked at; a heartbeat is claimed by that. -/
theorem Carried.screen (h : Carried notes s) {outbound : Outbound}
    {isSubmit : Bool} (hstage : s.writer.stage = .received outbound isSubmit)
    (hhanded : s'.log.handed = s.log.handed) (hstage' : s'.writer.stage = .screened outbound)
    (hbatch : s'.writer.batch = s.writer.batch) (hstatus : s'.writer.status = s.writer.status) :
    Carried (notes ++ s.writerNotes s') s' := by
  have hnotes := writerNotes_screened hstage hstage'
  have htransit : transit s'.writer = transit s.writer ++ [outbound] := by
    rw [transit, transit, unhanded, unhanded, hstatus, hbatch, hstage, hstage']
    exact congrArg (· ++ [outbound]) (List.append_nil _).symm
  have hunpublished : s'.writer.unpublished = [] := by
    rw [Writer.unpublished, hstage']
  constructor
  · rw [hhanded, htransit, ← List.append_assoc, List.filterMap_append (l := notes), hnotes,
      List.filterMap_append]
    refine h.claimed.append ?_
    cases hkey : outbound.heartbeatAttempt with
    | none => simp [hkey]
    | some key => simp [hkey, HeartbeatNote.claimedKey]
  · intro key writtenAt hmem
    rw [hhanded]
    rcases List.mem_append.mp hmem with hmem | hmem
    · exact h.written key writtenAt hmem
    · simp [hnotes] at hmem
  · rw [hunpublished]
    exact fun o ho => absurd ho List.not_mem_nil
  · rw [hunpublished]
    exact fun _ _ o ho => absurd ho List.not_mem_nil

theorem Carried.hand (h : Carried notes s) (hw : s.Wired config)
    (hstage : s.writer.stage = .claimed) : Carried notes { s with
      writer := { s.writer with stage := .writing, status := .handed }
      log := { s.log with handed := s.log.handed ++ s.writer.batch } } := by
  have hstaged := hw.writer.stage
  rw [Writer.Staged, hstage] at hstaged
  have hclaimed := h.claimed
  rw [transit, unhanded, hstaged, hstage] at hclaimed
  constructor
  · change ((s.log.handed ++ s.writer.batch ++ ([] ++ [])).filterMap _).Sublist _
    rw [List.append_assoc]
    exact hclaimed
  · intro key writtenAt hmem
    obtain ⟨o, ho, hkey⟩ := h.written key writtenAt hmem
    exact ⟨o, List.mem_append_left _ ho, hkey⟩
  · exact fun o ho => List.mem_append_right _ ho
  · rintro _ ⟨⟩

/-- The batch was written, and every heartbeat in it is noted. -/
theorem Carried.write (h : Carried notes s) (hw : s.Wired config)
    (hstage : s.writer.stage = .writing) (hhanded : s'.log.handed = s.log.handed)
    (hstage' : s'.writer.stage = .wrote) (hbatch : s'.writer.batch = s.writer.batch)
    (hstatus' : s'.writer.status = .written s.clock) :
    Carried (notes ++ s.writerNotes s') s' := by
  have hstaged := hw.writer.stage
  rw [Writer.Staged, hstage] at hstaged
  have hnotes : s.writerNotes s' =
      (s.writer.batch.filterMap Outbound.heartbeatAttempt).map fun key => .written key s.clock := by
    rw [writerNotes, hstage, hstage']
  have hunpublished : s.writer.unpublished = s.writer.batch := by
    rw [Writer.unpublished, hstage]
  have hunpublished' : s'.writer.unpublished = s.writer.batch := by
    rw [Writer.unpublished, hstage', hbatch]
  have htransit : transit s'.writer = [] := by
    rw [transit, unhanded, hstatus', hstage']
    rfl
  constructor
  · rw [hhanded, htransit, List.append_nil, List.filterMap_append (l := notes)]
    refine List.Sublist.trans ?_ (h.claimed.trans (List.sublist_append_left _ _))
    exact (List.sublist_append_left _ _).filterMap _
  · intro key writtenAt hmem
    rw [hhanded]
    rcases List.mem_append.mp hmem with hmem | hmem
    · exact h.written key writtenAt hmem
    · rw [hnotes] at hmem
      obtain ⟨key', hkey', heq⟩ := List.mem_map.mp hmem
      cases heq
      obtain ⟨o, ho, hkey⟩ := List.mem_filterMap.mp hkey'
      exact ⟨o, h.handed o (hunpublished ▸ ho), hkey⟩
  · rw [hunpublished', hhanded, ← hunpublished]
    exact h.handed
  · intro writtenAt hat o ho key hkey
    rw [hstatus'] at hat
    cases hat
    rw [hunpublished'] at ho
    refine List.mem_append_right _ ?_
    rw [hnotes]
    exact List.mem_map.mpr ⟨key, List.mem_filterMap.mpr ⟨o, ho, hkey⟩, rfl⟩

theorem writerNotes_of_stage (h : ∀ outbound isSubmit, s.writer.stage ≠ .received outbound isSubmit)
    (hwriting : s.writer.stage ≠ .writing) : s.writerNotes s' = [] := by
  unfold writerNotes
  split
  · next hstage _ => exact absurd hstage (h _ _)
  · next hstage _ => exact absurd hstage hwriting
  · rfl

theorem writerNotes_of_stage' (h : ∀ outbound, s'.writer.stage ≠ .screened outbound)
    (hwrote : s'.writer.stage ≠ .wrote) : s.writerNotes s' = [] := by
  unfold writerNotes
  split
  · next hstage => exact absurd hstage (h _)
  · next hstage => exact absurd hstage hwrote
  · rfl

/-- The writer ends up with nothing to publish and nothing in the hand. -/
theorem Carried.leave (h : Carried notes s) (hhanded : s'.log.handed = s.log.handed)
    (hunhanded : (unhanded s'.writer).Sublist (unhanded s.writer))
    (hpassed : s'.writer.stage.passed = none) (hunpublished : s'.writer.unpublished = [])
    (hwrote : s'.writer.stage ≠ .wrote) : Carried (notes ++ s.writerNotes s') s' := by
  have hnil : s.writerNotes s' = [] := by
    apply writerNotes_of_stage' _ hwrote
    intro outbound hstage
    rw [hstage] at hpassed
    cases hpassed
  rw [hnil, List.append_nil]
  refine h.pass hhanded ?_ ?_ (Or.inl hunpublished)
  · rw [transit, transit, hpassed]
    refine List.Sublist.trans ?_ (List.sublist_append_left _ _)
    exact (List.append_nil _).symm ▸ hunhanded
  · rw [hunpublished]
    exact fun o ho => absurd ho List.not_mem_nil

theorem Carried.afterBatch (h : Carried notes s) :
    Carried (notes ++ s.writerNotes s.afterBatch) s.afterBatch := by
  have hstage : s.afterBatch.writer.stage = .answering ∨ s.afterBatch.writer.stage = .top := by
    cases hmarker : s.writer.pendingMarker with
    | none => exact Or.inr (by simp [Connection.afterBatch, hmarker])
    | some marker => exact Or.inl (by simp [Connection.afterBatch, hmarker])
  refine h.leave rfl (List.nil_sublist _) ?_ ?_ ?_
  all_goals rcases hstage with hstage | hstage
  all_goals simp [Writer.unpublished, WriterStage.passed, hstage]

/-- The writer goes on with the frames that it has. -/
theorem Carried.go (h : Carried notes s) (hhanded : s'.log.handed = s.log.handed)
    (htransit : transit s'.writer = transit s.writer)
    (hunpublished : ∀ o ∈ s'.writer.unpublished, o ∈ s.writer.unpublished)
    (hinstant : s'.writer.status.instant = s.writer.status.instant)
    (hstage : ∀ outbound isSubmit, s.writer.stage ≠ .received outbound isSubmit)
    (hwriting : s.writer.stage ≠ .writing) : Carried (notes ++ s.writerNotes s') s' := by
  rw [writerNotes_of_stage hstage hwriting, List.append_nil]
  exact h.pass hhanded (htransit ▸ List.Sublist.refl _) hunpublished (Or.inr hinstant)

theorem Carried.writerMove (h : Carried notes s) (hw : s.Wired config) {event : WriterEvent}
    (hmove : WriterMove s event s') : Carried (notes ++ s.writerNotes s') s' := by
  have hstaged := hw.writer.stage
  rw [Writer.Staged] at hstaged
  cases hmove with
  | screened outbound isSubmit heartbeatPending hstage hmarker hsize =>
    exact h.screen hstage rfl rfl rfl rfl
  | admitOutbound outbound hstage =>
    refine h.go rfl ?_ ?_ rfl ?_ ?_
    · rw [transit, transit, hstage]
      rfl
    · exact fun o ho => absurd ho List.not_mem_nil
    · simp [hstage]
    · simp [hstage]
  | push outbound hstage =>
    rw [hstage] at hstaged
    refine h.go rfl ?_ ?_ rfl ?_ ?_
    · rw [transit, transit, unhanded, unhanded, hstage]
      simp only [hstaged.1, WriterStage.passed, Option.toList_none, Option.toList_some,
        List.append_nil]
    · exact fun o ho => absurd ho List.not_mem_nil
    · simp [hstage]
    · simp [hstage]
  | hand hstage =>
    rw [writerNotes_of_stage (by simp [hstage]) (by simp [hstage]), List.append_nil]
    exact h.hand hw hstage
  | written hstage => exact h.write hw hstage rfl rfl rfl rfl
  | complete writtenAt hstage hstatus =>
    refine h.go rfl ?_ ?_ ?_ ?_ ?_
    · rw [transit, transit, unhanded, unhanded, hstage, hstatus]
      rfl
    · rw [Writer.unpublished, Writer.unpublished, hstage]
      exact fun o ho => ho
    · rw [hstatus]
      rfl
    · simp [hstage]
    · simp [hstage]
  | publish outbound rest heartbeatPending answered terminateWritten hstage hsize =>
    refine h.go rfl ?_ ?_ rfl ?_ ?_
    · rw [transit, transit, hstage]
      rfl
    · rw [Writer.unpublished, Writer.unpublished, hstage]
      exact fun o ho => List.mem_cons_of_mem _ ho
    · simp [hstage]
    · simp [hstage]
  | signal writtenTx rest hstage =>
    refine h.go rfl ?_ ?_ rfl ?_ ?_
    · rw [transit, transit, hstage]
      rfl
    · rw [Writer.unpublished, Writer.unpublished, hstage]
      exact fun o ho => ho
    · simp [hstage]
    · simp [hstage]
  | dropBatch hstage hbatch => exact h.afterBatch
  | endBatch hstage => exact h.afterBatch
  | claim hstage =>
    rw [hstage] at hstaged
    refine h.leave rfl ?_ rfl rfl (by rintro ⟨⟩)
    have hold : unhanded s.writer = s.writer.batch := by
      rw [unhanded, hstaged]
    rw [hold]
    change (claimSubmitAttempts _ _ _).2.Sublist _
    rw [claimSubmitAttempts_eq]
    exact Compaction.sweep_sublist _ _
  | fail writer outbound hhand hstatus hbatch hfailing =>
    have hsame : unhanded writer = unhanded s.writer := by
      rw [unhanded, unhanded, hstatus, hbatch]
    refine h.leave rfl (hsame ▸ List.Sublist.refl _) ?_ ?_ ?_
    all_goals simp [Writer.unpublished, WriterStage.passed, hfailing]
  | giveUp hstage =>
    have hfinish : s.finish.log.handed = s.log.handed ∧ s.finish.writer = s.writer := by
      rw [finish_eq]
      exact ⟨rfl, rfl⟩
    refine h.leave hfinish.1 ?_ rfl rfl (by rintro ⟨⟩)
    change (unhanded { s.finish.writer with stage := .stopped }).Sublist _
    rw [hfinish.2]
    exact List.Sublist.refl _
  | _ => exact h.leave rfl (List.Sublist.refl _) rfl rfl (by rintro ⟨⟩)

end Connection

end CmppProtocol
