import CmppProtocol.Connection.Traffic

/-! # The local TERMINATE is cancelled

A TERMINATE of this side is passed over once the TERMINATE of the peer was answered.
The writer tests this for each frame that it takes up, but notes the answer only when
its batch is written, so that a TERMINATE may follow the answer in the same batch.
-/

namespace CmppProtocol

/-- No frame with the mark of a local TERMINATE stands behind an answer to the peer. -/
def Cancelled (frames : List Outbound) : Prop :=
  frames.Pairwise fun earlier later =>
    earlier.marksPeerTerminateResponse = true → later.cancelAfterPeerTerminate = false

namespace Connection

variable {gbk : Gbk} {config : ConnectionConfig} {s s' : Connection}

/-- The step does not put a local TERMINATE into a batch with an answer to the peer. -/
def separates (s : Connection) : ConnectionEvent → Bool
  | .writer .advance =>
    match s.writer.stage with
    | .admitted outbound => !(outbound.cancelAfterPeerTerminate &&
        !s.peerTerminateResponseWritten &&
        s.writer.batch.any Outbound.marksPeerTerminateResponse)
    | _ => true
  | _ => true

structure Cancelling (s : Connection) : Prop where
  order : Cancelled (s.log.handed ++ unhanded s.writer)
  answered : ∀ o ∈ s.log.handed, o.marksPeerTerminateResponse = true →
    s.peerTerminateResponseWritten = true ∨ o ∈ s.writer.unpublished ∨
      s.writer.stage = .failing ∨ s.writer.stage = .stopped
  handed : s.peerTerminateResponseWritten = true →
    ∃ o ∈ s.log.handed, o.marksPeerTerminateResponse = true
  unpublished : ∀ o ∈ s.writer.unpublished, o ∈ s.log.handed

variable (config) in
/-- A frame with the mark is put into the batch only while no answer was noted. -/
theorem push_cancels {outbound : Outbound} (hcancel : outbound.cancelAfterPeerTerminate = true)
    (hbatch : (s.push config outbound).writer.batch ≠ s.writer.batch) :
    s.peerTerminateResponseWritten = false := by
  by_contra hanswered
  refine hbatch ?_
  rw [push, if_pos ⟨hcancel, Bool.eq_true_of_not_eq_false hanswered⟩]
  rfl

/-- The writer moves on, and keeps what it has to publish. -/
theorem Cancelling.keep (h : s.Cancelling) (hhanded : s'.log.handed = s.log.handed)
    (hanswered : s'.peerTerminateResponseWritten = s.peerTerminateResponseWritten)
    (hunhanded : (unhanded s'.writer).Sublist (unhanded s.writer))
    (hunpublished : s'.writer.unpublished = s.writer.unpublished)
    (hgoes : s.writer.stage ≠ .failing ∧ s.writer.stage ≠ .stopped) : s'.Cancelling := by
  constructor
  · rw [Cancelled, hhanded]
    exact h.order.sublist (hunhanded.append_left _)
  · intro o ho hmarks
    rw [hhanded] at ho
    rw [hanswered, hunpublished]
    rcases h.answered o ho hmarks with hflag | hrest | hover
    · exact Or.inl hflag
    · exact Or.inr (Or.inl hrest)
    · exact absurd hover (not_or.mpr hgoes)
  · intro hflag
    rw [hhanded]
    exact h.handed (hanswered ▸ hflag)
  · rw [hhanded, hunpublished]
    exact h.unpublished

/-- The writer ends. -/
theorem Cancelling.over (h : s.Cancelling) (hhanded : s'.log.handed = s.log.handed)
    (hanswered : s'.peerTerminateResponseWritten = s.peerTerminateResponseWritten)
    (hunhanded : (unhanded s'.writer).Sublist (unhanded s.writer))
    (hover : s'.writer.stage = .failing ∨ s'.writer.stage = .stopped) : s'.Cancelling where
  order := by
    rw [Cancelled, hhanded]
    exact h.order.sublist (hunhanded.append_left _)
  answered _ _ _ := Or.inr (Or.inr hover)
  handed hflag := by
    rw [hhanded]
    exact h.handed (hanswered ▸ hflag)
  unpublished o ho := by
    rw [Writer.unpublished] at ho
    rcases hover with hover | hover
    all_goals rw [hover] at ho; exact absurd ho List.not_mem_nil

/-- A frame is put into the batch; one with the mark finds no answer before it. -/
theorem Cancelling.push (h : s.Cancelling) (hw : s.Wired config) {outbound : Outbound}
    (hstage : s.writer.stage = .admitted outbound)
    (hflag : outbound.cancelAfterPeerTerminate = true → s.peerTerminateResponseWritten = false)
    (hseparates : s.separates (.writer .advance) = true) :
    Cancelling { s with writer := { s.writer with
      stage := .harvesting
      batch := s.writer.batch ++ [outbound]
      batchBytes := s.writer.batchBytes + outbound.packet.length } } := by
  have hstaged := hw.writer.stage
  rw [Writer.Staged, hstage] at hstaged
  have hempty : s.writer.unpublished = [] := by
    rw [Writer.unpublished, hstage]
  have hunhanded : unhanded s.writer = s.writer.batch := by
    rw [unhanded, hstaged.1]
  have hbefore : ∀ a ∈ s.log.handed ++ s.writer.batch, a.marksPeerTerminateResponse = true →
      outbound.cancelAfterPeerTerminate = false := by
    intro a ha hmarks
    by_contra hcancel
    have hcancel := Bool.eq_true_of_not_eq_false hcancel
    rcases List.mem_append.mp ha with ha | ha
    · rcases h.answered a ha hmarks with hanswered | hrest | hover | hover
      · rw [hflag hcancel] at hanswered
        cases hanswered
      · rw [hempty] at hrest
        exact absurd hrest List.not_mem_nil
      all_goals rw [hstage] at hover; cases hover
    · have hany : s.writer.batch.any Outbound.marksPeerTerminateResponse = true :=
        List.any_eq_true.mpr ⟨a, ha, hmarks⟩
      rw [separates, hstage] at hseparates
      simp only [hcancel, hflag hcancel, hany] at hseparates
      cases hseparates
  have horder := h.order
  rw [Cancelled, hunhanded] at horder
  constructor
  · have hafter : unhanded { s.writer with
        stage := .harvesting
        batch := s.writer.batch ++ [outbound]
        batchBytes := s.writer.batchBytes + outbound.packet.length } =
          s.writer.batch ++ [outbound] := by
      rw [unhanded, hstaged.1]
    rw [Cancelled, hafter, ← List.append_assoc, List.pairwise_append]
    refine ⟨horder, List.pairwise_singleton _ _, ?_⟩
    intro a ha b hb
    rw [List.mem_singleton.mp hb]
    exact hbefore a ha
  · intro o ho hmarks
    rcases h.answered o ho hmarks with hanswered | hrest | hover | hover
    · exact Or.inl hanswered
    · rw [hempty] at hrest
      exact absurd hrest List.not_mem_nil
    all_goals rw [hstage] at hover; cases hover
  · exact h.handed
  · intro o ho
    exact absurd ho List.not_mem_nil

theorem Cancelling.hand (h : s.Cancelling) (hw : s.Wired config)
    (hstage : s.writer.stage = .claimed) : Cancelling { s with
      writer := { s.writer with stage := .writing, status := .handed }
      log := { s.log with handed := s.log.handed ++ s.writer.batch } } := by
  have hstaged := hw.writer.stage
  rw [Writer.Staged, hstage] at hstaged
  have hempty : s.writer.unpublished = [] := by
    rw [Writer.unpublished, hstage]
  have horder := h.order
  rw [unhanded, hstaged] at horder
  constructor
  · rw [unhanded, List.append_nil]
    exact horder
  · intro o ho hmarks
    rcases List.mem_append.mp ho with ho | ho
    · rcases h.answered o ho hmarks with hanswered | hrest | hover | hover
      · exact Or.inl hanswered
      · rw [hempty] at hrest
        exact absurd hrest List.not_mem_nil
      all_goals rw [hstage] at hover; cases hover
    · exact Or.inr (Or.inl ho)
  · intro hflag
    obtain ⟨o, ho, hmarks⟩ := h.handed hflag
    exact ⟨o, List.mem_append_left _ ho, hmarks⟩
  · intro o ho
    exact List.mem_append_right _ ho

/-- The answer to the peer is noted when its frame is published. -/
theorem Cancelling.publish (h : s.Cancelling) (hw : s.Wired config) {outbound : Outbound}
    {rest : List Outbound} {writtenAt : ℕ}
    (hstage : s.writer.stage = .publishing (outbound :: rest)) :
    (s.publishFrame outbound writtenAt rest).Cancelling := by
  have hstaged := hw.writer.stage
  rw [Writer.Staged, hstage] at hstaged
  obtain ⟨⟨written, hstatus⟩, -⟩ := hstaged
  have hunpublished : s.writer.unpublished = outbound :: rest := by
    rw [Writer.unpublished, hstage]
  have hunhanded : unhanded s.writer = [] := by
    rw [unhanded, hstatus]
  obtain ⟨heartbeatPending, heq⟩ := s.publishFrame_eq outbound writtenAt rest
  rw [heq]
  constructor
  · have hafter : unhanded { s.writer with stage := .signalling outbound.writtenTx rest } = [] := by
      rw [unhanded, hstatus]
    have horder := h.order
    rw [hunhanded] at horder
    change Cancelled (s.log.handed ++ unhanded { s.writer with stage := _ })
    rw [hafter]
    exact horder
  · intro o ho hmarks
    rcases h.answered o ho hmarks with hanswered | hrest | hover | hover
    · left
      change (s.peerTerminateResponseWritten || _) = true
      rw [hanswered, Bool.true_or]
    · rw [hunpublished] at hrest
      rcases List.mem_cons.mp hrest with rfl | hrest
      · left
        change (_ || o.marksPeerTerminateResponse) = true
        rw [hmarks, Bool.or_true]
      · exact Or.inr (Or.inl hrest)
    all_goals rw [hstage] at hover; cases hover
  · intro hflag
    rcases Bool.or_eq_true_iff.mp hflag with hflag | hmarks
    · exact h.handed hflag
    · have hmem : outbound ∈ s.writer.unpublished := hunpublished ▸ List.mem_cons_self
      exact ⟨outbound, h.unpublished outbound hmem, hmarks⟩
  · intro o ho
    exact h.unpublished o (hunpublished ▸ List.mem_cons_of_mem _ ho)

/-- No other task touches what the writer goes by. -/
theorem Cancelling.owned (h : s.Cancelling) (howned : s'.owned.writer = s.owned.writer)
    (hhanded : s'.owned.handed = s.owned.handed)
    (hanswered : s'.owned.answered = s.owned.answered) :
    s'.Cancelling := by
  have howned : s'.writer = s.writer := howned
  have hhanded : s'.log.handed = s.log.handed := hhanded
  have hanswered : s'.peerTerminateResponseWritten = s.peerTerminateResponseWritten := hanswered
  constructor
  · rw [howned, hhanded]
    exact h.order
  · rw [howned, hhanded, hanswered]
    exact h.answered
  · rw [hhanded, hanswered]
    exact h.handed
  · rw [howned, hhanded]
    exact h.unpublished

/-- A batch is over, with nothing of it left to hand over or to publish. -/
theorem Cancelling.afterBatch (h : s.Cancelling) (hunpublished : s.writer.unpublished = [])
    (hgoes : s.writer.stage ≠ .failing ∧ s.writer.stage ≠ .stopped) : s.afterBatch.Cancelling := by
  refine h.keep rfl rfl ?_ ?_ hgoes
  · exact List.nil_sublist _
  · rw [hunpublished, Writer.unpublished]
    cases hmarker : s.writer.pendingMarker with
    | none => simp [Connection.afterBatch, hmarker]
    | some marker => simp [Connection.afterBatch, hmarker]

/-- The claims only take frames out of the batch. -/
theorem Cancelling.claim (h : s.Cancelling) (hw : s.Wired config)
    (hstage : s.writer.stage = .assembled) : s.claimBatch.Cancelling := by
  have hstaged := hw.writer.stage
  rw [Writer.Staged, hstage] at hstaged
  have hold : unhanded s.writer = s.writer.batch := by
    rw [unhanded, hstaged]
  refine h.keep rfl rfl ?_ ?_ ?_
  · rw [hold]
    change (claimSubmitAttempts _ _ _).2.Sublist _
    rw [claimSubmitAttempts_eq]
    exact Compaction.sweep_sublist _ _
  · simp [claimBatch, Writer.unpublished, hstage]
  · simp [hstage]

theorem Cancelling.giveUp (h : s.Cancelling) : (s.finish.setStage .stopped).Cancelling := by
  have hfinish : s.finish.log.handed = s.log.handed ∧ s.finish.writer = s.writer ∧
      s.finish.peerTerminateResponseWritten = s.peerTerminateResponseWritten := by
    rw [finish_eq]
    exact ⟨rfl, rfl, rfl⟩
  refine h.over hfinish.1 hfinish.2.2 ?_ (Or.inr rfl)
  change (unhanded { s.finish.writer with stage := .stopped }).Sublist _
  rw [hfinish.2.1]
  exact List.Sublist.refl _

/-- The writer asks the queues: the batch stays as it is. -/
theorem Cancelling.asked (h : s.Cancelling) {allowed : Bool}
    (hasks : s.writer.stage.asks = some allowed) (hhanded : s'.log.handed = s.log.handed)
    (hanswered : s'.peerTerminateResponseWritten = s.peerTerminateResponseWritten)
    (hunhanded : unhanded s'.writer = unhanded s.writer) (hempty : s'.writer.unpublished = []) :
    s'.Cancelling := by
  obtain ⟨hnone, hgoes⟩ := unpublished_of_asks hasks
  exact h.keep hhanded hanswered (hunhanded ▸ .refl _) (hempty.trans hnone.symm) hgoes

/-- The writer has a frame in its hand, and the batch stays as it is. -/
theorem Cancelling.held (h : s.Cancelling) {outbound : Outbound}
    (hhand : s.writer.stage.hand = some outbound) (hhanded : s'.log.handed = s.log.handed)
    (hanswered : s'.peerTerminateResponseWritten = s.peerTerminateResponseWritten)
    (hunhanded : unhanded s'.writer = unhanded s.writer) (hempty : s'.writer.unpublished = []) :
    s'.Cancelling := by
  obtain ⟨hnone, hgoes⟩ := unpublished_of_hand hhand
  exact h.keep hhanded hanswered (hunhanded ▸ .refl _) (hempty.trans hnone.symm) hgoes

theorem Cancelling.writerNext (h : s.Cancelling) (hw : s.Wired config) {event : WriterEvent}
    (hnext : s.writerNext config event = some s')
    (hseparates : s.separates (.writer event) = true) :
    s'.Cancelling := by
  cases writerNext_move hnext with
  | stop event hphase => exact h.over rfl rfl (List.Sublist.refl _) (Or.inr rfl)
  | failWrite hstage => exact h.over rfl rfl (List.Sublist.refl _) (Or.inl rfl)
  | fail writer outbound hhand hstatus hbatch hfailing =>
    have hsame : unhanded writer = unhanded s.writer := by
      rw [unhanded, unhanded, hstatus, hbatch]
    exact h.over rfl rfl (hsame ▸ List.Sublist.refl _) (Or.inl hfailing)
  | giveUp hstage => exact h.giveUp
  | push outbound hstage =>
    refine h.push hw hstage (fun hcancel => ?_) hseparates
    simp only [Connection.writerNext, writerAdvance, hstage, Option.some.injEq] at hnext
    apply push_cancels config hcancel
    rw [hnext]
    exact fun hbatch => absurd (List.append_right_eq_self.mp hbatch) (List.cons_ne_nil _ _)
  | publish outbound rest heartbeatPending answered terminateWritten hstage hsize =>
    simp only [Connection.writerNext, writerAdvance, hstage] at hnext
    split at hnext
    · next writtenAt _ =>
      rw [← Option.some.inj hnext]
      exact h.publish hw hstage
    · cases hnext
  | hand hstage => exact h.hand hw hstage
  | claim hstage => exact h.claim hw hstage
  | dropBatch hstage hbatch =>
    apply h.afterBatch
    · rw [Writer.unpublished, hstage]
    · simp [hstage]
  | endBatch hstage =>
    apply h.afterBatch
    · rw [Writer.unpublished, hstage]
    · simp [hstage]
  | written hstage =>
    refine h.keep rfl rfl ?_ ?_ ?_
    · exact List.nil_sublist _
    · rw [Writer.unpublished, Writer.unpublished, hstage]
    · simp [hstage]
  | complete writtenAt hstage hstatus =>
    refine h.keep rfl rfl ?_ ?_ ?_
    · exact List.nil_sublist _
    · rw [Writer.unpublished, Writer.unpublished, hstage]
    · simp [hstage]
  | signal writtenTx rest hstage =>
    refine h.keep rfl rfl (List.Sublist.refl _) ?_ ?_
    · simp [Writer.unpublished, setStage, hstage]
    · simp [hstage]
  | assemble hstage =>
    refine h.keep rfl rfl (List.Sublist.refl _) ?_ ?_
    · rcases hstage with hstage | ⟨_, hstage⟩
      all_goals simp [Writer.unpublished, setStage, hstage]
    · rcases hstage with hstage | ⟨_, hstage⟩
      all_goals simp [hstage]
  | top canSendSubmit hstage =>
    rcases hstage with hstage | hstage
    all_goals exact h.asked (congrArg WriterStage.asks hstage) rfl rfl rfl rfl
  | takeSubmit _ _ _ hasks | takeControl _ _ _ hasks => exact h.asked hasks rfl rfl rfl rfl
  | second _ hstage | again _ hstage | pickSecond _ hstage =>
    exact h.asked (congrArg WriterStage.asks hstage) rfl rfl rfl rfl
  | marker _ _ hstage | screened _ _ _ hstage | stale _ _ _ hstage | skip _ hstage
    | admitOutbound _ hstage | cancel _ hstage =>
    exact h.held (congrArg WriterStage.hand hstage) rfl rfl rfl rfl
  | select hstage | pick hstage | answer hstage | signalMarker hstage =>
    refine h.keep rfl rfl (List.Sublist.refl _) ?_ ?_
    · simp [Writer.unpublished, setStage, hstage]
    · simp [hstage]

theorem Cancelling.next (h : s.Cancelling) (hsound : s.Sound config) {event : ConnectionEvent}
    (hnext : next gbk config s event = some s') (hseparates : s.separates event = true) :
    s'.Cancelling := by
  cases event with
  | writer event => exact h.writerNext hsound.wired hnext hseparates
  | _ =>
    have howned := next_owned hnext
    apply h.owned
    all_goals rw [howned]

/-- The same frames are cancelled as if each frame was written before the next is taken up. -/
theorem Cancelling.verdict (h : s.Cancelling) {outbound : Outbound}
    (hstage : s.writer.stage = .admitted outbound)
    (hseparates : s.separates (.writer .advance) = true)
    (hcancel : outbound.cancelAfterPeerTerminate = true) :
    s.peerTerminateResponseWritten = true ↔
      ∃ o ∈ s.log.handed ++ s.writer.batch, o.marksPeerTerminateResponse = true := by
  constructor
  · intro hflag
    obtain ⟨o, ho, hmarks⟩ := h.handed hflag
    exact ⟨o, List.mem_append_left _ ho, hmarks⟩
  · rintro ⟨o, ho, hmarks⟩
    by_contra hflag
    have hflag := Bool.eq_false_of_not_eq_true hflag
    rcases List.mem_append.mp ho with ho | ho
    · rcases h.answered o ho hmarks with hanswered | hrest | hover | hover
      · rw [hflag] at hanswered
        cases hanswered
      · rw [Writer.unpublished, hstage] at hrest
        exact absurd hrest List.not_mem_nil
      all_goals rw [hstage] at hover; cases hover
    · have hany : s.writer.batch.any Outbound.marksPeerTerminateResponse = true :=
        List.any_eq_true.mpr ⟨o, ho, hmarks⟩
      rw [separates, hstage] at hseparates
      simp only [hcancel, hflag, hany] at hseparates
      cases hseparates

theorem cancelling_initial (clock : ℕ) (udhCounter : UInt32) :
    (initial config clock udhCounter).Cancelling := by
  constructor
  · exact List.Pairwise.nil
  · intro o ho
    exact absurd ho List.not_mem_nil
  · nofun
  · intro o ho
    exact absurd ho List.not_mem_nil

/-- While no local TERMINATE is put into a batch with the answer to the peer, none is written
behind that answer, and one that is taken up is passed over if and only if the answer is before
it. -/
theorem terminate_cancelled {clock : ℕ} {udhCounter : UInt32} {events : List ConnectionEvent}
    (hrun : ((machine gbk config clock udhCounter).restrict fun s e =>
      s.separates e = true).Run events s) :
    Cancelled s.log.handed ∧ ∀ outbound, s.writer.stage = .admitted outbound →
      s.separates (.writer .advance) = true → outbound.cancelAfterPeerTerminate = true →
      (s.peerTerminateResponseWritten = true ↔
        ∃ o ∈ s.log.handed ++ s.writer.batch, o.marksPeerTerminateResponse = true) := by
  have hinv : s.Sound config ∧ s.Cancelling := by
    refine hrun.invariant (I := fun _ s => s.Sound config ∧ s.Cancelling) ?_ ?_
    · rintro s rfl
      exact ⟨sound_initial config clock udhCounter, cancelling_initial clock udhCounter⟩
    · rintro events s event s' ⟨hsound, h⟩ ⟨hnext, hseparates⟩
      exact ⟨hsound.next hnext, h.next hsound hnext hseparates⟩
  obtain ⟨-, h⟩ := hinv
  constructor
  · exact h.order.sublist (List.sublist_append_left _ _)
  · exact fun outbound hstage hseparates hcancel => h.verdict hstage hseparates hcancel

/-- A caller closes the connection, and the peer asks for the end before the TERMINATE of this
side is queued. -/
def crossTerminates : List ConnectionEvent :=
  [.closer .close, .closer .markerGivenUp, .closer .clearDrain, .closer .leaseTerminate,
    .reader (.terminate 9), .reader .answerTerminate]

/-- Whether the writer is about to put a local TERMINATE into its batch. -/
def holdsTerminate (s : Connection) : Bool :=
  match s.writer.stage with
  | .admitted outbound => outbound.cancelAfterPeerTerminate
  | _ => false

/-- The answer is written before the TERMINATE of this side is queued. -/
theorem terminate_cancelled_later : ∃ events s,
    ((machine asciiGbk smallConfig 0 0).restrict fun s e => s.separates e = true).Run events s ∧
      (s.holdsTerminate = true ∧ s.separates (.writer .advance) = true ∧
        s.log.handed.map Outbound.marksPeerTerminateResponse = [true]) ∧
      Cancelled s.log.handed ∧ ∀ outbound, s.writer.stage = .admitted outbound →
        s.separates (.writer .advance) = true → outbound.cancelAfterPeerTerminate = true →
        (s.peerTerminateResponseWritten = true ↔
          ∃ o ∈ s.log.handed ++ s.writer.batch, o.marksPeerTerminateResponse = true) := by
  have hexec : (Machine.exec
      (fun s e => if s.separates e then next asciiGbk smallConfig s e else none)
      (initial smallConfig 0 0) (crossTerminates ++ List.replicate 10 (.writer .advance) ++
        .writer .written :: List.replicate 5 (.writer .advance) ++
        .closer .sendTerminate :: List.replicate 3 (.writer .advance))).map
      (fun s => (s.holdsTerminate, s.separates (.writer .advance),
        s.log.handed.map Outbound.marksPeerTerminateResponse)) = some (true, true, [true]) := by
    decide +kernel
  obtain ⟨s, hrun, hview⟩ := Machine.exists_run_restrict_of_exec _ hexec
  have hholds := congrArg Prod.fst hview
  have hseparates := congrArg (fun p => p.2.1) hview
  have hhanded := congrArg (fun p => p.2.2) hview
  exact ⟨_, s, hrun, ⟨hholds, hseparates, hhanded⟩, terminate_cancelled hrun⟩

/-- Both frames are queued when the writer begins its batch: the TERMINATE follows the answer. -/
theorem terminate_follows_answer : ∃ events s, (machine asciiGbk smallConfig 0 0).Run events s ∧
    ¬ Cancelled s.log.handed ∧
    s.log.handed.map Outbound.marksPeerTerminateResponse = [true, false] ∧
      s.log.handed.map Outbound.cancelAfterPeerTerminate = [false, true] := by
  have hexec : (Machine.exec (next asciiGbk smallConfig) (initial smallConfig 0 0)
      (crossTerminates ++ .closer .sendTerminate :: List.replicate 15 (.writer .advance))).map
      (fun s => s.log.handed.map fun o =>
        (o.marksPeerTerminateResponse, o.cancelAfterPeerTerminate)) =
          some [(true, false), (false, true)] := by decide +kernel
  obtain ⟨s, hrun, hview⟩ := Machine.exists_run_of_exec _ hexec
  have hmarks := congrArg (List.map Prod.fst) hview
  have hcancels := congrArg (List.map Prod.snd) hview
  rw [List.map_map] at hmarks hcancels
  refine ⟨_, s, hrun, fun hcancelled => ?_, hmarks, hcancels⟩
  have hpairs : (s.log.handed.map fun o =>
      (o.marksPeerTerminateResponse, o.cancelAfterPeerTerminate)).Pairwise
        fun a b => a.1 = true → b.2 = false := List.pairwise_map.mpr hcancelled
  rw [hview] at hpairs
  exact absurd hpairs (by decide)

end Connection

end CmppProtocol
