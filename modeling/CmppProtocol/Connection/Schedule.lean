import CmppProtocol.Connection.Feeding
import CmppProtocol.Connection.Progress

/-! # What the writer takes up

A record beside the run notes what is put into the two queues, which frames the
writer takes from them, which frames it passes over and in which state, what it
collects and claims for every batch, and how long the submit queue waits.
-/

namespace CmppProtocol

structure WriterRecord where
  submitsPut : List Outbound
  controlsPut : List Outbound
  /-- The frames taken, and whether from the submit queue. -/
  taken : List (Outbound × Bool)
  /-- The frames passed over, each with the state in which it was. -/
  skipped : List (Outbound × Connection)
  /-- The frames collected for each batch, and those of them that were claimed. -/
  batches : List (List Outbound × List Outbound)
  /-- The control frames taken since the last frame of the submit queue, while SUBMITs could be
  sent and one was waiting. -/
  streak : ℕ

def WriterRecord.nothing : WriterRecord := ⟨[], [], [], [], [], 0⟩

/-- The frames that the writer has taken and not written. The drain marker is no frame. -/
def Writer.unwritten (writer : Writer) : List Outbound :=
  (match writer.status with
    | .collecting | .claimed | .handed => writer.batch
    | .written _ | .completed _ => []) ++
  writer.stage.hand.toList.filter fun outbound => !outbound.submitDrainMarker

namespace Connection

/-- The frame that a step takes from a queue, and whether from the submit queue. -/
def takes (s s' : Connection) : Option (Outbound × Bool) :=
  match s'.writer.stage with
  | .received outbound isSubmit =>
    if s.writer.stage.asks.isSome then some (outbound, isSubmit) else none
  | _ => none

/-- The frames that a step passes over: the one in the hand that does not go into the batch, and
those of the batch that are not claimed. -/
def skips (s s' : Connection) : List Outbound :=
  match s'.writer.stage with
  | .harvesting => if s'.writer.batch = s.writer.batch then s.writer.stage.hand.toList else []
  | .claimed =>
    if s.writer.stage = .assembled then
      s.writer.batch.filter fun outbound => outbound ∉ s'.writer.batch
    else []
  | _ => []

def claims (s s' : Connection) : Option (List Outbound × List Outbound) :=
  if s.writer.stage = .assembled ∧ s'.writer.stage = .claimed then
    some (s.writer.batch, s'.writer.batch)
  else none

/-- A SUBMIT may be sent and one is waiting. -/
def submitWaits (s : Connection) : Bool := s.canSendSubmit && !s.submitQueue.isEmpty

def streakAfter (s s' : Connection) (streak : ℕ) : ℕ :=
  if s'.submitWaits then
    match s.takes s' with
    | some (_, true) => 0
    | some (_, false) => streak + 1
    | none => streak
  else 0

/-- The record after a step. -/
def record (r : WriterRecord) (s : Connection) (_ : ConnectionEvent) (s' : Connection) :
    WriterRecord where
  submitsPut := r.submitsPut ++ s'.submitQueue.drop s.submitQueue.length
  controlsPut := r.controlsPut ++ s'.controlQueue.drop s.controlQueue.length
  taken := r.taken ++ (s.takes s').toList
  skipped := r.skipped ++ (s.skips s').map fun outbound => (outbound, s)
  batches := r.batches ++ (s.claims s').toList
  streak := s.streakAfter s' r.streak

/-- Why the writer may pass over a frame. -/
inductive Excused (s : Connection) (outbound : Outbound) : Prop
  | staleHeartbeat (key : HeartbeatAttemptKey) :
    outbound.heartbeatAttempt = some key →
    (∀ entry, s.heartbeatPending.find key.sequenceId = some entry →
      entry.heartbeatId = key.heartbeatId → entry.state ≠ .queued key.attempt) →
    Excused s outbound
  | staleSubmit (key : SubmitAttemptKey) :
    outbound.submitAttempt = some key →
    (∀ entry, s.pendingSubmits.find key.sequenceId = some entry →
      entry.submissionId = key.submissionId → entry.state ≠ .queued key.attempt) →
    Excused s outbound
  | notOpen : outbound.openOnly = true → s.phase ≠ .opened → Excused s outbound
  | barred : outbound.isSubmit = true → s.canSendSubmit = false → Excused s outbound
  | cancelled (packet : List UInt8) :
    outbound = .localTerminate packet → s.peerTerminateResponseWritten = true →
    Excused s outbound

variable {gbk : Gbk} {config : ConnectionConfig} {s s' : Connection} {r : WriterRecord}

/-! ## A step of another task -/

theorem takes_same (h : s'.writer = s.writer) : s.takes s' = none := by
  rw [takes, h]
  cases s.writer.stage with
  | _ => rfl

theorem skips_same (h : s'.writer = s.writer) : s.skips s' = [] := by
  rw [skips, h]
  cases s.writer.stage with
  | harvesting => exact if_pos rfl
  | _ => rfl

theorem claims_same (h : s'.writer = s.writer) : s.claims s' = none := by
  rw [claims, h]
  refine if_neg ?_
  rintro ⟨hstage, hstage'⟩
  cases hstage.symm.trans hstage'

/-! ## A step of the writer -/

theorem takes_of_asks {allowed isSubmit : Bool} {outbound : Outbound}
    (hasks : s.writer.stage.asks = some allowed)
    (hstage : s'.writer.stage = .received outbound isSubmit) :
    s.takes s' = some (outbound, isSubmit) := by
  simp only [takes, hstage, hasks, Option.isSome_some, if_true]

theorem takes_afterBatch (s : Connection) : s.takes s.afterBatch = none := by
  simp only [takes, afterBatch]
  split_ifs <;> rfl

/-- What a step of the writer does to the queues. -/
theorem takes_move {event : WriterEvent} (h : WriterMove s event s') :
    (∃ outbound, s.takes s' = some (outbound, true) ∧ s.submitQueue = outbound :: s'.submitQueue ∧
      s'.controlQueue = s.controlQueue) ∨
    (∃ outbound, s.takes s' = some (outbound, false) ∧
      s.controlQueue = outbound :: s'.controlQueue ∧ s'.submitQueue = s.submitQueue) ∨
    s.takes s' = none ∧ s'.submitQueue = s.submitQueue ∧ s'.controlQueue = s.controlQueue := by
  cases h with
  | takeSubmit allowed outbound submitQueue hasks hqueue =>
    exact Or.inl ⟨outbound, takes_of_asks hasks rfl, hqueue, rfl⟩
  | takeControl allowed outbound controlQueue hasks hqueue =>
    exact Or.inr (Or.inl ⟨outbound, takes_of_asks hasks rfl, hqueue, rfl⟩)
  | fail writer outbound hhand hstatus hbatch hfailing =>
    refine Or.inr (Or.inr ⟨?_, rfl, rfl⟩)
    simp only [takes, hfailing]
  | dropBatch hstage hbatch => exact Or.inr (Or.inr ⟨s.takes_afterBatch, rfl, rfl⟩)
  | endBatch hstage => exact Or.inr (Or.inr ⟨s.takes_afterBatch, rfl, rfl⟩)
  | giveUp hstage =>
    rw [finish_eq]
    exact Or.inr (Or.inr ⟨rfl, rfl, rfl⟩)
  | _ => exact Or.inr (Or.inr ⟨rfl, rfl, rfl⟩)

theorem failing_ends (hends : s.writer.stage = .failing ∨ s.writer.stage = .stopped)
    {event : WriterEvent} (hnext : s.writerNext config event = some s') :
    s'.phase = .closed ∧ s'.writer.stage = .stopped := by
  rcases hends with hstage | hstage
  · cases event with
    | advance =>
      rw [writerNext, writerAdvance, hstage] at hnext
      cases hnext
      rw [finish_eq]
      exact ⟨rfl, rfl⟩
    | closed =>
      rw [writerNext, hstage] at hnext
      split_ifs at hnext
    | _ =>
      rw [writerNext, hstage] at hnext
      cases hnext
  · cases event with
    | advance =>
      rw [writerNext, writerAdvance, hstage] at hnext
      cases hnext
    | closed =>
      rw [writerNext, hstage] at hnext
      split_ifs at hnext
    | _ =>
      rw [writerNext, hstage] at hnext
      cases hnext

/-! ## The claimed frames -/

/-- A batch holds at most one frame of each SUBMIT. -/
theorem Sound.batch_pairwise (h : s.Sound config) (hstatus : s.writer.status = .collecting) :
    s.writer.batch.Pairwise fun a b =>
      ∀ x, a.carries x = true → b.carries x = false := by
  refine List.pairwise_iff_forall_sublist.mpr fun {a b} hsub x ha => ?_
  by_contra hb
  rw [Bool.not_eq_false] at hb
  have hpair : ([a, b].filter (Outbound.carries x)).length = 2 := by
    rw [List.filter_cons_of_pos ha, List.filter_cons_of_pos hb]
    rfl
  have hbatch := (hsub.filter (Outbound.carries x)).length_le
  have hline : (s.writer.batch.filter (Outbound.carries x)).Sublist (s.window.life x).line := by
    change List.Sublist _ ((s.writer.taken ++ s.submitQueue.filter Outbound.standsInLine).filter _)
    rw [Writer.taken, if_pos hstatus, List.append_assoc, List.filter_append, Window.filter_carries]
    exact List.sublist_append_left _ _
  have hone : (s.window.life x).line.length ≤ 1 := by
    rcases h.lives x with hunused | ⟨a, n, _, hadmitted⟩
    · rw [hunused.line]
      exact Nat.zero_le 1
    · rcases hadmitted.line with hnil | ⟨hsingle, _⟩
      · rw [hnil]
        exact Nat.zero_le 1
      · rw [hsingle]
        exact Nat.le_refl 1
  have hle := hline.length_le
  omega

/-- Whether a frame is claimed does not depend on the other frames of its batch. -/
theorem Sound.claimed_eq (h : s.Sound config) (hstatus : s.writer.status = .collecting) :
    (claimSubmitAttempts s.canSendSubmit s.pendingSubmits s.writer.batch).2 =
      s.writer.batch.filter fun outbound =>
        (claimFrame s.canSendSubmit s.pendingSubmits outbound).1 := by
  rw [claimSubmitAttempts_eq]
  refine Compaction.sweep_filter ((h.batch_pairwise hstatus).imp fun {a b} hab pending => ?_)
  cases hkey : b.submitAttempt with
  | none => simp only [claimFrame, hkey]
  | some key =>
    have hb : b.carries key.sequenceId = true := by
      rw [Outbound.carries, hkey]
      exact decide_eq_true rfl
    have ha : a.carries key.sequenceId = false := by
      by_contra ha
      rw [Bool.not_eq_false] at ha
      rw [hab _ ha] at hb
      cases hb
    have hafter := claimFrame_own s.canSendSubmit (claimFrame s.canSendSubmit pending a).2 b hb
    rw [claimFrame_other _ _ a ha, claimFrame_own s.canSendSubmit pending b hb] at hafter
    exact (congrArg Prod.fst hafter).symm

/-! ## Where the frames go -/

/-- The frames among what was taken. -/
def frames (taken : List (Outbound × Bool)) : List Outbound :=
  (taken.map Prod.fst).filter fun outbound => !outbound.submitDrainMarker

/-- A step writes some of the frames that the writer has, keeps some and passes over the others;
a writer that fails loses frames. -/
def Flows (s s' : Connection) : Prop :=
  ∃ written, s'.log.written.map Prod.fst = s.log.written.map Prod.fst ++ written ∧
    (written ++ s'.writer.unwritten).Sublist (s.writer.unwritten ++ frames (s.takes s').toList) ∧
    (s'.writer.stage ≠ .failing → s'.phase ≠ .closed →
      (s.writer.unwritten ++ frames (s.takes s').toList).Perm
        (written ++ s'.writer.unwritten ++ s.skips s'))

theorem unwritten_congr {writer writer' : Writer} (hbatch : writer'.batch = writer.batch)
    (hstatus : writer'.status = writer.status) (hhand : writer'.stage.hand = writer.stage.hand) :
    writer'.unwritten = writer.unwritten := by
  rw [Writer.unwritten, Writer.unwritten, hbatch, hstatus, hhand]

theorem unwritten_collecting {writer : Writer} (hstatus : writer.status = .collecting) :
    writer.unwritten =
      writer.batch ++
        writer.stage.hand.toList.filter fun outbound => !outbound.submitDrainMarker := by
  rw [Writer.unwritten, hstatus]

theorem skips_afterBatch (s : Connection) : s.skips s.afterBatch = [] := by
  simp only [skips, afterBatch]
  split_ifs <;> rfl

theorem unwritten_afterBatch (s : Connection) : s.afterBatch.writer.unwritten = [] := by
  rw [Writer.unwritten, s.afterBatch_stage.1]
  rfl

theorem Flows.still (hwritten : s'.log.written = s.log.written)
    (hunwritten : s'.writer.unwritten = s.writer.unwritten) (htakes : s.takes s' = none)
    (hskips : s.skips s' = []) : s.Flows s' := by
  refine ⟨[], ?_, ?_, fun _ _ => ?_⟩
  · rw [hwritten, List.append_nil]
  · rw [hunwritten]
    exact List.sublist_append_left _ _
  · rw [hunwritten, htakes, hskips, List.append_nil]
    exact (List.append_nil _).symm ▸ List.Perm.refl _

/-- The writer fails or stops. -/
theorem Flows.lose (hwritten : s'.log.written = s.log.written)
    (hbatch : s'.writer.batch = s.writer.batch) (hstatus : s'.writer.status = s.writer.status)
    (hhand : s'.writer.stage.hand = none)
    (hends : s'.writer.stage = .failing ∨ s'.phase = .closed) : s.Flows s' := by
  refine ⟨[], ?_, ?_, fun hfailing hclosed => absurd hends (not_or.mpr ⟨hfailing, hclosed⟩)⟩
  · rw [hwritten, List.append_nil]
  · rw [List.nil_append, Writer.unwritten, Writer.unwritten, hbatch, hstatus, hhand,
      List.append_assoc]
    exact (List.nil_sublist _).append_left _

/-- The frame in the hand is passed over. -/
theorem Flows.drop {outbound : Outbound} (hwritten : s'.log.written = s.log.written)
    (hbatch : s'.writer.batch = s.writer.batch) (hstatus : s'.writer.status = s.writer.status)
    (hhand : s.writer.stage.hand = some outbound) (hmarker : outbound.submitDrainMarker = false)
    (hstage : s'.writer.stage = .harvesting) : s.Flows s' := by
  have htakes : s.takes s' = none := by
    simp only [takes, hstage]
  have hskips : s.skips s' = [outbound] := by
    simp only [skips, hstage, hbatch, hhand, if_true, Option.toList_some]
  have hold : s.writer.unwritten = s'.writer.unwritten ++ [outbound] := by
    have hkept : [outbound].filter (fun o => !o.submitDrainMarker) = [outbound] :=
      List.filter_cons_of_pos (by rw [hmarker]; rfl)
    rw [Writer.unwritten, Writer.unwritten, hbatch, hstatus, hhand, hstage,
      Option.toList_some, hkept]
    exact congrArg (· ++ [outbound]) (List.append_nil _).symm
  refine ⟨[], ?_, ?_, fun _ _ => ?_⟩
  · rw [hwritten, List.append_nil]
  · rw [hold, List.append_assoc]
    exact List.sublist_append_left _ _
  · rw [hold, htakes, hskips, List.nil_append]
    exact (List.append_nil _).symm ▸ List.Perm.refl _

theorem flows_take {allowed isSubmit : Bool} {outbound : Outbound}
    (hasks : s.writer.stage.asks = some allowed) (hwritten : s'.log.written = s.log.written)
    (hbatch : s'.writer.batch = s.writer.batch) (hstatus : s'.writer.status = s.writer.status)
    (hstage : s'.writer.stage = .received outbound isSubmit) : s.Flows s' := by
  have hhand : s.writer.stage.hand = none := by
    cases hold : s.writer.stage with
    | selecting _ | selectingSecond _ | picking _ | pickingSecond _ => rfl
    | _ =>
      rw [hold] at hasks
      cases hasks
  have hskips : s.skips s' = [] := by
    simp only [skips, hstage]
  have hnew : s'.writer.unwritten = s.writer.unwritten ++ frames (s.takes s').toList := by
    rw [takes_of_asks hasks hstage, Writer.unwritten, Writer.unwritten, hbatch, hstatus, hhand,
      hstage, List.append_assoc]
    rfl
  refine ⟨[], ?_, ?_, fun _ _ => ?_⟩
  · rw [hwritten, List.append_nil]
  · rw [hnew, List.nil_append]
  · rw [hnew, hskips, List.nil_append, List.append_nil]

theorem eq_claimBatch {event : WriterEvent} (hassembled : s.writer.stage = .assembled)
    (hnext : s.writerNext config event = some s') : s' = s.claimBatch := by
  cases event with
  | advance =>
    rw [writerNext, writerAdvance, hassembled] at hnext
    exact (Option.some.inj hnext).symm
  | closed =>
    rw [writerNext, hassembled] at hnext
    split_ifs at hnext
  | _ =>
    rw [writerNext, hassembled] at hnext
    cases hnext

/-- The frames of a batch that are claimed stay, the others are passed over. -/
theorem Sound.flows_claim (h : s.Sound config) (hstage : s.writer.stage = .assembled) :
    s.Flows s.claimBatch := by
  have hstatus : s.writer.status = .collecting := by
    have hstaged := h.wired.writer.stage
    rw [Writer.Staged, hstage] at hstaged
    exact hstaged
  have hold : s.writer.unwritten = s.writer.batch := by
    rw [unwritten_collecting hstatus, hstage]
    exact List.append_nil _
  have hkept : s.claimBatch.writer.unwritten = s.writer.batch.filter fun outbound =>
      (claimFrame s.canSendSubmit s.pendingSubmits outbound).1 := by
    rw [← h.claimed_eq hstatus]
    exact List.append_nil _
  have hskips : s.skips s.claimBatch = s.writer.batch.filter fun outbound =>
      !(claimFrame s.canSendSubmit s.pendingSubmits outbound).1 := by
    change (if s.writer.stage = .assembled then
      s.writer.batch.filter fun outbound => decide (outbound ∉
        (claimSubmitAttempts s.canSendSubmit s.pendingSubmits s.writer.batch).2) else []) = _
    rw [if_pos hstage, h.claimed_eq hstatus]
    refine List.filter_congr fun outbound hmem => ?_
    simp only [List.mem_filter, hmem, true_and]
    cases (claimFrame s.canSendSubmit s.pendingSubmits outbound).1 with
    | _ => rfl
  refine ⟨[], (List.append_nil _).symm, ?_, fun _ _ => ?_⟩
  · rw [hold, hkept]
    exact (List.filter_sublist).trans (List.sublist_append_left _ _)
  · rw [hold, hkept, hskips]
    exact (List.append_nil _).symm ▸ (List.filter_append_perm _ _).symm

/-- The marker is none of the frames to write. -/
theorem flows_marker {outbound : Outbound} {isSubmit : Bool}
    (hstage : s.writer.stage = .received outbound isSubmit)
    (hmarker : outbound.submitDrainMarker = true) :
    s.Flows { s.countBurst isSubmit with
      writer := { (s.countBurst isSubmit).writer with
        stage := .assembled, pendingMarker := some outbound } } := by
  refine .still rfl ?_ rfl rfl
  have hnone : [outbound].filter (fun o => !o.submitDrainMarker) = [] :=
    List.filter_cons_of_neg (by rw [hmarker]; rintro ⟨⟩)
  rw [Writer.unwritten, Writer.unwritten, hstage, WriterStage.hand_received, Option.toList_some,
    hnone]
  rfl

/-- A frame that carries a heartbeat is not the marker. -/
theorem Wired.not_marker (hw : s.Wired config) {outbound : Outbound} {isSubmit : Bool}
    (hstage : s.writer.stage = .received outbound isSubmit)
    (hattempt : outbound.heartbeatAttempt ≠ none) : outbound.submitDrainMarker = false := by
  have hstaged := hw.writer.stage
  rw [Writer.Staged, hstage] at hstaged
  obtain ⟨_, _, hqueued, hcontrol⟩ := hstaged
  cases isSubmit with
  | true =>
    rcases hqueued rfl with ⟨packet, key, rfl⟩ | rfl
    · rfl
    · exact absurd rfl hattempt
  | false => exact (hcontrol rfl).submitDrainMarker

/-- The frame in the hand goes to the end of the batch. -/
theorem flows_push (hw : s.Wired config) {outbound : Outbound}
    (hstage : s.writer.stage = .admitted outbound) :
    s.Flows { s with writer := { s.writer with
      stage := .harvesting
      batch := s.writer.batch ++ [outbound]
      batchBytes := s.writer.batchBytes + outbound.packet.length } } := by
  have hstaged := hw.writer.stage
  rw [Writer.Staged, hstage] at hstaged
  obtain ⟨hstatus, _, hframe⟩ := hstaged
  have hkept : [outbound].filter (fun o => !o.submitDrainMarker) = [outbound] :=
    List.filter_cons_of_pos (by rw [hframe.submitDrainMarker]; rfl)
  have hold : s.writer.unwritten = s.writer.batch ++ [outbound] := by
    rw [unwritten_collecting hstatus, hstage, WriterStage.hand_admitted, Option.toList_some, hkept]
  refine .still rfl ?_ rfl ?_
  · rw [hold, Writer.unwritten, hstatus]
    exact List.append_nil _
  · exact if_neg fun hsame =>
      List.cons_ne_nil outbound [] (List.self_eq_append_right.mp hsame.symm)

theorem flows_afterBatch (hempty : s.writer.unwritten = []) : s.Flows s.afterBatch :=
  .still rfl (s.unwritten_afterBatch.trans hempty.symm) s.takes_afterBatch s.skips_afterBatch

theorem flows_hand (hw : s.Wired config) (hstage : s.writer.stage = .claimed) :
    s.Flows { s with
      writer := { s.writer with stage := .writing, status := .handed }
      log := { s.log with handed := s.log.handed ++ s.writer.batch } } := by
  have hstaged := hw.writer.stage
  rw [Writer.Staged, hstage] at hstaged
  refine .still rfl ?_ rfl rfl
  have hold : s.writer.unwritten = s.writer.batch := by
    rw [Writer.unwritten, hstaged, hstage]
    exact List.append_nil _
  rw [hold]
  exact List.append_nil _

/-- The whole batch is written. -/
theorem flows_written (hw : s.Wired config) (hstage : s.writer.stage = .writing) :
    s.Flows { s with
      writer := { s.writer with stage := .wrote, status := .written s.clock }
      log := { s.log with
        written := s.log.written ++ s.writer.batch.map fun outbound => (outbound, s.clock) } } := by
  have hstaged := hw.writer.stage
  rw [Writer.Staged, hstage] at hstaged
  have hold : s.writer.unwritten = s.writer.batch := by
    rw [Writer.unwritten, hstaged, hstage]
    exact List.append_nil _
  refine ⟨s.writer.batch, ?_, ?_, fun _ _ => ?_⟩
  · simp only [List.map_append, List.map_map]
    exact congrArg (_ ++ ·) (List.map_id _)
  · rw [hold]
    exact List.Sublist.refl _
  · rw [hold]
    exact (List.append_nil (s.writer.batch ++ [])).symm ▸ List.Perm.refl _

theorem flows_giveUp (s : Connection) : s.Flows (s.finish.setStage .stopped) := by
  have hfeeds := s.feeds_finish
  have hclosed : s.finish.phase = .closed := by
    rw [finish_eq]
  have hbatch : s.finish.writer.batch = s.writer.batch := by rw [hfeeds.writer]
  have hstatus : s.finish.writer.status = s.writer.status := by rw [hfeeds.writer]
  exact .lose hfeeds.written hbatch hstatus rfl (Or.inr hclosed)

theorem Sound.flows_move (h : s.Sound config) {event : WriterEvent}
    (hmove : WriterMove s event s') : s.Flows s' := by
  have hstaged := h.wired.writer.stage
  rw [Writer.Staged] at hstaged
  cases hmove with
  | stop _ hphase => exact .lose rfl rfl rfl rfl (Or.inr hphase)
  | top canSendSubmit hstage =>
    refine .still rfl (unwritten_congr rfl rfl ?_) rfl rfl
    rcases hstage with hstage | hstage
    · rw [hstage]
      rfl
    · rw [hstage]
      rfl
  | takeSubmit allowed outbound submitQueue hasks hqueue => exact flows_take hasks rfl rfl rfl rfl
  | takeControl allowed outbound controlQueue hasks hqueue =>
    exact flows_take hasks rfl rfl rfl rfl
  | marker outbound isSubmit hstage hmarker => exact flows_marker hstage hmarker
  | fail writer outbound hhand hstatus hbatch hfailing =>
    exact .lose rfl hbatch hstatus (by rw [hfailing]; rfl) (Or.inl hfailing)
  | stale outbound isSubmit heartbeatPending hstage hattempt hsize =>
    exact .drop rfl rfl rfl (by rw [hstage]; rfl) (h.wired.not_marker hstage hattempt) rfl
  | skip outbound hstage hopenOnly hphase =>
    rw [hstage] at hstaged
    exact .drop rfl rfl rfl (by rw [hstage]; rfl) hstaged.2.2.submitDrainMarker rfl
  | cancel outbound hstage hcancel =>
    rw [hstage] at hstaged
    exact .drop rfl rfl rfl (by rw [hstage]; rfl) hstaged.2.2.submitDrainMarker rfl
  | push outbound hstage => exact flows_push h.wired hstage
  | claim hstage => exact h.flows_claim hstage
  | dropBatch hstage hbatch =>
    apply flows_afterBatch
    rw [Writer.unwritten, hstage, hbatch]
    split <;> rfl
  | hand hstage => exact flows_hand h.wired hstage
  | written hstage => exact flows_written h.wired hstage
  | failWrite hstage => exact .lose rfl rfl rfl rfl (Or.inl rfl)
  | complete writtenAt hstage hstatus =>
    refine .still rfl ?_ rfl rfl
    have hold : s.writer.unwritten = [] := by
      rw [Writer.unwritten, hstatus, hstage]
      rfl
    rw [hold]
    rfl
  | endBatch hstage =>
    rw [hstage] at hstaged
    obtain ⟨⟨writtenAt, hstatus⟩, _⟩ := hstaged
    apply flows_afterBatch
    rw [Writer.unwritten, hstage, hstatus]
    rfl
  | giveUp hstage => exact flows_giveUp s
  | screened _ _ _ hstage | admitOutbound _ hstage | publish _ _ _ _ _ hstage | signal _ _ hstage
    | select hstage | second _ hstage | again _ hstage | pickSecond _ hstage | pick hstage
    | answer hstage | signalMarker hstage =>
    exact .still rfl (unwritten_congr rfl rfl (by rw [hstage]; rfl)) rfl rfl
  | assemble hstage =>
    refine .still rfl (unwritten_congr rfl rfl ?_) rfl rfl
    rcases hstage with hstage | ⟨allowed, hstage⟩
    · rw [hstage]
      rfl
    · rw [hstage]
      rfl

/-! ## Why frames are passed over -/

/-- A frame of one of the queues. -/
def Known (outbound : Outbound) : Prop := outbound.FromTask ∨ outbound.IsQueued

theorem Known.openOnly {outbound : Outbound} (h : Known outbound) {key : HeartbeatAttemptKey}
    (hkey : outbound.heartbeatAttempt = some key) : outbound.openOnly = true := by
  rcases h with h | ⟨packet, submitKey, rfl⟩ | rfl
  · cases h with
    | heartbeat packet key => rfl
    | _ => cases hkey
  · cases hkey
  · cases hkey

theorem Known.localTerminate {outbound : Outbound} (h : Known outbound)
    (hcancel : outbound.cancelAfterPeerTerminate = true) :
    ∃ packet, outbound = .localTerminate packet := by
  rcases h with h | ⟨packet, submitKey, rfl⟩ | rfl
  · cases h with
    | localTerminate packet => exact ⟨packet, rfl⟩
    | _ => cases hcancel
  · cases hcancel
  · cases hcancel

theorem excused_of_unclaimed {outbound : Outbound} {isSubmit : Bool} (h : Known outbound)
    {key : HeartbeatAttemptKey} (hkey : outbound.heartbeatAttempt = some key)
    (hclaim : ((s.countBurst isSubmit).claimHeartbeatAttempt key).1 = false) :
    s.Excused outbound := by
  by_cases hphase : (s.countBurst isSubmit).phase = .opened
  · refine .staleHeartbeat key hkey fun entry hfind hid hstate => ?_
    have hsame : (s.countBurst isSubmit).heartbeatPending.find key.sequenceId = some entry := hfind
    rw [claimHeartbeatAttempt, if_neg (not_not.mpr hphase)] at hclaim
    simp only [hsame, hid, hstate, and_self, if_true, reduceCtorEq] at hclaim
  · exact .notOpen (h.openOnly hkey) hphase

theorem excused_of_screen {outbound : Outbound} {isSubmit : Bool} (h : Known outbound)
    (hstage : (s.screen outbound isSubmit).writer.stage = .harvesting) : s.Excused outbound := by
  rw [screen] at hstage
  split_ifs at hstage
  · cases hstage
  split at hstage
  · cases hstage
  · next key hkey =>
    cases hclaim : (s.countBurst isSubmit).claimHeartbeatAttempt key with
    | mk claimed t =>
      rw [hclaim] at hstage
      cases claimed with
      | true => cases hstage
      | false => exact excused_of_unclaimed h hkey (congrArg Prod.fst hclaim)

/-- A frame that is not claimed. -/
theorem excused_of_claimFrame {outbound : Outbound}
    (hclaim : (claimFrame s.canSendSubmit s.pendingSubmits outbound).1 = false) :
    s.Excused outbound := by
  rw [claimFrame] at hclaim
  split at hclaim
  · next key hkey =>
    rcases claimSubmitAttempt_cases s.canSendSubmit s.pendingSubmits key with
      ⟨entry, _, _, _, _, heq⟩ | ⟨hnot, _⟩
    · rw [heq] at hclaim
      cases hclaim
    · cases hallowed : s.canSendSubmit with
      | false => exact .barred (by rw [Outbound.isSubmit, hkey]; rfl) hallowed
      | true => exact .staleSubmit key hkey fun entry hfind => hnot entry hallowed hfind
  · cases hclaim

theorem excused_of_push {outbound : Outbound} (h : Known outbound)
    (hstage : (s.push config outbound).writer.stage = .harvesting)
    (hbatch : (s.push config outbound).writer.batch = s.writer.batch) : s.Excused outbound := by
  rw [push] at hstage hbatch
  split_ifs at hstage hbatch with hcancel
  · obtain ⟨packet, rfl⟩ := h.localTerminate hcancel.1
    exact .cancelled packet rfl hcancel.2
  have hne : s.writer.batch ++ [outbound] ≠ s.writer.batch := fun hsame =>
    List.cons_ne_nil outbound [] (List.self_eq_append_right.mp hsame.symm)
  cases hbudget : outbound.responseBudgetStartedAt with
  | none =>
    simp only [hbudget] at hbatch
    exact absurd hbatch hne
  | some startedAt =>
    simp only [hbudget] at hstage hbatch
    split_ifs at hstage hbatch
    · cases hstage
    · exact absurd hbatch hne

/-- Nothing but a frame that is out of date, not allowed or cancelled is passed over. -/
theorem Sound.skips_excused (h : s.Sound config) (hknown : s.Bears Known) {event : WriterEvent}
    (hnext : s.writerNext config event = some s') :
    ∀ outbound ∈ s.skips s', s.Excused outbound := by
  intro outbound hmem
  rw [skips] at hmem
  split at hmem
  · next hharvesting =>
    split_ifs at hmem with hbatch
    swap
    · cases hmem
    have hhand : s.writer.stage.hand = some outbound := Option.mem_toList.mp hmem
    have hunderway : Known outbound := by
      refine hknown outbound (List.mem_append_right _ (List.mem_append_right _ ?_))
      exact List.mem_append_left _ hmem
    cases event with
    | advance =>
      rw [writerNext, writerAdvance] at hnext
      cases hstage : s.writer.stage with
      | received o isSubmit =>
        rw [hstage] at hnext hhand
        cases hnext
        cases hhand
        exact excused_of_screen hunderway hharvesting
      | screened o =>
        rw [hstage] at hnext hhand
        cases hhand
        dsimp only at hnext
        split_ifs at hnext with hskip
        · exact .notOpen hskip.1 hskip.2
        · cases hnext
          cases hharvesting
      | admitted o =>
        rw [hstage] at hnext hhand
        cases hnext
        cases hhand
        exact excused_of_push hunderway hharvesting hbatch
      | _ =>
        rw [hstage] at hhand
        cases hhand
    | _ =>
      rw [writerNext] at hnext
      repeat' split at hnext
      all_goals cases hnext
      all_goals cases hharvesting
  · next =>
    split_ifs at hmem with hassembled
    swap
    · cases hmem
    have hstatus : s.writer.status = .collecting := by
      have hstaged := h.wired.writer.stage
      rw [Writer.Staged, hassembled] at hstaged
      exact hstaged
    obtain ⟨hbatch, hnot⟩ := List.mem_filter.mp hmem
    have hbatch' : s'.writer.batch = s.writer.batch.filter fun outbound =>
        (claimFrame s.canSendSubmit s.pendingSubmits outbound).1 := by
      rw [← h.claimed_eq hstatus, eq_claimBatch hassembled hnext]
      rfl
    have hunclaimed := of_decide_eq_true hnot
    rw [hbatch', List.mem_filter, not_and, Bool.not_eq_true] at hunclaimed
    exact excused_of_claimFrame (hunclaimed hbatch)
  · cases hmem

end Connection

end CmppProtocol
