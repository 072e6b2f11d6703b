import CmppProtocol.Connection.Schedule

/-! # The limits of a batch

A frame is taken for a batch only below both limits, so that a batch has at most
the configured number of frames and only its last frame may pass the number of
octets.
-/

namespace CmppProtocol

namespace Connection

variable {gbk : Gbk} {config : ConnectionConfig} {s s' : Connection} {r : WriterRecord}
  {event : ConnectionEvent}

def octets (batch : List Outbound) : ℕ :=
  Greedy.weight (fun outbound : Outbound => outbound.packet.length) batch

/-- How full the batch is while it is collected: a frame is taken only below both limits. -/
def Limited (config : ConnectionConfig) (writer : Writer) : Prop :=
  match writer.stage with
  | .received _ _ | .screened _ | .admitted _ | .picking _ | .pickingSecond _ =>
    writer.batchBytes = octets writer.batch ∧
      writer.batch.length < config.writeBatchMaxFrames ∧
      writer.batchBytes < config.writeBatchMaxBytes
  | .harvesting | .assembled =>
    writer.batchBytes = octets writer.batch ∧
      writer.batch.length ≤ config.writeBatchMaxFrames ∧
      octets writer.batch.dropLast < config.writeBatchMaxBytes
  | .top | .selecting _ | .selectingSecond _ | .answering | .signallingMarker =>
    writer.batchBytes = 0
  | _ => True

theorem octets_concat (batch : List Outbound) (outbound : Outbound) :
    octets (batch ++ [outbound]) = octets batch + outbound.packet.length := by
  rw [octets, Greedy.weight_append, Greedy.weight_singleton]
  rfl

theorem octets_dropLast_le (batch : List Outbound) : octets batch.dropLast ≤ octets batch := by
  rcases List.eq_nil_or_concat batch with rfl | ⟨front, last, rfl⟩
  · exact Nat.le_refl _
  · rw [List.concat_eq_append, List.dropLast_concat, octets_concat]
    exact Nat.le_add_right _ _

theorem Limited.over {writer writer' : Writer} (hbatch : writer'.batch = writer.batch)
    (hbytes : writer'.batchBytes = writer.batchBytes)
    (h : writer.batchBytes = octets writer.batch ∧
      writer.batch.length < config.writeBatchMaxFrames ∧
      writer.batchBytes < config.writeBatchMaxBytes) :
    writer'.batchBytes = octets writer'.batch ∧
      writer'.batch.length ≤ config.writeBatchMaxFrames ∧
      octets writer'.batch.dropLast < config.writeBatchMaxBytes := by
  obtain ⟨hsize, hlength, hlimit⟩ := h
  rw [hbatch, hbytes]
  refine ⟨hsize, hlength.le, ?_⟩
  exact (octets_dropLast_le _).trans_lt (hsize ▸ hlimit)

/-- Taking a frame: the batch is new or has room. -/
theorem limited_take (hw : s.Wired config) (h : Limited config s.writer) {allowed : Bool}
    (hasks : s.writer.stage.asks = some allowed) :
    s.writer.batchBytes = octets s.writer.batch ∧
      s.writer.batch.length < config.writeBatchMaxFrames ∧
      s.writer.batchBytes < config.writeBatchMaxBytes := by
  have hstaged := hw.writer.stage
  rw [Writer.Staged] at hstaged
  have hempty (hbatch : s.writer.batch = []) (hbytes : s.writer.batchBytes = 0) :
      s.writer.batchBytes = octets s.writer.batch ∧
        s.writer.batch.length < config.writeBatchMaxFrames ∧
        s.writer.batchBytes < config.writeBatchMaxBytes := by
    rw [hbatch, hbytes]
    exact ⟨rfl, config.writeBatchMaxFrames_pos, config.writeBatchMaxBytes_pos⟩
  rw [Limited] at h
  cases hstage : s.writer.stage with
  | selecting _ | selectingSecond _ =>
    rw [hstage] at hstaged h
    exact hempty hstaged.2.1 h
  | picking _ | pickingSecond _ =>
    rw [hstage] at h
    exact h
  | _ =>
    rw [hstage] at hasks
    cases hasks

theorem afterBatch_next (s : Connection) :
    s.afterBatch.writer.stage = .answering ∨ s.afterBatch.writer.stage = .top := by
  simp only [afterBatch]
  split_ifs
  · exact Or.inl rfl
  · exact Or.inr rfl

theorem limited_afterBatch (s : Connection) : Limited config s.afterBatch.writer := by
  rw [Limited]
  rcases s.afterBatch_next with hstage | hstage
  · rw [hstage]
    rfl
  · rw [hstage]
    rfl

theorem limited_move (hw : s.Wired config) (h : Limited config s.writer) {event : WriterEvent}
    (hnext : s.writerNext config event = some s') : Limited config s'.writer := by
  have hlimited := h
  rw [Limited] at h
  cases writerNext_move hnext with
  | stop _ hphase => exact trivial
  | top canSendSubmit hstage =>
    rcases hstage with hstage | hstage
    · rw [hstage] at h
      exact h
    · rw [hstage] at h
      exact h
  | takeSubmit allowed outbound submitQueue hasks hqueue =>
    have htake := limited_take hw hlimited hasks
    exact htake
  | takeControl allowed outbound controlQueue hasks hqueue =>
    have htake := limited_take hw hlimited hasks
    exact htake
  | fail writer outbound hhand hstatus hbatch hfailing =>
    change Limited config writer
    rw [Limited, hfailing]
    trivial
  | marker outbound isSubmit hstage hmarker =>
    rw [hstage] at h
    exact Limited.over rfl rfl h
  | stale outbound isSubmit heartbeatPending hstage hattempt hsize =>
    rw [hstage] at h
    exact Limited.over rfl rfl h
  | skip outbound hstage hopenOnly hphase =>
    rw [hstage] at h
    exact Limited.over rfl rfl h
  | cancel outbound hstage hcancel =>
    rw [hstage] at h
    exact Limited.over rfl rfl h
  | push outbound hstage =>
    rw [hstage] at h
    obtain ⟨hsize, hlength, hlimit⟩ := h
    refine ⟨?_, ?_, ?_⟩
    · exact (congrArg (· + outbound.packet.length) hsize).trans (octets_concat _ _).symm
    · exact List.length_append.trans_le hlength
    · exact (congrArg octets List.dropLast_concat).trans_lt (hsize ▸ hlimit)
  | pick hstage =>
    rw [hstage] at h
    obtain ⟨hsize, _, _⟩ := h
    rw [Connection.writerNext, writerAdvance, hstage] at hnext
    dsimp only at hnext
    split_ifs at hnext with hfull
    · have hsame := congrArg (fun t : Connection => t.writer.stage) (Option.some.inj hnext)
      cases hsame
    · rw [not_or, not_le, not_le] at hfull
      exact ⟨hsize, hfull⟩
  | assemble hstage =>
    rcases hstage with hstage | ⟨allowed, hstage⟩
    · rw [hstage] at h
      exact h
    · rw [hstage] at h
      exact Limited.over rfl rfl h
  | dropBatch hstage hbatch => exact s.limited_afterBatch
  | endBatch hstage => exact s.limited_afterBatch
  | claim hstage | hand hstage | written hstage | failWrite hstage | complete _ hstage _
  | publish _ _ _ _ _ hstage _ | signal _ _ hstage | giveUp hstage => exact trivial
  | select hstage | second _ hstage _ | again _ hstage _ | pickSecond _ hstage
  | screened _ _ _ hstage _ _ | admitOutbound _ hstage | answer hstage | signalMarker hstage =>
    rw [hstage] at h
    exact h

theorem claims_none (h : s'.writer.stage ≠ .claimed) : s.claims s' = none :=
  if_neg fun hstages => h hstages.2

theorem handed_keep (hhanded : s'.log.handed = s.log.handed)
    (hclaimed : claimedBatch s'.writer = claimedBatch s.writer)
    (hstage : s'.writer.stage ≠ .claimed) :
    s'.log.handed ++ claimedBatch s'.writer = s.log.handed ++ claimedBatch s.writer ++
      ((s.claims s').toList.map Prod.snd).flatten := by
  rw [claims_none hstage, hhanded, hclaimed]
  exact (List.append_nil _).symm

/-- What is handed to the socket is what was claimed for the batches. -/
theorem handed_move (hw : s.Wired config) {event : WriterEvent} (hmove : WriterMove s event s') :
    s'.log.handed ++ claimedBatch s'.writer = s.log.handed ++ claimedBatch s.writer ++
      ((s.claims s').toList.map Prod.snd).flatten := by
  have hstaged := hw.writer.stage
  rw [Writer.Staged] at hstaged
  have hafter : s.afterBatch.writer.stage ≠ .claimed := by
    rcases s.afterBatch_next with hstage | hstage
    · rw [hstage]
      rintro ⟨⟩
    · rw [hstage]
      rintro ⟨⟩
  cases hmove with
  | claim hstage =>
    rw [hstage] at hstaged
    have hold : claimedBatch s.writer = [] := if_neg (by rw [hstaged]; rintro ⟨⟩)
    have hclaims : s.claims s.claimBatch = some (s.writer.batch, s.claimBatch.writer.batch) :=
      if_pos ⟨hstage, rfl⟩
    rw [hold, hclaims, List.append_nil]
    exact congrArg (s.log.handed ++ ·) (List.append_nil _).symm
  | hand hstage =>
    rw [hstage] at hstaged
    have hold : claimedBatch s.writer = s.writer.batch := if_pos hstaged
    rw [hold, claims_none]
    · exact (List.append_nil _).trans (List.append_nil _).symm
    · rintro ⟨⟩
  | dropBatch hstage hbatch =>
    have hold : claimedBatch s.writer = [] := by
      rw [claimedBatch, hbatch, ite_self]
    exact handed_keep rfl hold.symm hafter
  | endBatch hstage =>
    rw [hstage] at hstaged
    obtain ⟨⟨writtenAt, hstatus⟩, _⟩ := hstaged
    have hold : claimedBatch s.writer = [] := if_neg (by rw [hstatus]; rintro ⟨⟩)
    exact handed_keep rfl hold.symm hafter
  | written hstage =>
    rw [hstage] at hstaged
    have hold : claimedBatch s.writer = [] := if_neg (by rw [hstaged]; rintro ⟨⟩)
    exact handed_keep rfl hold.symm (by rintro ⟨⟩)
  | complete writtenAt hstage hstatus =>
    have hold : claimedBatch s.writer = [] := if_neg (by rw [hstatus]; rintro ⟨⟩)
    exact handed_keep rfl hold.symm (by rintro ⟨⟩)
  | push outbound hstage =>
    rw [hstage] at hstaged
    have hold : claimedBatch s.writer = [] := if_neg (by rw [hstaged.1]; rintro ⟨⟩)
    refine handed_keep rfl (Eq.trans ?_ hold.symm) (by rintro ⟨⟩)
    exact if_neg (by rw [hstaged.1]; rintro ⟨⟩)
  | giveUp hstage =>
    rw [finish_eq]
    exact handed_keep rfl rfl (by rintro ⟨⟩)
  | fail writer outbound hhand hstatus hbatch hfailing =>
    refine handed_keep rfl ?_ (by rw [hfailing]; rintro ⟨⟩)
    rw [claimedBatch, claimedBatch, hstatus, hbatch]
  | _ => exact handed_keep rfl rfl (by rintro ⟨⟩)

structure Batched (config : ConnectionConfig) (r : WriterRecord) (s : Connection) : Prop where
  limited : Limited config s.writer
  handed : s.log.handed ++ claimedBatch s.writer = (r.batches.map Prod.snd).flatten
  limits : ∀ p ∈ r.batches, p.2.Sublist p.1 ∧ p.1.length ≤ config.writeBatchMaxFrames ∧
    octets p.1.dropLast < config.writeBatchMaxBytes

theorem batched_initial (config : ConnectionConfig) (clock : ℕ) (udhCounter : UInt32) :
    Batched config .nothing (initial config clock udhCounter) :=
  ⟨rfl, rfl, List.forall_mem_nil _⟩

theorem Batched.next (h : Batched config r s) (hw : s.Wired config)
    (hnext : Connection.next gbk config s event = some s') :
    Batched config (record r s event s') s' := by
  by_cases hwriter : ∃ e, event = .writer e
  · obtain ⟨e, rfl⟩ := hwriter
    have hmove := writerNext_move hnext
    refine ⟨limited_move hw h.limited hnext, ?_, List.forall_mem_append.mpr ⟨h.limits, ?_⟩⟩
    · rw [handed_move hw hmove, h.handed, record, List.map_append, List.flatten_append]
    · intro p hp
      rw [Option.mem_toList, claims] at hp
      split_ifs at hp with hstages
      · cases hp
        obtain ⟨hassembled, _⟩ := hstages
        have hlimited := h.limited
        rw [Limited, hassembled] at hlimited
        refine ⟨?_, hlimited.2⟩
        rw [eq_claimBatch hassembled hnext]
        change (claimSubmitAttempts _ _ _).2.Sublist _
        rw [claimSubmitAttempts_eq]
        exact Compaction.sweep_sublist _ _
  · have hfeeds := feeds_next (not_exists.mp hwriter) hnext
    have hclaims := claims_same hfeeds.writer
    refine ⟨by rw [hfeeds.writer]; exact h.limited, ?_, ?_⟩
    · rw [record, hclaims, hfeeds.handed, hfeeds.writer]
      exact h.handed.trans (by rw [Option.toList_none, List.append_nil])
    · rw [record, hclaims]
      exact fun p hp => h.limits p (by rwa [Option.toList_none, List.append_nil] at hp)

end Connection

end CmppProtocol
