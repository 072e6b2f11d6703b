import CmppProtocol.Connection.Batches
import CmppProtocol.Connection.Fairness

/-! # The writer between the queues and the socket

Frames leave each queue in the order in which they came. Each one is written
once or passed over for a reason; control frames pass a waiting SUBMIT only so
often; and the batches stay within their limits.
-/

namespace CmppProtocol

namespace Connection

variable {gbk : Gbk} {config : ConnectionConfig} {s s' : Connection} {r : WriterRecord}
  {event : ConnectionEvent}

/-! ## Accounts of the frames -/

theorem bears_known_next (h : s.Bears Known) (hw : s.Wired config)
    (hnext : next gbk config s event = some s') : s'.Bears Known := by
  by_cases hwriter : ∃ e, event = .writer e
  · obtain ⟨e, rfl⟩ := hwriter
    exact h.writerMove hw (fun _ => Or.inr) (writerNext_move hnext)
  · have hfeeds := feeds_next (not_exists.mp hwriter) hnext
    obtain ⟨sent, hsent, hbuilt⟩ := hfeeds.controls
    intro o ho
    rw [hfeeds.handed, underway, hfeeds.writer, hsent, ← List.append_assoc, ← List.append_assoc,
      ← List.append_assoc] at ho
    rcases List.mem_append.mp ho with ho | ho
    · rw [List.append_assoc, List.append_assoc] at ho
      exact h o ho
    · exact Or.inl (hbuilt o ho)

structure Accounted (r : WriterRecord) (s : Connection) : Prop where
  submits : (r.taken.filter fun p => p.2).map Prod.fst ++ s.submitQueue = r.submitsPut
  controls : (r.taken.filter fun p => !p.2).map Prod.fst ++ s.controlQueue = r.controlsPut
  origin : ∀ p ∈ r.taken, (p.2 = true → p.1.IsQueued) ∧ (p.2 = false → p.1.IsControl)
  order : (s.log.written.map Prod.fst ++ s.writer.unwritten).Sublist (frames r.taken)
  once : s.writer.stage ≠ .failing → s.phase ≠ .closed → (frames r.taken).Perm
    (s.log.written.map Prod.fst ++ s.writer.unwritten ++ r.skipped.map Prod.fst)
  excused : ∀ p ∈ r.skipped, p.2.Excused p.1

theorem accounted_initial (config : ConnectionConfig) (clock : ℕ) (udhCounter : UInt32) :
    Accounted .nothing (initial config clock udhCounter) where
  submits := rfl
  controls := rfl
  origin := List.forall_mem_nil _
  order := List.Sublist.refl _
  once := fun _ _ => List.Perm.refl _
  excused := List.forall_mem_nil _

theorem drop_of_prefix {α : Type*} {xs ys : List α} (h : xs <+: ys) :
    xs ++ ys.drop xs.length = ys :=
  (List.prefix_iff_eq_append.mp h)

theorem drop_of_cons {α : Type*} {x : α} {xs ys : List α} (h : xs = x :: ys) :
    ys.drop xs.length = [] := by
  rw [h]
  exact List.drop_eq_nil_of_le (Nat.le_succ _)

theorem frames_append (taken taken' : List (Outbound × Bool)) :
    frames (taken ++ taken') = frames taken ++ frames taken' := by
  rw [frames, List.map_append, List.filter_append]
  rfl

/-- The queues, the frames taken and the frames put agree after a step. -/
theorem Accounted.queues (h : Accounted r s) (hw : s.Wired config)
    (hnext : next gbk config s event = some s') :
    ((record r s event s').taken.filter fun p => p.2).map Prod.fst ++ s'.submitQueue =
      (record r s event s').submitsPut ∧
    ((record r s event s').taken.filter fun p => !p.2).map Prod.fst ++ s'.controlQueue =
      (record r s event s').controlsPut ∧
    ∀ p ∈ (record r s event s').taken,
      (p.2 = true → p.1.IsQueued) ∧ (p.2 = false → p.1.IsControl) := by
  simp only [record]
  by_cases hwriter : ∃ e, event = .writer e
  · obtain ⟨e, rfl⟩ := hwriter
    rcases takes_move (writerNext_move hnext) with ⟨o, htakes, hsubmit, hcontrol⟩ |
      ⟨o, htakes, hcontrol, hsubmit⟩ | ⟨htakes, hsubmit, hcontrol⟩
    · rw [htakes, drop_of_cons hsubmit, hcontrol, List.drop_length, List.append_nil,
        List.append_nil, ← h.submits, ← h.controls, hsubmit]
      refine ⟨?_, ?_, List.forall_mem_append.mpr ⟨h.origin, List.forall_mem_singleton.mpr ?_⟩⟩
      · simp
      · simp
      · exact ⟨fun _ => hw.submits o (hsubmit ▸ List.mem_cons_self), by rintro ⟨⟩⟩
    · rw [htakes, drop_of_cons hcontrol, hsubmit, List.drop_length, List.append_nil,
        List.append_nil, ← h.submits, ← h.controls, hcontrol]
      refine ⟨?_, ?_, List.forall_mem_append.mpr ⟨h.origin, List.forall_mem_singleton.mpr ?_⟩⟩
      · simp
      · simp
      · exact ⟨by rintro ⟨⟩, fun _ => hw.controls o (hcontrol ▸ List.mem_cons_self)⟩
    · rw [htakes, hsubmit, hcontrol, List.drop_length, List.drop_length, List.append_nil,
        List.append_nil, Option.toList_none, List.append_nil]
      exact ⟨h.submits, h.controls, h.origin⟩
  · have hfeeds := feeds_next (not_exists.mp hwriter) hnext
    obtain ⟨sent, hsent, -⟩ := hfeeds.controls
    rw [takes_same hfeeds.writer, Option.toList_none, List.append_nil, ← h.submits, ← h.controls,
      List.append_assoc, List.append_assoc, drop_of_prefix hfeeds.submits,
      drop_of_prefix ⟨sent, hsent.symm⟩]
    exact ⟨rfl, rfl, h.origin⟩

theorem Accounted.next (h : Accounted r s) (hsound : s.Sound config) (hknown : s.Bears Known)
    (hnext : Connection.next gbk config s event = some s') :
    Accounted (record r s event s') s' := by
  obtain ⟨hsubmits, hcontrols, horigin⟩ := h.queues hsound.wired hnext
  have hclosed := hsound.closed_of_next hnext
  have hflows : s.Flows s' ∧ (s.writer.stage = .failing → s'.writer.stage = .failing ∨
      s'.phase = .closed) ∧ ∀ o ∈ s.skips s', s.Excused o := by
    by_cases hwriter : ∃ e, event = .writer e
    · obtain ⟨e, rfl⟩ := hwriter
      exact ⟨hsound.flows_move (writerNext_move hnext), fun hfailing =>
        Or.inr (failing_ends (Or.inl hfailing) hnext).1, hsound.skips_excused hknown hnext⟩
    · have hfeeds := feeds_next (not_exists.mp hwriter) hnext
      refine ⟨.still hfeeds.written (by rw [hfeeds.writer]) (takes_same hfeeds.writer)
        (skips_same hfeeds.writer), fun hfailing => Or.inl (by rw [hfeeds.writer, hfailing]), ?_⟩
      rw [skips_same hfeeds.writer]
      exact List.forall_mem_nil _
  obtain ⟨⟨written, hwritten, horder, honce⟩, hfails, hexcused⟩ := hflows
  refine ⟨hsubmits, hcontrols, horigin, ?_, fun hfailing' hclosed' => ?_, ?_⟩
  · simp only [record, frames_append]
    rw [hwritten, List.append_assoc]
    refine (horder.append_left _).trans ?_
    rw [← List.append_assoc]
    exact h.order.append_right _
  · have hold := h.once (fun hfailing => (hfails hfailing).elim hfailing' hclosed')
      fun hphase => hclosed' (hclosed hphase)
    have hstep := honce hfailing' hclosed'
    have hskipped : ((s.skips s').map fun o => (o, s)).map Prod.fst = s.skips s' := by
      rw [List.map_map]
      exact List.map_id _
    simp only [record, frames_append, List.map_append, hskipped, hwritten]
    refine List.perm_iff_count.mpr fun o => ?_
    have hold := hold.count_eq o
    have hstep := hstep.count_eq o
    simp only [List.count_append] at hold hstep ⊢
    omega
  · refine List.forall_mem_append.mpr ⟨h.excused, fun p hp => ?_⟩
    obtain ⟨o, ho, rfl⟩ := List.mem_map.mp hp
    exact hexcused o ho

/-! ## The schedule -/

/-- The machine with the record of its writer. -/
def dispatchMachine (gbk : Gbk) (config : ConnectionConfig) (clock : ℕ) (udhCounter : UInt32) :
    Machine (Connection × WriterRecord) ConnectionEvent :=
  (machine gbk config clock udhCounter).recorded .nothing record

/-- What holds of the frames between the two queues and the socket. -/
structure Dispatched (config : ConnectionConfig) (r : WriterRecord) (s : Connection) : Prop
    extends Accounted r s where
  submitOrder : ((s.log.written.map Prod.fst).filter Outbound.isSubmit).Sublist r.submitsPut
  controlOrder :
    ((s.log.written.map Prod.fst).filter fun outbound => !outbound.isSubmit).Sublist r.controlsPut
  streak : r.streak ≤ CONTROL_BURST_LIMIT
  handed : s.log.handed ++ claimedBatch s.writer = (r.batches.map Prod.snd).flatten
  limits : ∀ p ∈ r.batches, p.2.Sublist p.1 ∧ p.1.length ≤ config.writeBatchMaxFrames ∧
    octets p.1.dropLast < config.writeBatchMaxBytes

/-- Frames of one queue among those taken. -/
theorem filter_frames_sublist {taken : List (Outbound × Bool)} {p : Outbound → Bool}
    {q : Outbound × Bool → Bool} (h : ∀ t ∈ taken, t.1.submitDrainMarker = false → p t.1 = true →
      q t = true) : ((frames taken).filter p).Sublist ((taken.filter q).map Prod.fst) := by
  rw [frames, List.filter_filter, List.filter_map]
  refine List.Sublist.map Prod.fst ?_
  have hsame : taken.filter ((fun o => p o && !o.submitDrainMarker) ∘ Prod.fst) =
      (taken.filter q).filter ((fun o => p o && !o.submitDrainMarker) ∘ Prod.fst) := by
    rw [List.filter_filter]
    refine List.filter_congr fun t ht => ?_
    rw [Function.comp_apply, Bool.eq_iff_iff]
    simp only [Bool.and_eq_true]
    constructor
    · rintro ⟨hp, hmarker⟩
      exact ⟨⟨hp, hmarker⟩, h t ht (by simpa using hmarker) hp⟩
    · exact fun hboth => hboth.1
  rw [hsame]
  exact List.filter_sublist

theorem Accounted.submitOrder (h : Accounted r s) :
    ((s.log.written.map Prod.fst).filter Outbound.isSubmit).Sublist r.submitsPut := by
  have hwritten := ((List.sublist_append_left _ _).trans h.order).filter Outbound.isSubmit
  have hqueue : ((frames r.taken).filter Outbound.isSubmit).Sublist
      ((r.taken.filter fun p => p.2).map Prod.fst) := by
    refine filter_frames_sublist fun t ht _ hsubmit => ?_
    by_contra hcontrol
    rw [((h.origin t ht).2 (Bool.eq_false_of_not_eq_true hcontrol)).not_isSubmit] at hsubmit
    cases hsubmit
  rw [← h.submits]
  exact (hwritten.trans hqueue).trans (List.sublist_append_left _ _)

theorem Accounted.controlOrder (h : Accounted r s) :
    ((s.log.written.map Prod.fst).filter fun outbound => !outbound.isSubmit).Sublist
      r.controlsPut := by
  have hwritten := ((List.sublist_append_left _ _).trans h.order).filter fun o => !o.isSubmit
  have hqueue : ((frames r.taken).filter fun o => !o.isSubmit).Sublist
      ((r.taken.filter fun p => !p.2).map Prod.fst) := by
    refine filter_frames_sublist fun t ht hmarker hcontrol => ?_
    by_contra hsubmit
    rw [Bool.not_eq_true, Bool.not_eq_false'] at hsubmit
    obtain ⟨packet, key, heq⟩ := ((h.origin t ht).1 hsubmit).isSubmit hmarker
    rw [heq] at hcontrol
    cases hcontrol
  rw [← h.controls]
  exact (hwritten.trans hqueue).trans (List.sublist_append_left _ _)

/-- The frames of each queue are written in its order; each frame that is taken is written once, is
still to be written, or was passed over because it was out of date, not allowed any more or
cancelled; at most sixteen control frames are taken between two frames of the submit queue while a
SUBMIT that may be sent waits; and no batch passes its limits before its last frame. -/
theorem frames_dispatched {clock : ℕ} {udhCounter : UInt32} {events : List ConnectionEvent}
    (hrun : (dispatchMachine gbk config clock udhCounter).Run events (s, r)) :
    Dispatched config r s := by
  have hinv := hrun.invariant (I := fun _ p => p.1.Sound config ∧ p.1.Bears Known ∧
    Accounted p.2 p.1 ∧ Fair p.2.streak p.1 ∧ Batched config p.2 p.1) ?_ ?_
  · obtain ⟨_, _, haccounted, hfair, hbatched⟩ := hinv
    exact ⟨haccounted, haccounted.submitOrder, haccounted.controlOrder, hfair.limit,
      hbatched.handed, hbatched.limits⟩
  · rintro ⟨s, r⟩ ⟨rfl, rfl⟩
    exact ⟨sound_initial config clock udhCounter, fun o ho => absurd ho List.not_mem_nil,
      accounted_initial config clock udhCounter, fair_initial config clock udhCounter,
      batched_initial config clock udhCounter⟩
  · rintro events ⟨s, r⟩ event ⟨s', r'⟩ ⟨hsound, hknown, haccounted, hfair, hbatched⟩ ⟨hnext, heq⟩
    change r' = record r s event s' at heq
    subst heq
    exact ⟨hsound.next hnext, bears_known_next hknown hsound.wired hnext,
      haccounted.next hsound hknown hnext, hfair.next hsound hnext,
      hbatched.next hsound.wired hnext⟩

/-- An answered heartbeat is passed over; a response and a SUBMIT go out in one batch. -/
theorem frames_dispatched_stale : ∃ events s r,
    (dispatchMachine asciiGbk smallConfig 0 0).Run events (s, r) ∧
      (r.taken.map Prod.snd = [false, false, true] ∧ r.skipped.length = 1 ∧
        s.log.written.length = 2) ∧ Dispatched smallConfig r s := by
  have hexec : (Machine.execRecorded (next asciiGbk smallConfig) record (initial smallConfig 0 0)
      .nothing (admitOne ++ [.heartbeat .tick, .heartbeat .enqueue, .reader (.activeTest 9),
        .reader (.activeTestResp 3)] ++ List.replicate 19 (.writer .advance) ++
          [.writer .written])).map (fun p =>
        (p.2.taken.map Prod.snd, p.2.skipped.length, p.1.log.written.length)) =
      some ([false, false, true], 1, 2) := by decide +kernel
  obtain ⟨⟨s, r⟩, hrun, hview⟩ := Machine.exists_run_recorded_of_exec _ hexec
  obtain ⟨htaken, hrest⟩ := Prod.mk.inj hview
  obtain ⟨hskipped, hwritten⟩ := Prod.mk.inj hrest
  exact ⟨_, s, r, hrun, ⟨htaken, hskipped, hwritten⟩, frames_dispatched hrun⟩

end Connection

end CmppProtocol
