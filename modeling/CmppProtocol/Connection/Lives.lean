import CmppProtocol.Connection.Lifecycle
import CmppProtocol.Library.Focus

/-! # Every SUBMIT keeps its invariant

The part of a window that concerns one id is its life. A step of the window acts
on each life by one of the operations of the life, so every id keeps its
invariant along every run.
-/

namespace CmppProtocol

open Compaction

namespace Window

/-- The ids whose terminal event some cleanup has still to send. -/
def owed (cleanups : List CleanupStage) : List ℕ :=
  cleanups.flatMap fun stage => stage.batches.flatten

/-- Some cleanup has drained the map. -/
def swept (cleanups : List CleanupStage) : Bool := cleanups.any fun stage => stage ≠ .starting

def life (w : Window) (x : ℕ) : Life where
  entry := w.pending.find x
  line := w.line.filter (Outbound.carries x)
  held := w.held.filter (Outbound.carries x)
  sendable := w.canSendSubmit
  status := w.status
  clock := w.clock
  now := w.now
  expired := w.expired.filter fun key => key.sequenceId = x
  admissions := w.log.admissions.filter fun a => a.sequenceId = x
  enqueued := w.log.enqueued.filter fun p => p.1.sequenceId = x
  claimed := w.log.claimed.filter (Outbound.carries x)
  handed := w.log.handed.filter (Outbound.carries x)
  written := w.log.written.filter fun p => p.1.carries x
  puts := w.log.puts.filter fun event => event.about = some x
  emitting := (w.emitting.filter fun response => response.sequenceId = x).length
  responded := w.log.responded.count x
  timedOut := w.log.timedOut.count x
  drained := w.log.drained.count x
  lost := w.log.lost.count x
  owed := (owed w.cleanups).count x
  swept := swept w.cleanups

variable {config : ConnectionConfig} {w w' : Window} {x : ℕ}

theorem filter_carries (x : ℕ) (batch : List Outbound) :
    (batch.filter Outbound.isSubmit).filter (Outbound.carries x) =
      batch.filter (Outbound.carries x) := by
  rw [List.filter_filter]
  apply List.filter_congr
  intro outbound _
  cases hkey : outbound.submitAttempt with
  | none => simp [Outbound.carries, hkey]
  | some key => simp [Outbound.isSubmit, hkey]

theorem filter_concat_own {α : Type*} {p : α → Bool} {xs : List α} {a : α} (h : p a = true) :
    (xs ++ [a]).filter p = xs.filter p ++ [a] := by
  rw [List.filter_append, List.filter_cons_of_pos h, List.filter_nil]

theorem filter_concat_other {α : Type*} {p : α → Bool} {xs : List α} {a : α} (h : p a = false) :
    (xs ++ [a]).filter p = xs.filter p := by
  rw [List.filter_append, List.filter_cons_of_neg (by simp [h]), List.filter_nil, List.append_nil]

theorem count_concat_other {xs : List ℕ} {y x : ℕ} (h : y ≠ x) :
    (xs ++ [y]).count x = xs.count x := by
  rw [List.count_append, List.count_eq_zero.mpr (fun hmem => h.symm (List.mem_singleton.mp hmem)),
    Nat.add_zero]

theorem carries_of_held {batch : List Outbound} (h : w.held = batch.filter Outbound.isSubmit) :
    w.held.filter (Outbound.carries x) = batch.filter (Outbound.carries x) := by
  rw [h, filter_carries]

theorem canSendSubmit_of_opened (h : w.phase = .opened) : w.canSendSubmit = true := by
  simp [canSendSubmit, h]

theorem owed_starting (cleanups : List CleanupStage) :
    owed (cleanups ++ [.starting]) = owed cleanups := by
  rw [owed, List.flatMap_append, owed]
  exact List.append_nil _

theorem swept_starting (cleanups : List CleanupStage) :
    swept (cleanups ++ [.starting]) = swept cleanups := by
  simp [swept]

theorem filter_marker (x : ℕ) : [Outbound.drainMarker].filter (Outbound.carries x) = [] := rfl

theorem mem_unresponded {pending : PendingSubmits} :
    x ∈ unresponded pending ↔ Life.live (pending.find x) = 1 := by
  rw [unresponded, List.mem_filterMap]
  constructor
  · rintro ⟨⟨y, e⟩, hmem, hy⟩
    have hfind := OrderedMap.find_eq_some_iff.mpr hmem
    cases hstate : e.state with
    | respondedWhileWriting k => simp [hstate] at hy
    | _ =>
      simp only [hstate, Option.some.injEq] at hy
      subst hy
      simp [hfind, Life.live, hstate]
  · intro hlive
    cases hfind : pending.find x with
    | none => simp [hfind, Life.live] at hlive
    | some e =>
      refine ⟨(x, e), OrderedMap.find_eq_some_iff.mp hfind, ?_⟩
      cases hstate : e.state with
      | respondedWhileWriting k => simp [hfind, Life.live, hstate] at hlive
      | _ => simp [hstate]

theorem unresponded_nodup (pending : PendingSubmits) : (unresponded pending).Nodup := by
  apply OrderedMap.filterMap_keys_nodup
  rintro ⟨x, entry⟩ k hk
  cases hstate : entry.state with
  | respondedWhileWriting attempt => simp only [hstate, reduceCtorEq] at hk
  | _ =>
    simp only [hstate, Option.some.injEq] at hk
    exact hk.symm

theorem live_le_one (entry : Option PendingSubmit) : Life.live entry ≤ 1 := by
  cases entry with
  | none => exact Nat.zero_le 1
  | some e => cases hstate : e.state <;> simp [Life.live, hstate]

theorem count_unresponded (pending : PendingSubmits) (x : ℕ) :
    (unresponded pending).count x = Life.live (pending.find x) := by
  rw [(unresponded_nodup pending).count]
  split_ifs with hmem
  · exact (mem_unresponded.mp hmem).symm
  · have hle := live_le_one (pending.find x)
    have hne : Life.live (pending.find x) ≠ 1 := fun h => hmem (mem_unresponded.mpr h)
    omega

theorem count_owed_set {cleanups : List CleanupStage} {index : ℕ} {stage : CleanupStage}
    (h : cleanups[index]? = some stage) (stage' : CleanupStage) (x : ℕ) :
    (owed (cleanups.set index stage')).count x + stage.batches.flatten.count x =
      (owed cleanups).count x + stage'.batches.flatten.count x := by
  obtain ⟨pre, post, hfocus⟩ := List.exists_focus h
  rw [hfocus.set, hfocus.split]
  simp only [owed, List.flatMap_append, List.flatMap_cons, List.count_append]
  omega

theorem swept_set {cleanups : List CleanupStage} {index : ℕ} {stage stage' : CleanupStage}
    (h : cleanups[index]? = some stage) (h' : stage' ≠ .starting) :
    swept (cleanups.set index stage') = true := by
  obtain ⟨pre, post, hfocus⟩ := List.exists_focus h
  simp [swept, hfocus.set, h']

theorem swept_of_ne {cleanups : List CleanupStage} {index : ℕ} {stage : CleanupStage}
    (h : cleanups[index]? = some stage) (h' : stage ≠ .starting) : swept cleanups = true :=
  List.any_eq_true.mpr ⟨stage, List.mem_of_getElem? h, by simp [h']⟩

/-! ## The steps that work on a SUBMIT

Each of them is one of the operations of a life for the id that it is about, and
leaves the lives of the other ids alone.
-/

section Lives

variable (hx : (w.life x).Inv config x)
include hx

theorem life_finishStores (hclosed : w.phase = .closed) : Life.Inv config x { w.life x with
    sendable := w.phase = .opened || (w.phase = .closing && false)
    owed := (owed (w.cleanups ++ [.starting])).count x
    swept := swept (w.cleanups ++ [.starting]) } := by
  have hsilent : Life.Inv config x { w.life x with sendable := false } := hx.silence (by simp)
  rw [owed_starting, swept_starting, hclosed]
  exact hsilent

theorem life_admitSubmit {admission : Admission} {entry : PendingSubmit}
    (hnew : ∀ a ∈ w.log.admissions, a.sequenceId ≠ admission.sequenceId)
    (hsub : entry.submissionId = admission.submissionId) (hpacket : entry.packet = admission.packet)
    (hstate : entry.state = .queued 1) : Life.Inv config x { w.life x with
      entry := (w.pending.insert admission.sequenceId entry).find x
      line := (w.line ++ [admission.frame 1]).filter (Outbound.carries x)
      admissions := (w.log.admissions ++ [admission]).filter fun a => a.sequenceId = x
      enqueued := (w.log.enqueued ++ [(admission.key 1, w.clock)]).filter fun p =>
        p.1.sequenceId = x } := by
  have hcarries : (admission.frame 1).carries x = decide (admission.sequenceId = x) :=
    Outbound.carries_submit
  rw [OrderedMap.find_insert]
  by_cases hid : admission.sequenceId = x
  · subst hid
    have hfresh : (w.life admission.sequenceId).admissions = [] :=
      List.filter_eq_nil_iff.mpr fun a ha => by simp [hnew a ha]
    have hlife := hx.admitted hfresh config.retryCount_pos hsub hpacket hstate
    rw [if_pos rfl, filter_concat_own, filter_concat_own, filter_concat_own]
    · exact hlife
    all_goals exact decide_eq_true rfl
  · rw [if_neg (Ne.symm hid), filter_concat_other, filter_concat_other, filter_concat_other]
    · exact hx
    · exact decide_eq_false hid
    · exact decide_eq_false hid
    · rw [hcarries, decide_eq_false hid]

theorem life_claim {batch rest : List Outbound}
    (hline : w.line = batch.filter Outbound.isSubmit ++ rest) (hheld : w.held = []) :
    Life.Inv config x { w.life x with
      entry := (claimSubmitAttempts w.canSendSubmit w.pending batch).1.find x
      line := rest.filter (Outbound.carries x)
      held := ((claimSubmitAttempts w.canSendSubmit w.pending batch).2.filter
        Outbound.isSubmit).filter (Outbound.carries x)
      status := .claimed
      claimed := (w.log.claimed ++ (claimSubmitAttempts w.canSendSubmit w.pending batch).2.filter
        Outbound.isSubmit).filter (Outbound.carries x) } := by
  have hown := claimSubmitAttempts_at w.pending w.canSendSubmit x batch
  have hsplit : (w.life x).line =
      batch.filter (Outbound.carries x) ++ rest.filter (Outbound.carries x) := by
    rw [life, hline, List.filter_append, filter_carries]
  have hlife := hx.claim hsplit (by rw [life, hheld]; rfl) hown
  rw [List.filter_append, filter_carries]
  exact hlife

theorem life_hand {batch : List Outbound} (hheld : w.held = batch.filter Outbound.isSubmit)
    (hstatus : w.status = .claimed) : Life.Inv config x { w.life x with
      status := .handed
      handed := (w.log.handed ++ batch).filter (Outbound.carries x) } := by
  have hlife := hx.hand hstatus
  rw [List.filter_append, ← carries_of_held hheld]
  exact hlife

theorem life_write {batch : List Outbound} (hheld : w.held = batch.filter Outbound.isSubmit)
    (hstatus : w.status = .handed) : Life.Inv config x { w.life x with
      status := .written w.clock
      written := (w.log.written ++ batch.map fun outbound => (outbound, w.clock)).filter fun p =>
        p.1.carries x } := by
  have hlife := hx.write hstatus
  have hbatch : (batch.map fun outbound => (outbound, w.clock)).filter (fun p => p.1.carries x) =
      (w.life x).held.map fun outbound => (outbound, w.clock) := by
    rw [List.filter_map]
    exact congrArg _ (carries_of_held hheld).symm
  rw [List.filter_append, hbatch]
  exact hlife

theorem life_complete {batch : List Outbound} {writtenAt : ℕ}
    (hheld : w.held = batch.filter Outbound.isSubmit) (hstatus : w.status = .written writtenAt) :
    Life.Inv config x { w.life x with
      entry := (completeSubmitAttempts writtenAt w.pending
        (batch.filterMap Outbound.submitAttempt)).find x
      held := []
      status := .completed writtenAt } := by
  have hlife := hx.complete hstatus
  simp only [life, carries_of_held hheld] at hlife
  rw [completeSubmitAttempts_at]
  exact hlife

theorem life_matchResps (responses : List SubmitResponse) (hemitting : w.emitting = []) :
    Life.Inv config x { w.life x with
      entry := (matchSubmitResps w.pending responses).1.find x
      emitting := ((matchSubmitResps w.pending responses).2.filter fun response =>
        response.sequenceId = x).length } := by
  have hlife := hx.matchResps (responses.filter fun r => r.sequenceId = x)
    (by rw [life, hemitting]; rfl)
  have hown := matchSubmitResps_at w.pending x responses
  simp only [life, hown] at hlife
  exact hlife

theorem life_emitResp {response : SubmitResponse} {emitting : List SubmitResponse} (sent : Bool)
    (hemitting : w.emitting = response :: emitting) : Life.Inv config x { w.life x with
      emitting := (emitting.filter fun response => response.sequenceId = x).length
      responded := (w.log.responded ++ [response.sequenceId]).count x
      puts := (if sent then
          w.log.puts ++ [.submitResp response.sequenceId response.msgId response.result]
        else w.log.puts).filter fun event => event.about = some x
      lost := (if sent then w.log.lost else w.log.lost ++ [response.sequenceId]).count x } := by
  by_cases hid : response.sequenceId = x
  · subst hid
    have hone : (w.life response.sequenceId).emitting =
        (emitting.filter fun r => r.sequenceId = response.sequenceId).length + 1 := by
      simp [life, hemitting]
    have hlife := hx.emit response.msgId response.result sent hone
    cases sent with
    | true =>
      rw [if_pos rfl, if_pos rfl, filter_concat_own, List.count_append, List.count_singleton_self]
      · exact hlife
      · exact decide_eq_true rfl
    | false =>
      rw [if_neg Bool.false_ne_true, if_neg Bool.false_ne_true, List.count_append,
        List.count_append, List.count_singleton_self]
      exact hlife
  · have hsame : (w.life x).emitting = (emitting.filter fun r => r.sequenceId = x).length := by
      simp [life, hemitting, hid]
    rw [← hsame, count_concat_other hid]
    cases sent with
    | true =>
      rw [if_pos rfl, if_pos rfl, filter_concat_other]
      · exact hx
      · exact decide_eq_false fun h => hid (Option.some.inj h)
    | false =>
      rw [if_neg Bool.false_ne_true, if_neg Bool.false_ne_true, count_concat_other hid]
      exact hx

/-- The scan goes on with the attempts behind the first. -/
theorem life_expired {key : SubmitAttemptKey} {keys : List SubmitAttemptKey}
    (hexpired : w.expired = key :: keys) : Life.Inv config x { w.life x with
      expired := keys.filter fun key => key.sequenceId = x } := by
  have hrest : keys.filter (fun key => key.sequenceId = x) ⊆ (w.life x).expired := by
    rw [life, hexpired]
    exact (List.sublist_cons_self key keys).filter _ |>.subset
  exact hx.pass le_rfl id hx.now_le (Or.inr ⟨rfl, hrest⟩)

theorem life_giveUp {key : SubmitAttemptKey} {keys : List SubmitAttemptKey} {entry : PendingSubmit}
    (hexpired : w.expired = key :: keys) (hattempt : config.retryCount ≤ key.attempt)
    (hstill : stillAwaiting w.pending key = some entry) : Life.Inv config x { w.life x with
      entry := (w.pending.erase key.sequenceId).find x
      expired := keys.filter fun key => key.sequenceId = x
      timedOut := (w.log.timedOut ++ [key.sequenceId]).count x
      puts := (w.log.puts ++ [Event.submitTimeout key.sequenceId key.attempt]).filter fun event =>
        event.about = some x } := by
  obtain ⟨hfind, _, t, hstate⟩ := stillAwaiting_some hstill
  have hpass := life_expired hx hexpired
  rw [OrderedMap.find_erase]
  by_cases hid : key.sequenceId = x
  · subst hid
    have hlife := hpass.giveUp hfind hstate hattempt
    rw [if_pos rfl, List.count_append, List.count_singleton_self, filter_concat_own]
    · exact hlife
    · exact decide_eq_true rfl
  · rw [if_neg (Ne.symm hid), count_concat_other hid, filter_concat_other]
    · exact hpass
    · exact decide_eq_false fun h => hid (Option.some.inj h)

theorem life_retry {key : SubmitAttemptKey} {keys : List SubmitAttemptKey} {entry : PendingSubmit}
    (hexpired : w.expired = key :: keys) (hattempt : key.attempt < config.retryCount)
    (hstill : stillAwaiting w.pending key = some entry) : Life.Inv config x { w.life x with
      entry := (setState w.pending key.sequenceId entry (.queued (key.attempt + 1))).find x
      line := (w.line ++
        [Outbound.submit entry.packet { key with attempt := key.attempt + 1 }]).filter
          (Outbound.carries x)
      expired := keys.filter fun key => key.sequenceId = x
      enqueued := (w.log.enqueued ++ [({ key with attempt := key.attempt + 1 }, w.clock)]).filter
        fun p => p.1.sequenceId = x } := by
  obtain ⟨hfind, _, t, hstate⟩ := stillAwaiting_some hstill
  rw [find_setState hfind]
  by_cases hid : key.sequenceId = x
  · subst hid
    have hsub : keys.filter (fun key' => key'.sequenceId = key.sequenceId) ⊆
        (w.life key.sequenceId).expired := by
      rw [life, hexpired]
      exact (List.sublist_cons_self key keys).filter _ |>.subset
    have hmem : key ∈ (w.life key.sequenceId).expired := by
      rw [life, hexpired]
      exact List.mem_filter.mpr ⟨List.mem_cons_self, decide_eq_true rfl⟩
    have hlife := hx.retry hmem rfl hattempt hfind hstate
    rw [if_pos rfl, filter_concat_own, filter_concat_own]
    · exact hlife.pass le_rfl id hlife.now_le (Or.inr ⟨rfl, hsub⟩)
    all_goals exact decide_eq_true rfl
  · rw [if_neg (Ne.symm hid), filter_concat_other, filter_concat_other]
    · exact life_expired hx hexpired
    · exact decide_eq_false hid
    · rw [Outbound.carries_submit, decide_eq_false hid]

theorem life_drain {index : ℕ} {order : List ℕ} (hindex : w.cleanups[index]? = some .starting)
    (horder : order.Perm (unresponded w.pending)) : Life.Inv config x { w.life x with
      entry := none
      drained := (w.log.drained ++ order).count x
      owed := (owed (w.cleanups.set index
        (.sending (Greedy.chunks SUBMIT_DROPPED_BATCH_SIZE order)))).count x
      swept := swept (w.cleanups.set index
        (.sending (Greedy.chunks SUBMIT_DROPPED_BATCH_SIZE order))) } := by
  have howed := count_owed_set hindex
    (.sending (Greedy.chunks SUBMIT_DROPPED_BATCH_SIZE order)) x
  simp only [CleanupStage.batches, Greedy.flatten_chunks, List.flatten_nil, List.count_nil,
    Nat.add_zero] at howed
  have hlive : order.count x = Life.live (w.pending.find x) :=
    (horder.count_eq x).trans (count_unresponded w.pending x)
  rw [howed, List.count_append, hlive, swept_set hindex (by simp)]
  exact hx.drain

theorem life_sendDropped {index : ℕ} {batch : List ℕ} {batches : List (List ℕ)} (sent : Bool)
    (hindex : w.cleanups[index]? = some (.sending (batch :: batches))) :
    Life.Inv config x { w.life x with
      puts := (if sent then w.log.puts ++ batch.map .submitDropped
        else w.log.puts).filter fun event => event.about = some x
      lost := (if sent then w.log.lost else w.log.lost ++ batch).count x
      owed := (owed (w.cleanups.set index (.sending batches))).count x
      swept := swept (w.cleanups.set index (.sending batches)) } := by
  have howed := count_owed_set hindex (.sending batches) x
  simp only [CleanupStage.batches, List.flatten_cons, List.count_append] at howed
  have hcount : (batch.filter fun y => y = x).length = batch.count x := by
    rw [List.count_eq_countP, List.countP_eq_length_filter]
    rfl
  have howes : (w.life x).owed = (batch.filter fun y => y = x).length +
      (owed (w.cleanups.set index (.sending batches))).count x := by
    simp only [life, hcount]
    omega
  have hlife := hx.sendDropped sent
    (fun y hy => of_decide_eq_true (List.mem_filter.mp hy).2) howes
  have hswept : swept (w.cleanups.set index (.sending batches)) = swept w.cleanups := by
    rw [swept_set hindex (by simp), swept_of_ne hindex (by simp)]
  rw [hcount] at hlife
  rw [hswept]
  cases sent with
  | true =>
    have hputs : (batch.map Event.submitDropped).filter (fun event => event.about = some x) =
        (batch.filter fun y => y = x).map Event.submitDropped := by
      rw [List.filter_map]
      congr 1
      apply List.filter_congr
      intro y _
      simp [Event.about]
    rw [if_pos rfl, if_pos rfl, List.filter_append, hputs]
    exact hlife
  | false =>
    rw [if_neg Bool.false_ne_true, if_neg Bool.false_ne_true, List.count_append]
    exact hlife

theorem life_endCleanup {index : ℕ} {stage stage' : CleanupStage}
    (hindex : w.cleanups[index]? = some stage) (hstart : stage ≠ .starting)
    (hstart' : stage' ≠ .starting) (hbatches : stage'.batches = stage.batches) :
    Life.Inv config x { w.life x with
      owed := (owed (w.cleanups.set index stage')).count x
      swept := swept (w.cleanups.set index stage') } := by
  have howed := count_owed_set hindex stage' x
  rw [hbatches, Nat.add_right_cancel_iff] at howed
  rw [howed, swept_set hindex hstart', ← swept_of_ne hindex hstart]
  exact hx

end Lives

/-! ## All steps -/

theorem Step.lives (h : Step config w w') (hinv : ∀ x, (w.life x).Inv config x) (x : ℕ) :
    (w'.life x).Inv config x := by
  have hx := hinv x
  cases h with
  | clock duration =>
    exact hx.pass (Nat.le_add_right _ _) id (hx.now_le.trans (Nat.le_add_right _ _))
      (Or.inr ⟨rfl, List.Subset.refl _⟩)
  | finish => exact hx.silence (by simp [canSendSubmit])
  | finishStores hclosed => exact life_finishStores hx hclosed
  | beginClosing draining closer hopen hcloser =>
    exact hx.silence fun _ => canSendSubmit_of_opened hopen
  | cutDrain closer hcloser =>
    refine hx.silence fun hsend => ?_
    simp only [canSendSubmit, Bool.and_false, Bool.or_false, decide_eq_true_eq] at hsend
    exact canSendSubmit_of_opened hsend
  | closer closer h₁ h₂ h₃ => exact hx
  | closeLast closer h₁ h₂ h₃ => exact hx.silence (by simp [canSendSubmit])
  | marker hmarking =>
    change Life.Inv config x { w.life x with
      line := (w.line ++ [Outbound.drainMarker]).filter (Outbound.carries x) }
    rw [List.filter_append, filter_marker, List.append_nil]
    exact hx
  | admitSubmit admission entry hopen hnew hnone hsub hpacket hstate =>
    exact life_admitSubmit hx hnew hsub hpacket hstate
  | claim batch rest hline hstatus hheld => exact life_claim hx hline hheld
  | rest hheld => exact hx.pause (by rw [life, hheld]; rfl) .collecting
  | hand batch hheld hstatus => exact life_hand hx hheld hstatus
  | write batch hheld hstatus => exact life_write hx hheld hstatus
  | complete batch writtenAt hheld hstatus => exact life_complete hx hheld hstatus
  | endDrain rest hline hheld =>
    refine hx.silence fun hsend => ?_
    simp only [canSendSubmit, Bool.and_false, Bool.or_false, decide_eq_true_eq] at hsend
    exact canSendSubmit_of_opened hsend
  | answer rest hline hdrained =>
    have hsame : (w.life x).line = rest.filter (Outbound.carries x) := by
      rw [life, hline]
      rfl
    change Life.Inv config x { w.life x with line := rest.filter (Outbound.carries x) }
    rw [← hsame]
    exact hx
  | matchResps responses hemitting => exact life_matchResps hx responses hemitting
  | emitResp response emitting sent hemitting => exact life_emitResp hx sent hemitting
  | attend now expired hnow hexpired =>
    refine hx.pass le_rfl id hnow ?_
    rcases hexpired with rfl | ⟨hsame, hsub⟩
    · exact Or.inl rfl
    · exact Or.inr ⟨hsame, List.filter_subset _ hsub⟩
  | scan =>
    refine hx.scan fun key hkey => ?_
    obtain ⟨hmem, hid⟩ := List.mem_filter.mp hkey
    obtain rfl := of_decide_eq_true hid
    obtain ⟨e, t, hfind, hsub, hstate, hdue⟩ := mem_expiredSubmits hmem
    exact ⟨e, t, hfind, hsub, hstate, hdue⟩
  | giveUpLost key keys hexpired => exact life_expired hx hexpired
  | giveUp key keys entry hexpired hattempt hstill => exact life_giveUp hx hexpired hattempt hstill
  | retry key keys entry hopen hexpired hattempt hstill =>
    exact life_retry hx hexpired hattempt hstill
  | startCleanup hclosed =>
    change Life.Inv config x { w.life x with
      owed := (owed (w.cleanups ++ [.starting])).count x
      swept := swept (w.cleanups ++ [.starting]) }
    rw [owed_starting, swept_starting]
    exact hx
  | drain index order hindex horder => exact life_drain hx hindex horder
  | sendDropped index batch batches sent hindex => exact life_sendDropped hx sent hindex
  | endCleanup index stage stage' hindex hstart hstart' hbatches =>
    exact life_endCleanup hx hindex hstart hstart' hbatches

end Window

end CmppProtocol
