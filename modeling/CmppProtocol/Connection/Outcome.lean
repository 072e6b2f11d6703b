import CmppProtocol.Connection.Reached

/-! # One outcome for every SUBMIT

Summed over the ids, the lives of a window say how the admitted SUBMITs were
disposed of. After the cleanup each one was answered, timed out or drained, and
each has one terminal event unless events were dropped.
-/

namespace CmppProtocol

namespace Window

variable {config : ConnectionConfig} {w : Window}

theorem puts_le_one (hlives : ∀ x, (w.life x).Inv config x) (x : ℕ) :
    (w.log.puts.filter fun event => event.about = some x).length ≤ 1 := by
  have hlife : (w.life x).puts.length ≤ 1 := by
    rcases hlives x with h | ⟨a, n, _, h⟩
    · rw [h.puts]
      exact Nat.zero_le 1
    · have houtcome := h.outcome
      have hreported := h.reported
      omega
  exact hlife

/-- The id of a put terminal event was admitted. -/
theorem admitted_of_puts (hlives : ∀ x, (w.life x).Inv config x) {event : Event} {x : ℕ}
    (hmem : event ∈ w.log.puts) (habout : event.about = some x) :
    ∃ a ∈ w.log.admissions, a.sequenceId = x := by
  have hput : event ∈ (w.life x).puts := List.mem_filter.mpr ⟨hmem, decide_eq_true habout⟩
  rcases hlives x with h | ⟨a, n, hx, h⟩
  · rw [h.puts] at hput
    cases hput
  · have ha : a ∈ (w.life x).admissions := by
      rw [h.admissions]
      exact List.mem_singleton_self a
    exact ⟨a, (List.mem_filter.mp ha).1, hx⟩

/-- What is left of one id when the map is empty and nothing is under way. -/
theorem disposed (hlives : ∀ x, (w.life x).Inv config x) (hempty : ∀ p, p ∉ w.pending)
    (howed : owed w.cleanups = []) (hemitting : w.emitting = []) (x : ℕ) :
    (w.log.admissions.map Admission.sequenceId).count x =
      w.log.responded.count x + w.log.timedOut.count x + w.log.drained.count x ∧
    (w.log.admissions.map Admission.sequenceId).count x ≤ 1 ∧
    (w.log.puts.filter fun event => event.about = some x).length + w.log.lost.count x =
      (w.log.admissions.map Admission.sequenceId).count x := by
  have hcount : (w.log.admissions.map Admission.sequenceId).count x =
      (w.life x).admissions.length := by
    rw [List.count_eq_countP, List.countP_map, List.countP_eq_length_filter]
    rfl
  have hentry : (w.life x).entry = none :=
    OrderedMap.find_eq_none_iff.mpr fun e => hempty (x, e)
  have hzero : (w.life x).emitting = 0 := by simp [life, hemitting]
  have hnone : (w.life x).owed = 0 := by simp [life, howed]
  rw [hcount]
  change _ = (w.life x).responded + (w.life x).timedOut + (w.life x).drained ∧ _ ∧
    (w.life x).puts.length + (w.life x).lost = _
  rcases hlives x with h | ⟨a, n, _, h⟩
  · obtain ⟨_, hresponded, htimedOut, hdrained, hlost, _⟩ := h.counts
    rw [h.admissions, hresponded, htimedOut, hdrained, hlost, h.puts]
    exact ⟨rfl, Nat.zero_le 1, rfl⟩
  · have houtcome := h.outcome
    have hreported := h.reported
    simp only [hentry, Life.live, hzero, hnone] at houtcome hreported
    rw [h.admissions, List.length_singleton]
    omega

end Window

namespace Connection

variable {gbk : Gbk} {config : ConnectionConfig} {s : Connection}

/-- The map was drained, and every drained id was sent or counted as lost. -/
structure CleanedUp (s : Connection) : Prop where
  drained : ∃ stage ∈ s.cleanups, stage ≠ .starting
  returned : ∀ stage ∈ s.cleanups, stage.batches = []

/-- How the admitted SUBMITs were disposed of. -/
structure Disposed (s : Connection) : Prop where
  once : ∀ a ∈ s.log.admissions, s.log.responded.count a.sequenceId +
    s.log.timedOut.count a.sequenceId + s.log.drained.count a.sequenceId = 1
  admitted : s.metrics.submitsAdmitted =
    s.metrics.submitResponses + s.metrics.submitTimeouts + s.log.drained.length
  reported : s.metrics.eventsDropped = 0 → ∀ a ∈ s.log.admissions,
    (s.log.puts.filter fun event => event.about = some a.sequenceId).length = 1

theorem Sound.disposed (h : s.Sound config) (hclean : s.CleanedUp)
    (hemitting : s.reader.emitting = []) :
    s.Disposed := by
  obtain ⟨stage, hmem, hstage⟩ := hclean.drained
  have hswept : Window.swept s.window.cleanups = true :=
    List.any_eq_true.mpr ⟨stage, hmem, by simp [hstage]⟩
  have howed : Window.owed s.window.cleanups = [] := by
    apply List.flatMap_eq_nil_iff.mpr
    intro stage' hmem'
    rw [hclean.returned stage' hmem']
    rfl
  have hdisposed := Window.disposed h.lives (h.tallied.empty hswept) howed hemitting
  have hone : ∀ a ∈ s.log.admissions,
      (s.log.admissions.map Admission.sequenceId).count a.sequenceId = 1 := by
    intro a ha
    have hmem : a.sequenceId ∈ s.log.admissions.map Admission.sequenceId :=
      List.mem_map.mpr ⟨a, ha, rfl⟩
    have hpos := List.count_pos_iff.mpr hmem
    have hle := (hdisposed a.sequenceId).2.1
    exact le_antisymm hle hpos
  refine ⟨fun a ha => ?_, ?_, fun hdropped a ha => ?_⟩
  · rw [← hone a ha]
    exact (hdisposed a.sequenceId).1.symm
  · have hperm : (s.log.admissions.map Admission.sequenceId).Perm
        (s.log.responded ++ s.log.timedOut ++ s.log.drained) := by
      apply List.perm_iff_count.mpr
      intro x
      rw [List.count_append, List.count_append]
      exact (hdisposed x).1
    have hlength := hperm.length_eq
    rw [List.length_map, List.length_append, List.length_append] at hlength
    have hadmitted := h.tallied.admitted
    have hresponded := h.tallied.responded
    have htimedOut := h.tallied.timedOut
    change s.metrics.submitsAdmitted = s.log.admissions.length at hadmitted
    change s.metrics.submitResponses = s.log.responded.length at hresponded
    change s.metrics.submitTimeouts = s.log.timedOut.length at htimedOut
    rw [hadmitted, hresponded, htimedOut, hlength]
  · have hlost : s.log.lost = [] := by
      have hle := h.tallied.lost
      change s.log.lost.length ≤ s.metrics.eventsDropped at hle
      exact List.length_eq_zero_iff.mp (by omega)
    have hputs := (hdisposed a.sequenceId).2.2
    change _ + s.log.lost.count a.sequenceId = _ at hputs
    rw [hlost, List.count_nil, Nat.add_zero] at hputs
    exact hputs.trans (hone a ha)

/-- At most one terminal event is put for each id, and only for an admitted one. When the map was
drained, its drain has returned and no flush is under way, each admitted id was disposed of once. -/
theorem one_terminal_outcome {clock : ℕ} {udhCounter : UInt32} {events : List ConnectionEvent}
    (hrun : (machine gbk config clock udhCounter).Run events s) :
    (∀ x, (s.log.puts.filter fun event => event.about = some x).length ≤ 1) ∧
    (∀ event ∈ s.log.puts, ∀ x, event.about = some x →
      ∃ a ∈ s.log.admissions, a.sequenceId = x) ∧
    (s.phase = .closed → s.CleanedUp → s.reader.emitting = [] → s.Disposed) := by
  have hsound := sound_run hrun
  refine ⟨fun x => ?_, fun event hmem x habout => ?_, fun _ hclean hemitting => ?_⟩
  · exact Window.puts_le_one hsound.lives x
  · exact Window.admitted_of_puts hsound.lives hmem habout
  · exact hsound.disposed hclean hemitting

/-- A SUBMIT that is drained unsent. -/
theorem one_terminal_outcome_drained : ∃ events s,
    (machine asciiGbk smallConfig 0 0).Run events s ∧ s.metrics.submitsAdmitted = 1 ∧
      s.Disposed := by
  have hexec : (Machine.exec (next asciiGbk smallConfig) (initial smallConfig 0 0) (admitOne ++
      [.finish, .finishStores, .cleanup 0 (.drain [2]), .cleanup 0 (.sendDropped true)])).map
        (fun s => (s.metrics.submitsAdmitted, s.phase, s.cleanups, s.reader.emitting)) =
      some (1, .closed, [.sending []], []) := by decide +kernel
  obtain ⟨s, hrun, hview⟩ := Machine.exists_run_of_exec _ hexec
  obtain ⟨hadmitted, hphase, hcleanups, hemitting⟩ := by simpa only [Prod.mk.injEq] using hview
  refine ⟨_, s, hrun, hadmitted, (one_terminal_outcome hrun).2.2 hphase ⟨?_, ?_⟩ hemitting⟩
  · exact ⟨.sending [], by rw [hcleanups]; exact List.mem_singleton_self _, nofun⟩
  · rw [hcleanups]
    exact List.forall_mem_singleton.mpr rfl

end Connection

end CmppProtocol
