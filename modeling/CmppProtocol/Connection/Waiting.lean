import CmppProtocol.Connection.Spread
import CmppProtocol.Login.Config

/-! # How long an attempt waits

Time is not in the hands of the program: any time can pass between two looks at
the SUBMITs. What the scan promises is relative to the longest gap there was. When
no gap is longer than the period of the scan, no attempt that waits for its
response and is not taken yet has waited for twice the response timeout.
-/

namespace CmppProtocol

def TIMEOUT_CHECK_INTERVAL : ℕ := fromSecs 1

/-- The period of the scan. -/
def ConnectionConfig.activeCheckInterval (config : ConnectionConfig) : ℕ :=
  min (config.responseTimeout / MAX_SUBMIT_RETRY_SPREAD_TICKS) TIMEOUT_CHECK_INTERVAL

theorem activeCheckInterval_ticks (config : ConnectionConfig) :
    MAX_SUBMIT_RETRY_SPREAD_TICKS * config.activeCheckInterval ≤ config.responseTimeout :=
  (Nat.mul_le_mul_left _ (Nat.min_le_left _ _)).trans (Nat.mul_div_le _ _)

/-- What is noted of the scans: the passes, since when an attempt waits, the reading of the last
look and the longest time that an open connection had gone without one. -/
structure ScanRecord where
  passes : ℕ → ℕ
  since : ℕ → ℕ
  look : ℕ
  gap : ℕ

def ScanRecord.start (clock : ℕ) : ScanRecord := ⟨fun _ => 0, fun _ => 0, clock, 0⟩

namespace Connection

variable {gbk : Gbk} {config : ConnectionConfig} {s s' : Connection} {event : ConnectionEvent}
  {r : ScanRecord} {x now : ℕ} {key : SubmitAttemptKey} {keys : List SubmitAttemptKey}

instance (s : Connection) : Decidable s.Scans := inferInstanceAs (Decidable (_ ∨ _ ∧ _))

/-- The reading that a look at the SUBMITs goes by. -/
def lookAfter (s : Connection) (event : ConnectionEvent) (look : ℕ) : ℕ :=
  match event, s.timeout with
  | .timeout .scanSubmits, .heartbeatChecked now => now
  | _, _ => look

def noteScan (config : ConnectionConfig) (r : ScanRecord) (s : Connection) (event : ConnectionEvent)
    (s' : Connection) : ScanRecord where
  passes := countPasses config r.passes s event s'
  since := fun x => if x ∈ awaitingIds s.pendingSubmits then r.since x else s'.clock
  look := s.lookAfter event r.look
  gap := if s'.Scans then max r.gap (s'.clock - s.lookAfter event r.look) else r.gap

structure Timely (config : ConnectionConfig) (s : Connection) (r : ScanRecord) : Prop where
  spread : s.Spread config r.passes
  looked : r.look ≤ s.clock
  recent : s.Scans → s.clock ≤ r.look + r.gap
  since : ∀ x entry attempt writtenAt, s.pendingSubmits.find x = some entry →
    entry.state = .awaitingResponse attempt writtenAt → writtenAt ≤ r.since x
  within : s.Scans → ∀ x ∈ awaitingIds s.pendingSubmits,
    x ∉ s.timeout.keys.map SubmitAttemptKey.sequenceId →
      r.look < r.since x + config.responseTimeout + r.passes x * r.gap

theorem lookAfter_other (hevent : event ≠ .timeout .scanSubmits) (look : ℕ) :
    s.lookAfter event look = look := by
  unfold lookAfter
  split
  · exact absurd rfl hevent
  · rfl

theorem gap_le_noteScan : r.gap ≤ (noteScan config r s event s').gap := by
  change r.gap ≤ if s'.Scans then max r.gap _ else r.gap
  split_ifs
  · exact Nat.le_max_left _ _
  · exact Nat.le_refl _

theorem recent_noteScan (hscans : s'.Scans) :
    s'.clock ≤ (noteScan config r s event s').look + (noteScan config r s event s').gap := by
  change s'.clock ≤ s.lookAfter event r.look + if s'.Scans then max r.gap _ else r.gap
  rw [if_pos hscans]
  omega

/-! ## Steps that do not look -/

/-- What waited and still waits is as it was, and is on the list only if it was. -/
structure Persists (s s' : Connection) : Prop where
  clock : s.clock ≤ s'.clock
  scans : s'.Scans → s.Scans
  same : ∀ x ∈ awaitingIds s.pendingSubmits, x ∈ awaitingIds s'.pendingSubmits →
    s'.pendingSubmits.find x = s.pendingSubmits.find x
  taken : s'.Scans → ∀ x ∈ awaitingIds s'.pendingSubmits,
    x ∉ s'.timeout.keys.map SubmitAttemptKey.sequenceId →
      x ∉ s.timeout.keys.map SubmitAttemptKey.sequenceId

theorem Ages.persists (h : s.Ages s') : s.Persists s' := by
  constructor
  case clock => exact h.clock
  case scans => exact fun hscans => hscans.of_ages h
  case same =>
    intro x hx hx'
    obtain ⟨entry, attempt, writtenAt, hfind, hstate⟩ := mem_awaitingIds.mp hx
    obtain ⟨entry', _, _, hfind', _⟩ := mem_awaitingIds.mp hx'
    rcases h.stays x entry attempt writtenAt hfind hstate with hnone | hsame
    · cases hnone.symm.trans hfind'
    · exact hsame.trans hfind.symm
  case taken =>
    intro _ x _ hnot
    rwa [h.timeout] at hnot

theorem Carries.persists (h : s.Carries s') : s.Persists s' := by
  constructor
  case clock => exact h.clock.ge
  case scans => exact h.scans
  case same =>
    intro x _ _
    rw [h.pending]
  case taken =>
    intro _ x _ hnot
    rwa [h.keys] at hnot

theorem Attends.persists (h : s.Attends s' key keys) : s.Persists s' := by
  constructor
  case clock => exact h.clock.ge
  case scans => exact h.scans
  case same =>
    intro x _ hx'
    by_cases hx : x = key.sequenceId
    · subst hx
      exact h.own.resolve_right fun hgone => hgone hx'
    · exact h.others x hx
  case taken =>
    intro hscans x hx' hnot
    have hleft : s'.timeout.keys = keys := h.left.resolve_right fun hnone => hnone.2 hscans
    obtain ⟨entry, attempt, writtenAt, hfind, hstate⟩ := mem_awaitingIds.mp hx'
    have hne : x ≠ key.sequenceId := by
      rintro rfl
      have hmoved := h.moved hscans entry hfind s'.writer.status writtenAt
      rw [hstate] at hmoved
      exact absurd (decide_eq_true (Nat.le_refl writtenAt)) (Bool.eq_false_iff.mp hmoved)
    rw [h.taken, List.map_cons, List.mem_cons]
    rw [hleft] at hnot
    rintro (heq | hmem)
    · exact hne heq
    · exact hnot hmem

theorem persists_next (hsound : s.Sound config) (hlisted : s.Listed) (hroom : event.hasRoom = true)
    (hnext : next gbk config s event = some s') (hevent : event ≠ .timeout .scanSubmits) :
    s.Persists s' := by
  cases event with
  | timeout event =>
    rcases timeoutNext_cases hlisted hroom hnext with
      ⟨now, rfl, _⟩ | ⟨_, hcarries | ⟨key, keys, hattends⟩⟩
    · exact absurd rfl hevent
    · exact hcarries.persists
    · exact hattends.persists
  | _ => exact (ages_next hsound hnext (congrArg Owned.timeout (next_owned hnext))).persists

theorem Timely.other (h : s.Timely config r) (hsound : s.Sound config)
    (hroom : event.hasRoom = true)
    (hnext : next gbk config s event = some s') (hevent : event ≠ .timeout .scanSubmits) :
    s'.Timely config (noteScan config r s event s') := by
  have hpersists := persists_next hsound h.spread.listed hroom hnext hevent
  have hlook : (noteScan config r s event s').look = r.look := lookAfter_other hevent r.look
  constructor
  case spread => exact h.spread.next hsound hroom hnext
  case looked =>
    rw [hlook]
    exact h.looked.trans hpersists.clock
  case recent => exact recent_noteScan
  case since =>
    intro x entry attempt writtenAt hfind hstate
    change writtenAt ≤ if x ∈ awaitingIds s.pendingSubmits then r.since x else s'.clock
    split_ifs with hx
    · have hx' := mem_awaitingIds.mpr ⟨entry, attempt, writtenAt, hfind, hstate⟩
      exact h.since x entry attempt writtenAt ((hpersists.same x hx hx').symm.trans hfind) hstate
    · exact (hsound.next hnext).writtenAt_le hfind hstate
  case within =>
    intro hscans x hx' hnot
    rw [hlook]
    change r.look < (if x ∈ awaitingIds s.pendingSubmits then r.since x else s'.clock) + _ +
      (if x ∈ awaitingIds s'.pendingSubmits then r.passes x + _ else 0) * _
    rw [if_pos hx', passesOver_other hevent x]
    split_ifs with hx
    · have hwithin := h.within (hpersists.scans hscans) x hx (hpersists.taken hscans x hx' hnot)
      have hmul := Nat.mul_le_mul_left (r.passes x) (gap_le_noteScan :
        r.gap ≤ (noteScan config r s event s').gap)
      change _ < _ + _ + r.passes x * _
      omega
    · have hlooked := h.looked.trans hpersists.clock
      have htimeout := config.responseTimeout_pos
      omega

/-! ## A look -/

theorem Timely.scanSubmits (h : s.Timely config r) (hsound : s.Sound config)
    (hnext : s.timeoutNext config .scanSubmits = some s') :
    s'.Timely config (noteScan config r s (.timeout .scanSubmits) s') := by
  have hroom : (ConnectionEvent.timeout .scanSubmits).hasRoom = true := rfl
  rcases timeoutNext_cases h.spread.listed hroom hnext with ⟨now, _, hstage, hs'⟩ | ⟨hother, _⟩
  · have hlook : (noteScan config r s (.timeout .scanSubmits) s').look = now := by
      change s.lookAfter (.timeout .scanSubmits) r.look = now
      unfold lookAfter
      rw [hstage]
    have hnow : now ≤ s.clock := by
      have hle := hsound.wired.timeout.now_le
      rwa [hstage] at hle
    have hscans : s.Scans := Or.inl (by rw [hstage]; rfl)
    have hkeys : s.timeout.keys = [] := by rw [hstage]; rfl
    have hpending : s'.pendingSubmits = s.pendingSubmits := by rw [hs']; rfl
    constructor
    case spread => exact h.spread.timeoutNext hsound hroom hnext
    case looked =>
      rw [hlook, hs']
      exact hnow
    case recent => exact recent_noteScan
    case since =>
      intro x entry attempt writtenAt hfind hstate
      rw [hpending] at hfind
      have hx := mem_awaitingIds.mpr ⟨entry, attempt, writtenAt, hfind, hstate⟩
      change writtenAt ≤ if x ∈ awaitingIds s.pendingSubmits then r.since x else s'.clock
      rw [if_pos hx]
      exact h.since x entry attempt writtenAt hfind hstate
    case within =>
      intro _ x hx hnot
      rw [hpending] at hx
      obtain ⟨entry, attempt, writtenAt, hfind, hstate⟩ := mem_awaitingIds.mp hx
      have hsince := h.since x entry attempt writtenAt hfind hstate
      have hgap : r.gap ≤ (noteScan config r s (.timeout .scanSubmits) s').gap := gap_le_noteScan
      rw [hlook]
      change now < (if x ∈ awaitingIds s.pendingSubmits then r.since x else s'.clock) + _ +
        (if x ∈ awaitingIds s'.pendingSubmits then r.passes x + _ else 0) * _
      rw [if_pos hx, hpending, if_pos hx]
      by_cases hdue : config.responseTimeout ≤ now - writtenAt
      · -- the attempt is passed over, and the last look was one gap ago at most
        have hover : s.passesOver config (.timeout .scanSubmits) x = true := by
          unfold passesOver
          rw [hstage, hfind, Option.map_some, hstate]
          rw [hs'] at hnot
          exact Bool.and_eq_true_iff.mpr ⟨decide_eq_true hdue, decide_eq_true hnot⟩
        have hwithin := h.within hscans x hx (by rw [hkeys]; exact List.not_mem_nil)
        have hrecent := h.recent hscans
        have hmul := Nat.mul_le_mul_left (r.passes x + 1) hgap
        rw [hover]
        change _ < _ + _ + (r.passes x + 1) * _
        rw [Nat.add_one_mul] at hmul
        omega
      · omega
  · exact absurd rfl hother

theorem Timely.next (h : s.Timely config r) (hsound : s.Sound config) (hroom : event.hasRoom = true)
    (hnext : next gbk config s event = some s') :
    s'.Timely config (noteScan config r s event s') := by
  by_cases hevent : event = .timeout .scanSubmits
  · subst hevent
    exact h.scanSubmits hsound hnext
  · exact h.other hsound hroom hnext hevent

variable {clock : ℕ} {udhCounter : UInt32} {events : List ConnectionEvent}

theorem timely_run (hrun : ((machine gbk config clock udhCounter).recorded (.start clock)
      (noteScan config)).Run events (s, r)) (hroom : ∀ event ∈ events, event.hasRoom = true) :
    s.Sound config ∧ s.Timely config r := by
  refine hrun.invariant (I := fun events p => (∀ event ∈ events, event.hasRoom = true) →
    p.1.Sound config ∧ p.1.Timely config p.2) ?_ ?_ hroom
  · rintro ⟨s, r⟩ ⟨rfl, rfl⟩ _
    refine ⟨sound_initial config clock udhCounter, ⟨?_, Nat.le_refl _, ?_, ?_, ?_⟩⟩
    · exact spread_initial config clock udhCounter
    · exact fun _ => Nat.le_refl _
    · intro x entry attempt writtenAt hfind
      cases hfind
    · exact fun _ x hx => absurd hx List.not_mem_nil
  · rintro events ⟨s, r⟩ event ⟨s', r'⟩ ih ⟨hnext, hnote⟩ hroom
    change r' = noteScan config r s event s' at hnote
    subst hnote
    obtain ⟨hsound, htimely⟩ := ih fun e he => hroom e (List.mem_append_left _ he)
    exact ⟨hsound.next hnext,
      htimely.next hsound (hroom event (List.mem_append_right _ (List.mem_singleton_self _))) hnext⟩

/-- As long as the scans go on, an attempt that no scan has taken waits for less than the response
timeout and four gaps. -/
theorem attempts_taken_in_time (hrun : ((machine gbk config clock udhCounter).recorded
      (.start clock) (noteScan config)).Run events (s, r))
    (hroom : ∀ event ∈ events, event.hasRoom = true) (hscans : s.Scans)
    (hx : x ∈ awaitingIds s.pendingSubmits)
    (hnot : x ∉ s.timeout.keys.map SubmitAttemptKey.sequenceId) :
    s.clock < r.since x + config.responseTimeout + MAX_SUBMIT_RETRY_SPREAD_TICKS * r.gap ∧
      (r.gap ≤ config.activeCheckInterval → s.clock < r.since x + 2 * config.responseTimeout) := by
  obtain ⟨_, htimely⟩ := timely_run hrun hroom
  have hwithin := htimely.within hscans x hx hnot
  have hrecent := htimely.recent hscans
  have hticks := Nat.mul_le_mul_right r.gap (htimely.spread.few x)
  rw [Nat.succ_mul] at hticks
  have hbound : s.clock <
      r.since x + config.responseTimeout + MAX_SUBMIT_RETRY_SPREAD_TICKS * r.gap := by omega
  refine ⟨hbound, fun hgap => ?_⟩
  have hinterval := (Nat.mul_le_mul_left MAX_SUBMIT_RETRY_SPREAD_TICKS hgap).trans
    (activeCheckInterval_ticks config)
  omega

/-- Three scans find nothing overdue, and the fourth is about to look. -/
def scanFour : List ConnectionEvent :=
  admitOne ++ writeOne ++
    (List.replicate 3 [.clock 15, .timeout .tick, .timeout .scanHeartbeat, .timeout .scanSubmits,
      .timeout .rest]).flatten ++
    [.clock 15, .timeout .tick, .timeout .scanHeartbeat]

theorem attempts_taken_in_time_four : ∃ s r, ((machine asciiGbk smallConfig 0 0).recorded (.start 0)
      (noteScan smallConfig)).Run scanFour (s, r) ∧
    awaitingIds s.pendingSubmits = [2] ∧ r.gap = smallConfig.activeCheckInterval ∧
    s.clock < r.since 2 + 2 * smallConfig.responseTimeout := by
  have hexec : (Machine.execRecorded (next asciiGbk smallConfig) (noteScan smallConfig)
      (initial smallConfig 0 0) (.start 0) scanFour).map (fun p =>
        (p.1.timeout, awaitingIds p.1.pendingSubmits, p.2.gap)) =
      some (.heartbeatChecked 60, [2], 15) := by decide +kernel
  obtain ⟨⟨s, r⟩, hrun, hview⟩ := Machine.exists_run_recorded_of_exec _ hexec
  simp only [Prod.mk.injEq] at hview
  obtain ⟨hstage, hwaits, hgap⟩ := hview
  have htimely := attempts_taken_in_time hrun (by decide) (Or.inl (by rw [hstage]; rfl))
    (hwaits ▸ List.mem_singleton_self 2) (by rw [hstage]; exact List.not_mem_nil)
  exact ⟨s, r, hrun, hwaits, hgap, htimely.2 hgap.le⟩

end Connection

end CmppProtocol
