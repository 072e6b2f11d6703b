import CmppProtocol.Connection.Arrival
import CmppProtocol.Connection.Conserved
import CmppProtocol.Connection.Overtaking
import CmppProtocol.Connection.Scanning

/-! # How long a retry waits

A scan takes a quarter of the window at most, so that the retries of a full
window are spread over several scans. An overdue attempt that the scans pass over
has fewer and fewer attempts before it, and is taken by the fourth scan at the
latest.
-/

namespace CmppProtocol

namespace TimeoutStage

/-- The scan has begun and is still to look at the SUBMITs. -/
def looks : TimeoutStage → Bool
  | .ticked _ | .heartbeatExpired _ _ | .heartbeatSlot _ _ | .heartbeatChecked _ => true
  | _ => false

/-- There may be more scans after this one. -/
def goesOn : TimeoutStage → Bool
  | .heartbeatExhausted | .failing | .stopped => false
  | _ => true

end TimeoutStage

/-- A retry finds a slot in the queue, and the event of a timeout is admitted. -/
def ConnectionEvent.hasRoom : ConnectionEvent → Bool
  | .timeout .submitFull | .timeout (.giveUpSubmit false) => false
  | _ => true

namespace Connection

variable {gbk : Gbk} {config : ConnectionConfig} {s s' : Connection} {event : ConnectionEvent}
  {passes : ℕ → ℕ} {x now : ℕ} {key : SubmitAttemptKey} {keys : List SubmitAttemptKey}

/-- The step is a scan that finds the attempt overdue and does not take it. -/
def passesOver (config : ConnectionConfig) (s : Connection) (event : ConnectionEvent) (x : ℕ) :
    Bool :=
  match event, s.timeout, (s.pendingSubmits.find x).map PendingSubmit.state with
  | .timeout .scanSubmits, .heartbeatChecked now, some (.awaitingResponse _ writtenAt) =>
    config.responseTimeout ≤ now - writtenAt &&
      x ∉ (expiredSubmits s.pendingSubmits now config.responseTimeout
        config.submitRetryBatchSize).map SubmitAttemptKey.sequenceId
  | _, _, _ => false

/-- For every id, how many scans have passed over the attempt that waits for its response. -/
def countPasses (config : ConnectionConfig) (passes : ℕ → ℕ) (s : Connection)
    (event : ConnectionEvent) (s' : Connection) : ℕ → ℕ := fun x =>
  if x ∈ awaitingIds s'.pendingSubmits then passes x + (s.passesOver config event x).toNat else 0

/-- The entries of the attempts that the scan has taken are as they were, or they have gone. -/
structure Listed (s : Connection) : Prop where
  nodup : (s.timeout.keys.map SubmitAttemptKey.sequenceId).Nodup
  awaited : ∀ key ∈ s.timeout.keys, s.pendingSubmits.find key.sequenceId = none ∨
    stillAwaiting s.pendingSubmits key ≠ none

/-- Another look at the SUBMITs may come. -/
def Scans (s : Connection) : Prop :=
  s.timeout.looks = true ∨ s.timeout.goesOn = true ∧ s.phase = .opened

/-- The attempts that may come before one of this time and that the scan has not taken. -/
def ahead (s : Connection) (time : ℕ) : List ℕ :=
  overtakers s.writer.status s.pendingSubmits time s.timeout.keys

structure Spread (config : ConnectionConfig) (s : Connection) (passes : ℕ → ℕ) : Prop where
  few : ∀ x, passes x < MAX_SUBMIT_RETRY_SPREAD_TICKS
  listed : s.Listed
  passed : ∀ x, 0 < passes x → ∃ entry attempt writtenAt,
    s.pendingSubmits.find x = some entry ∧ entry.state = .awaitingResponse attempt writtenAt ∧
      writtenAt < s.clock ∧ (s.Scans →
        (s.ahead writtenAt).length + passes x * config.submitRetryBatchSize ≤ config.windowSize)

theorem windowSize_le_batches (config : ConnectionConfig) :
    config.windowSize ≤ MAX_SUBMIT_RETRY_SPREAD_TICKS * config.submitRetryBatchSize := by
  unfold ConnectionConfig.submitRetryBatchSize divCeil MAX_SUBMIT_RETRY_SPREAD_TICKS
  split_ifs
  · omega
  · omega

theorem passesOver_other (hevent : event ≠ .timeout .scanSubmits) (x : ℕ) :
    s.passesOver config event x = false := by
  unfold passesOver
  split
  · exact absurd rfl hevent
  · rfl

theorem awaiting_of_countPasses (hpos : 0 < countPasses config passes s event s' x) :
    x ∈ awaitingIds s'.pendingSubmits ∧
      countPasses config passes s event s' x = passes x + (s.passesOver config event x).toNat := by
  unfold countPasses at hpos ⊢
  split_ifs at hpos ⊢ with hmem
  · exact ⟨hmem, rfl⟩
  · exact absurd hpos (Nat.lt_irrefl 0)

/-- A step that is not the look at the SUBMITs passes over nothing. -/
theorem countPasses_le (hevent : event ≠ .timeout .scanSubmits) (x : ℕ) :
    countPasses config passes s event s' x ≤ passes x := by
  unfold countPasses
  split_ifs
  · rw [passesOver_other hevent x]
    exact Nat.le_refl _
  · exact Nat.zero_le _

/-! ## Other tasks -/

/-- What a step of another task leaves of the window. -/
structure Ages (s s' : Connection) : Prop where
  timeout : s'.timeout = s.timeout
  clock : s.clock ≤ s'.clock
  opened : s'.phase = .opened → s.phase = .opened
  stays : ∀ x entry attempt writtenAt, s.pendingSubmits.find x = some entry →
    entry.state = .awaitingResponse attempt writtenAt →
      s'.pendingSubmits.find x = none ∨ s'.pendingSubmits.find x = some entry
  absent : ∀ key ∈ s.timeout.keys, s.pendingSubmits.find key.sequenceId = none →
    s'.pendingSubmits.find key.sequenceId = none
  ahead : ∀ time < s.clock, ∀ y ∈ s'.ahead time, y ∈ s.ahead time

theorem admitted_of_listed (hsound : s.Sound config) (hkey : key ∈ s.timeout.keys) :
    ∃ a ∈ s.log.admissions, a.sequenceId = key.sequenceId := by
  have hlisted : key ∈ (s.window.life key.sequenceId).expired :=
    List.mem_filter.mpr ⟨hkey, decide_eq_true rfl⟩
  rcases hsound.lives key.sequenceId with hlife | ⟨a, n, _, hlife⟩
  · rw [hlife.expired] at hlisted
    cases hlisted
  · have ha : a ∈ (s.window.life key.sequenceId).admissions := by
      rw [hlife.admissions]
      exact List.mem_singleton_self a
    obtain ⟨ha, hx⟩ := List.mem_filter.mp ha
    exact ⟨a, ha, of_decide_eq_true hx⟩

theorem ages_next (hsound : s.Sound config) (hnext : next gbk config s event = some s')
    (htimeout : s'.timeout = s.timeout) : s.Ages s' := by
  have hexpired : s'.window.expired = s.window.expired := by
    change s'.timeout.keys = s.timeout.keys
    rw [htimeout]
  rcases (follows_next hsound.wired hsound.ledger hnext).window with hsame | hstep
  · have hpending : s'.pendingSubmits = s.pendingSubmits := congrArg Window.pending hsame
    have hstatus : s'.writer.status = s.writer.status := congrArg Window.status hsame
    have hclock : s'.clock = s.clock := congrArg Window.clock hsame
    have hphase : s'.phase = s.phase := congrArg Window.phase hsame
    refine ⟨htimeout, hclock.ge, fun hopen => hphase ▸ hopen, ?_, ?_, ?_⟩
    · intro x entry attempt writtenAt hfind _
      rw [hpending]
      exact Or.inr hfind
    · intro key _ hnone
      rw [hpending]
      exact hnone
    · intro time _ y hy
      rwa [ahead, hpending, hstatus, htimeout] at hy
  · refine ⟨htimeout, hstep.clock_le, hsound.opened_of_next hnext, ?_, ?_, ?_⟩
    · intro x entry attempt writtenAt hfind hstate
      exact hstep.stays hexpired hfind hstate
    · intro key hkey hnone
      exact hstep.absent hexpired hnone (admitted_of_listed hsound hkey)
    · intro time hpast y hy
      rw [ahead, htimeout] at hy
      exact hstep.overtakers_subset hexpired hpast y hy

theorem Scans.of_ages (hages : s.Ages s') (h : s'.Scans) : s.Scans := by
  unfold Scans at h ⊢
  rw [hages.timeout] at h
  exact h.imp_right fun hopen => ⟨hopen.1, hages.opened hopen.2⟩

theorem Listed.of_ages (h : s.Listed) (hages : s.Ages s') : s'.Listed := by
  constructor
  · rw [hages.timeout]
    exact h.nodup
  · intro key hkey
    rw [hages.timeout] at hkey
    rcases h.awaited key hkey with hnone | hawaiting
    · exact Or.inl (hages.absent key hkey hnone)
    · obtain ⟨entry, hstill⟩ := Option.ne_none_iff_exists'.mp hawaiting
      obtain ⟨hfind, hsub, writtenAt, hstate⟩ := stillAwaiting_some hstill
      rcases hages.stays _ _ _ _ hfind hstate with hnone | hfind'
      · exact Or.inl hnone
      · refine Or.inr ?_
        simp only [stillAwaiting, hfind', hstate, hsub, and_self, if_true]
        exact Option.some_ne_none _

/-- The entry that waits now is the one that was passed over. -/
theorem Spread.other (h : s.Spread config passes) (hages : s.Ages s')
    (hevent : event ≠ .timeout .scanSubmits) :
    s'.Spread config (countPasses config passes s event s') := by
  refine ⟨fun x => (countPasses_le hevent x).trans_lt (h.few x), h.listed.of_ages hages, ?_⟩
  intro x hpos
  obtain ⟨hmem, _⟩ := awaiting_of_countPasses hpos
  have hle : countPasses config passes s event s' x ≤ passes x := countPasses_le hevent x
  obtain ⟨entry, attempt, writtenAt, hfind, hstate, hpast, hahead⟩ := h.passed x (hpos.trans_le hle)
  obtain ⟨entry', _, _, hfind', _⟩ := mem_awaitingIds.mp hmem
  rcases hages.stays x entry attempt writtenAt hfind hstate with hnone | hsame
  · cases hnone.symm.trans hfind'
  · refine ⟨entry, attempt, writtenAt, hsame, hstate, hpast.trans_le hages.clock, fun hscans => ?_⟩
    have hbound := hahead (hscans.of_ages hages)
    have hfewer := overtakers_length_le (hages.ahead writtenAt hpast)
    have hmul := Nat.mul_le_mul_right config.submitRetryBatchSize hle
    unfold Connection.ahead at hbound ⊢
    omega

/-! ## The scan itself -/

/-- Nothing is taken, and no entry changes. -/
structure Carries (s s' : Connection) : Prop where
  pending : s'.pendingSubmits = s.pendingSubmits
  status : s'.writer.status = s.writer.status
  clock : s'.clock = s.clock
  keys : s'.timeout.keys = s.timeout.keys
  scans : s'.Scans → s.Scans

theorem Spread.carry (h : s.Spread config passes) (hcarries : s.Carries s')
    (hevent : event ≠ .timeout .scanSubmits) :
    s'.Spread config (countPasses config passes s event s') := by
  refine ⟨fun x => (countPasses_le hevent x).trans_lt (h.few x), ⟨?_, ?_⟩, ?_⟩
  · rw [hcarries.keys]
    exact h.listed.nodup
  · rw [hcarries.keys, hcarries.pending]
    exact h.listed.awaited
  · intro x hpos
    have hle : countPasses config passes s event s' x ≤ passes x := countPasses_le hevent x
    obtain ⟨entry, attempt, writtenAt, hfind, hstate, hpast, hahead⟩ :=
      h.passed x (hpos.trans_le hle)
    refine ⟨entry, attempt, writtenAt, ?_, hstate, hcarries.clock ▸ hpast, fun hscans' => ?_⟩
    · rw [hcarries.pending]
      exact hfind
    · have hbound := hahead (hcarries.scans hscans')
      have hmul := Nat.mul_le_mul_right config.submitRetryBatchSize hle
      unfold Connection.ahead at hbound ⊢
      rw [hcarries.pending, hcarries.status, hcarries.keys]
      omega

/-- The first attempt on the list is dealt with: its entry is moved or gone, unless no other scan
will come. -/
structure Attends (s s' : Connection) (key : SubmitAttemptKey) (keys : List SubmitAttemptKey) :
    Prop where
  taken : s.timeout.keys = key :: keys
  left : s'.timeout.keys = keys ∨ s'.timeout.keys = [] ∧ ¬ s'.Scans
  status : s'.writer.status = s.writer.status
  clock : s'.clock = s.clock
  scans : s'.Scans → s.Scans
  others : ∀ y ≠ key.sequenceId, s'.pendingSubmits.find y = s.pendingSubmits.find y
  own : s'.pendingSubmits.find key.sequenceId = s.pendingSubmits.find key.sequenceId ∨
    key.sequenceId ∉ awaitingIds s'.pendingSubmits
  moved : s'.Scans → ∀ entry, s'.pendingSubmits.find key.sequenceId = some entry →
    ∀ status time, entry.state.overtakes status time = false

theorem Attends.ahead (h : s.Attends s' key keys) (hscans : s'.Scans) (time : ℕ) :
    ∀ y ∈ s'.ahead time, y ∈ s.ahead time := by
  intro y hy
  unfold Connection.ahead at hy ⊢
  rw [mem_overtakers] at hy ⊢
  obtain ⟨⟨entry, hfind, hovertakes⟩, hnot⟩ := hy
  have hne : y ≠ key.sequenceId := by
    rintro rfl
    rw [h.moved hscans entry hfind] at hovertakes
    cases hovertakes
  refine ⟨⟨entry, (h.others y hne).symm.trans hfind, h.status ▸ hovertakes⟩, ?_⟩
  have hleft : s'.timeout.keys = keys := h.left.resolve_right fun hnone => hnone.2 hscans
  rw [h.taken, List.map_cons, List.mem_cons]
  rw [hleft] at hnot
  rintro (heq | hmem)
  · exact hne heq
  · exact hnot hmem

theorem Listed.attend (h : s.Listed) (hattends : s.Attends s' key keys) : s'.Listed := by
  have hnodup := h.nodup
  rw [hattends.taken, List.map_cons, List.nodup_cons] at hnodup
  rcases hattends.left with hleft | ⟨hleft, _⟩
  · constructor
    · rw [hleft]
      exact hnodup.2
    · intro other hother
      rw [hleft] at hother
      have hne : other.sequenceId ≠ key.sequenceId :=
        fun heq => hnodup.1 (heq ▸ List.mem_map_of_mem hother)
      have hawaited := h.awaited other (hattends.taken ▸ List.mem_cons_of_mem key hother)
      rwa [stillAwaiting, hattends.others _ hne]
  · constructor
    · rw [hleft]
      exact List.nodup_nil
    · rw [hleft]
      exact fun other hother => absurd hother List.not_mem_nil

theorem Spread.attend (h : s.Spread config passes) (hattends : s.Attends s' key keys)
    (hevent : event ≠ .timeout .scanSubmits) :
    s'.Spread config (countPasses config passes s event s') := by
  refine ⟨fun x => (countPasses_le hevent x).trans_lt (h.few x), h.listed.attend hattends, ?_⟩
  intro x hpos
  obtain ⟨hmem, _⟩ := awaiting_of_countPasses hpos
  have hle : countPasses config passes s event s' x ≤ passes x := countPasses_le hevent x
  obtain ⟨entry, attempt, writtenAt, hfind, hstate, hpast, hahead⟩ := h.passed x (hpos.trans_le hle)
  have hsame : s'.pendingSubmits.find x = some entry := by
    by_cases hx : x = key.sequenceId
    · subst hx
      rcases hattends.own with hown | hgone
      · exact hown.trans hfind
      · exact absurd hmem hgone
    · exact (hattends.others x hx).trans hfind
  refine ⟨entry, attempt, writtenAt, hsame, hstate, hattends.clock ▸ hpast, fun hscans => ?_⟩
  have hbound := hahead (hattends.scans hscans)
  have hfewer := overtakers_length_le (hattends.ahead hscans writtenAt)
  have hmul := Nat.mul_le_mul_right config.submitRetryBatchSize hle
  unfold Connection.ahead at hbound
  change (overtakers _ _ _ _).length + _ ≤ _
  omega

theorem find_none_of_stale (hlisted : s.Listed) (hmem : key ∈ s.timeout.keys)
    (hstale : stillAwaiting s.pendingSubmits key = none) :
    s.pendingSubmits.find key.sequenceId = none :=
  (hlisted.awaited key hmem).resolve_right fun hawaiting => hawaiting hstale

theorem attends_retrySubmit (hlisted : s.Listed) (hstage : s.timeout = .retrySlot now key keys) :
    s.Attends (s.retrySubmit now key keys) key keys := by
  have htaken : s.timeout.keys = key :: keys := by rw [hstage]; rfl
  have hgoesOn : s.timeout.goesOn = true := by rw [hstage]; rfl
  have hscans (hopen : s.phase = .opened) : s.Scans := Or.inr ⟨hgoesOn, hopen⟩
  unfold Connection.retrySubmit
  split
  · next hstale =>
    have hnone := find_none_of_stale hlisted (htaken ▸ List.mem_cons_self) hstale
    constructor
    case taken => exact htaken
    case left => exact Or.inl rfl
    case status => rfl
    case clock => rfl
    case scans =>
      rintro (hlooks | ⟨_, hopen⟩)
      · cases hlooks
      · exact hscans hopen
    case others => exact fun _ _ => rfl
    case own => exact Or.inl rfl
    case moved =>
      intro _ entry hfind
      cases hnone.symm.trans hfind
  · next entry hstill =>
    have hfind := (stillAwaiting_some hstill).1
    split_ifs with hclosed
    · have hnot : ¬ (s.setTimeout (.expired now keys)).Scans := by
        rintro (hlooks | ⟨_, hopen⟩)
        · cases hlooks
        · exact hclosed hopen
      exact ⟨htaken, Or.inl rfl, rfl, rfl, fun h => absurd h hnot, fun _ _ => rfl, Or.inl rfl,
        fun h => absurd h hnot⟩
    · have hopen : s.phase = .opened := not_not.mp hclosed
      constructor
      case taken => exact htaken
      case left => exact Or.inl rfl
      case status => rfl
      case clock => rfl
      case scans => exact fun _ => hscans hopen
      case others =>
        intro y hne
        exact (find_setState hfind).trans (if_neg hne)
      case own => exact Or.inr (awaitingIds_requeue _ hfind).2
      case moved =>
        intro _ entry' hfind' status time
        cases ((find_setState hfind).trans (if_pos rfl)).symm.trans hfind'
        rfl

theorem attends_giveUpSubmit (hlisted : s.Listed)
    (hstage : s.timeout = .expired now (key :: keys)) :
    s.Attends (s.giveUpSubmit now key keys true) key keys := by
  have htaken : s.timeout.keys = key :: keys := by rw [hstage]; rfl
  have hgoesOn : s.timeout.goesOn = true := by rw [hstage]; rfl
  have hphase : (s.giveUpSubmit now key keys true).phase = s.phase := by
    unfold Connection.giveUpSubmit
    split
    · rfl
    · rw [if_neg (by decide)]
      rfl
  have hleft : (s.giveUpSubmit now key keys true).timeout.keys = keys ∨
      (s.giveUpSubmit now key keys true).timeout.keys = [] ∧
        ¬ (s.giveUpSubmit now key keys true).Scans := by
    rcases (attended_giveUpSubmit s now key keys).2 with hnext | hnext
    · rw [hnext]
      exact Or.inl rfl
    · refine Or.inr ⟨by rw [hnext]; rfl, ?_⟩
      rintro (hlooks | ⟨hgoes, _⟩)
      · rw [hnext] at hlooks
        cases hlooks
      · rw [hnext] at hgoes
        cases hgoes
  have hscans : (s.giveUpSubmit now key keys true).Scans → s.Scans := by
    rintro (hlooks | ⟨_, hopen⟩)
    · rcases (attended_giveUpSubmit s now key keys).2 with hnext | hnext
      · rw [hnext] at hlooks
        cases hlooks
      · rw [hnext] at hlooks
        cases hlooks
    · exact Or.inr ⟨hgoesOn, hphase ▸ hopen⟩
  constructor
  case taken => exact htaken
  case left => exact hleft
  case scans => exact hscans
  case status =>
    unfold Connection.giveUpSubmit
    split
    · rfl
    · rfl
  case clock =>
    unfold Connection.giveUpSubmit
    split
    · rfl
    · rfl
  case others =>
    intro y hne
    unfold Connection.giveUpSubmit
    split
    · rfl
    · exact OrderedMap.find_erase.trans (if_neg hne)
  case own =>
    unfold Connection.giveUpSubmit
    split
    · exact Or.inl rfl
    · exact Or.inr (awaitingIds_erase _ _).2
  case moved =>
    unfold Connection.giveUpSubmit
    split
    · next hstale =>
      intro _ entry hfind
      cases (find_none_of_stale hlisted (htaken ▸ List.mem_cons_self) hstale).symm.trans hfind
    · intro _ entry' hfind'
      cases (OrderedMap.find_erase.trans (if_pos rfl)).symm.trans hfind'

theorem overdue_of_passesOver (hstage : s.timeout = .heartbeatChecked now)
    (hover : s.passesOver config (.timeout .scanSubmits) x = true) :
    ∃ entry attempt writtenAt, s.pendingSubmits.find x = some entry ∧
      entry.state = .awaitingResponse attempt writtenAt ∧
      config.responseTimeout ≤ now - writtenAt ∧
      x ∉ (expiredSubmits s.pendingSubmits now config.responseTimeout
        config.submitRetryBatchSize).map SubmitAttemptKey.sequenceId := by
  unfold passesOver at hover
  rw [hstage] at hover
  split at hover
  · next now' attempt writtenAt _ hchecked hstate =>
    cases hchecked
    obtain ⟨entry, hfind, hstate⟩ := Option.map_eq_some_iff.mp hstate
    obtain ⟨hdue, hnot⟩ := Bool.and_eq_true_iff.mp hover
    exact ⟨entry, attempt, writtenAt, hfind, hstate, of_decide_eq_true hdue, of_decide_eq_true hnot⟩
  · cases hover

/-- A scan that passes an attempt over takes a batch of those that come before it. -/
theorem Spread.over (h : s.Spread config passes) (hsound : s.Sound config)
    (hstage : s.timeout = .heartbeatChecked now)
    (hover : s.passesOver config (.timeout .scanSubmits) x = true) :
    passes x + 1 < MAX_SUBMIT_RETRY_SPREAD_TICKS ∧ ∃ entry attempt writtenAt,
      s.pendingSubmits.find x = some entry ∧ entry.state = .awaitingResponse attempt writtenAt ∧
        writtenAt < s.clock ∧
        (overtakers s.writer.status s.pendingSubmits writtenAt (expiredSubmits s.pendingSubmits now
          config.responseTimeout config.submitRetryBatchSize)).length +
          (passes x + 1) * config.submitRetryBatchSize ≤ config.windowSize := by
  obtain ⟨entry, attempt, writtenAt, hfind, hstate, hdue, hnot⟩ :=
    overdue_of_passesOver hstage hover
  obtain ⟨hlength, holder⟩ := expiredSubmits_full hfind hstate hdue hnot
  have hkeys : s.timeout.keys = [] := by rw [hstage]; rfl
  have hbefore : (overtakers s.writer.status s.pendingSubmits writtenAt []).length +
      passes x * config.submitRetryBatchSize ≤ config.windowSize := by
    rcases Nat.eq_zero_or_pos (passes x) with hzero | hpos
    · have hsize := hsound.conserved.bounded
      have hle := overtakers_length_le_size s.writer.status s.pendingSubmits writtenAt []
      rw [hzero]
      omega
    · obtain ⟨entry', attempt', writtenAt', hfind', hstate', _, hahead⟩ := h.passed x hpos
      cases hfind.symm.trans hfind'
      cases hstate.symm.trans hstate'
      have hbound := hahead (Or.inl (by rw [hstage]; rfl))
      rwa [Connection.ahead, hkeys] at hbound
  have htaken := overtakers_taken s.writer.status writtenAt
    (expiredSubmits_nodup s.pendingSubmits now config.responseTimeout config.submitRetryBatchSize)
    fun key hkey => by
      obtain ⟨e, t, hfind', hstate', hle⟩ := holder key hkey
      refine mem_overtakers.mpr ⟨⟨e, hfind', ?_⟩, List.not_mem_nil⟩
      rw [hstate']
      exact decide_eq_true hle
  have hself : x ∈ overtakers s.writer.status s.pendingSubmits writtenAt (expiredSubmits
      s.pendingSubmits now config.responseTimeout config.submitRetryBatchSize) := by
    refine mem_overtakers.mpr ⟨⟨entry, hfind, ?_⟩, hnot⟩
    rw [hstate]
    exact decide_eq_true (Nat.le_refl _)
  have hpos := List.length_pos_of_mem hself
  have hsucc := Nat.add_one_mul (passes x) config.submitRetryBatchSize
  have hwindow := windowSize_le_batches config
  have hbound : (overtakers s.writer.status s.pendingSubmits writtenAt (expiredSubmits
      s.pendingSubmits now config.responseTimeout config.submitRetryBatchSize)).length +
      (passes x + 1) * config.submitRetryBatchSize ≤ config.windowSize := by
    rw [hlength] at htaken
    omega
  have hpast : writtenAt < s.clock := by
    have hnow := hsound.wired.timeout.now_le
    have htimeout := config.responseTimeout_pos
    rw [hstage] at hnow
    change now ≤ s.clock at hnow
    omega
  refine ⟨?_, entry, attempt, writtenAt, hfind, hstate, hpast, hbound⟩
  apply Nat.lt_of_mul_lt_mul_right (a := config.submitRetryBatchSize)
  omega

theorem Spread.scanSubmits (h : s.Spread config passes) (hsound : s.Sound config)
    (hstage : s.timeout = .heartbeatChecked now)
    (hs' : s' = s.setTimeout (.expired now (expiredSubmits s.pendingSubmits now
      config.responseTimeout config.submitRetryBatchSize))) :
    s'.Spread config (countPasses config passes s (.timeout .scanSubmits) s') := by
  subst hs'
  have hlooks : s.Scans := Or.inl (by rw [hstage]; rfl)
  constructor
  case few =>
    intro x
    unfold countPasses
    split_ifs
    · cases hover : s.passesOver config (.timeout .scanSubmits) x with
      | true => exact (h.over hsound hstage hover).1
      | false => exact h.few x
    · decide
  case listed =>
    refine ⟨expiredSubmits_nodup _ _ _ _, fun key hkey => Or.inr ?_⟩
    obtain ⟨e, t, hfind, hsub, hstate, _⟩ := mem_expiredSubmits hkey
    change stillAwaiting s.pendingSubmits key ≠ none
    simp only [stillAwaiting, hfind, hstate, hsub, and_self, if_true]
    exact Option.some_ne_none _
  case passed =>
    intro x hpos
    obtain ⟨_, hcount⟩ := awaiting_of_countPasses hpos
    rw [hcount] at hpos ⊢
    cases hover : s.passesOver config (.timeout .scanSubmits) x with
    | true =>
      obtain ⟨_, entry, attempt, writtenAt, hfind, hstate, hpast, hbound⟩ :=
        h.over hsound hstage hover
      exact ⟨entry, attempt, writtenAt, hfind, hstate, hpast, fun _ => hbound⟩
    | false =>
      rw [hover] at hpos
      obtain ⟨entry, attempt, writtenAt, hfind, hstate, hpast, hahead⟩ := h.passed x hpos
      refine ⟨entry, attempt, writtenAt, hfind, hstate, hpast, fun _ => ?_⟩
      have hbound := hahead hlooks
      have hkeys : s.timeout.keys = [] := by rw [hstage]; rfl
      rw [Connection.ahead, hkeys] at hbound
      refine (Nat.add_le_add_right (overtakers_length_le fun y hy => ?_) _).trans hbound
      obtain ⟨hentry, _⟩ := mem_overtakers.mp hy
      exact mem_overtakers.mpr ⟨hentry, List.not_mem_nil⟩

/-- What a step of the timeout task does when there is room. -/
theorem timeoutNext_cases (hlisted : s.Listed) {event : TimeoutEvent}
    (hroom : (ConnectionEvent.timeout event).hasRoom = true)
    (hnext : s.timeoutNext config event = some s') :
    (∃ now, event = .scanSubmits ∧ s.timeout = .heartbeatChecked now ∧
      s' = s.setTimeout (.expired now (expiredSubmits s.pendingSubmits now config.responseTimeout
        config.submitRetryBatchSize))) ∨
      event ≠ .scanSubmits ∧ (s.Carries s' ∨ ∃ key keys, s.Attends s' key keys) := by
  cases event with
  | scanSubmits =>
    simp only [Connection.timeoutNext] at hnext
    split at hnext
    · next now hstage =>
      cases hnext
      exact Or.inl ⟨now, rfl, hstage, rfl⟩
    · cases hnext
  | giveUpSubmit sent =>
    cases sent with
    | false => cases hroom
    | true =>
      simp only [Connection.timeoutNext] at hnext
      split at hnext
      · next now key keys hstage =>
        split_ifs at hnext
        cases hnext
        exact Or.inr ⟨by decide, Or.inr ⟨key, keys, attends_giveUpSubmit hlisted hstage⟩⟩
      · cases hnext
  | retrySubmit =>
    simp only [Connection.timeoutNext] at hnext
    split at hnext
    · next now key keys hstage =>
      cases hnext
      exact Or.inr ⟨by decide, Or.inr ⟨key, keys, attends_retrySubmit hlisted hstage⟩⟩
    · cases hnext
  | submitFull => cases hroom
  | tick =>
    simp only [Connection.timeoutNext] at hnext
    split_ifs at hnext with hopen
    cases hnext
    refine Or.inr ⟨by decide, Or.inl ⟨rfl, rfl, rfl, ?_, fun _ => Or.inr ⟨?_, hopen.2⟩⟩⟩
    · rw [hopen.1]
      rfl
    · rw [hopen.1]
      rfl
  | stop =>
    simp only [Connection.timeoutNext] at hnext
    split_ifs at hnext with hstopped
    cases hnext
    refine Or.inr ⟨by decide, Or.inl ⟨rfl, rfl, rfl, ?_, ?_⟩⟩
    · rw [hstopped.1]
      rfl
    · rintro (⟨⟨⟩⟩ | ⟨⟨⟩, _⟩)
  | teardown =>
    simp only [Connection.timeoutNext] at hnext
    split at hnext
    all_goals cases hnext
    all_goals
      rename_i hstage
      rw [finish_eq]
      refine Or.inr ⟨by decide, Or.inl ⟨rfl, rfl, rfl, ?_, ?_⟩⟩
      · rw [hstage]
        rfl
      · rintro (⟨⟨⟩⟩ | ⟨⟨⟩, _⟩)
  | submitSlot | rest =>
    simp only [Connection.timeoutNext] at hnext
    repeat' split at hnext
    all_goals cases hnext
    all_goals
      refine Or.inr ⟨by decide, Or.inl ⟨rfl, rfl, rfl, ?_, ?_⟩⟩
      · rw [‹s.timeout = _›]
        rfl
      · rintro (⟨⟨⟩⟩ | ⟨_, hopen⟩)
        exact Or.inr ⟨by rw [‹s.timeout = _›]; rfl, hopen⟩
  | scanHeartbeat | giveUpHeartbeat | heartbeatSlot | heartbeatFull | retryHeartbeat =>
    simp only [Connection.timeoutNext] at hnext
    repeat' split at hnext
    all_goals cases hnext
    all_goals
      refine Or.inr ⟨by decide, Or.inl ⟨rfl, rfl, rfl, ?_, fun _ => Or.inl ?_⟩⟩
      · rw [‹s.timeout = _›]
        rfl
      · rw [‹s.timeout = _›]
        rfl

theorem Spread.timeoutNext (h : s.Spread config passes) (hsound : s.Sound config)
    {event : TimeoutEvent} (hroom : (ConnectionEvent.timeout event).hasRoom = true)
    (hnext : s.timeoutNext config event = some s') :
    s'.Spread config (countPasses config passes s (.timeout event) s') := by
  rcases timeoutNext_cases h.listed hroom hnext with ⟨now, rfl, hstage, hs'⟩ | ⟨hother, hmove⟩
  · exact h.scanSubmits hsound hstage hs'
  · have hevent : ConnectionEvent.timeout event ≠ .timeout .scanSubmits :=
      fun heq => hother (ConnectionEvent.timeout.inj heq)
    rcases hmove with hcarries | ⟨key, keys, hattends⟩
    · exact h.carry hcarries hevent
    · exact h.attend hattends hevent

theorem Spread.next (h : s.Spread config passes) (hsound : s.Sound config)
    (hroom : event.hasRoom = true) (hnext : next gbk config s event = some s') :
    s'.Spread config (countPasses config passes s event s') := by
  cases event with
  | timeout event => exact h.timeoutNext hsound hroom hnext
  | _ =>
    exact h.other (ages_next hsound hnext (congrArg Owned.timeout (next_owned hnext)))
      (by rintro ⟨⟩)

variable {clock : ℕ} {udhCounter : UInt32} {events : List ConnectionEvent}

theorem spread_initial (config : ConnectionConfig) (clock : ℕ) (udhCounter : UInt32) :
    (initial config clock udhCounter).Spread config fun _ => 0 := by
  refine ⟨fun x => Nat.zero_lt_succ 3, ⟨List.nodup_nil, ?_⟩, ?_⟩
  · exact fun key hkey => absurd hkey List.not_mem_nil
  · exact fun x hpos => absurd hpos (Nat.lt_irrefl 0)

theorem spread_run (hrun : ((machine gbk config clock udhCounter).recorded (fun _ => 0)
      (countPasses config)).Run events (s, passes))
    (hroom : ∀ event ∈ events, event.hasRoom = true) :
    s.Sound config ∧ s.Spread config passes := by
  refine hrun.invariant (I := fun events p => (∀ event ∈ events, event.hasRoom = true) →
    p.1.Sound config ∧ p.1.Spread config p.2) ?_ ?_ hroom
  · rintro ⟨s, passes⟩ ⟨rfl, rfl⟩ _
    exact ⟨sound_initial config clock udhCounter, spread_initial config clock udhCounter⟩
  · rintro events ⟨s, passes⟩ event ⟨s', passes'⟩ ih ⟨hnext, hcount⟩ hroom
    change passes' = countPasses config passes s event s' at hcount
    subst hcount
    obtain ⟨hsound, hspread⟩ := ih fun e he => hroom e (List.mem_append_left _ he)
    exact ⟨hsound.next hnext,
      hspread.next hsound (hroom event (List.mem_append_right _ (List.mem_singleton_self _))) hnext⟩

/-- An overdue attempt is passed over by three scans at most, and the fourth one takes it. -/
theorem retries_spread (hrun : ((machine gbk config clock udhCounter).recorded (fun _ => 0)
      (countPasses config)).Run events (s, passes))
    (hroom : ∀ event ∈ events, event.hasRoom = true) :
    (∀ x, passes x < MAX_SUBMIT_RETRY_SPREAD_TICKS) ∧
      ∀ x now entry attempt writtenAt, passes x + 1 = MAX_SUBMIT_RETRY_SPREAD_TICKS →
        s.timeout = .heartbeatChecked now → s.pendingSubmits.find x = some entry →
        entry.state = .awaitingResponse attempt writtenAt →
        config.responseTimeout ≤ now - writtenAt →
        x ∈ (expiredSubmits s.pendingSubmits now config.responseTimeout
          config.submitRetryBatchSize).map SubmitAttemptKey.sequenceId := by
  obtain ⟨hsound, hspread⟩ := spread_run hrun hroom
  refine ⟨hspread.few, ?_⟩
  intro x now entry attempt writtenAt hlast hstage hfind hstate hdue
  by_contra hnot
  have hover : s.passesOver config (.timeout .scanSubmits) x = true := by
    unfold passesOver
    rw [hstage, hfind, Option.map_some, hstate]
    exact Bool.and_eq_true_iff.mpr ⟨decide_eq_true hdue, decide_eq_true hnot⟩
  have hlt := (hspread.over hsound hstage hover).1
  omega

/-- Both segments of a text are overdue. -/
def overdueTwo : List ConnectionEvent :=
  sendTwo ++
    [.writer .written, .writer .advance, .clock 60, .timeout .tick, .timeout .scanHeartbeat]

/-- The scan has a batch of one, and it is the first segment. -/
theorem retries_spread_two : ∃ s passes, ((machine asciiGbk pairConfig 0 0).recorded (fun _ => 0)
      (countPasses pairConfig)).Run (overdueTwo ++ [.timeout .scanSubmits]) (s, passes) ∧
    (∀ x, passes x < MAX_SUBMIT_RETRY_SPREAD_TICKS) ∧ passes 3 = 1 := by
  have hexec : (Machine.execRecorded (next asciiGbk pairConfig) (countPasses pairConfig)
      (initial pairConfig 0 0) (fun _ => 0) overdueTwo).map (fun p =>
        (p.1.timeout, p.1.pendingSubmits.entries.map fun e => (e.1, e.2.submissionId, e.2.state),
          p.2 3)) =
      some (.heartbeatChecked 60, [(2, 1, .awaitingResponse 1 0), (3, 2, .awaitingResponse 1 0)],
        0) := by decide +kernel
  obtain ⟨⟨s, passes⟩, hrun, hview⟩ := Machine.exists_run_recorded_of_exec _ hexec
  simp only [Prod.mk.injEq] at hview
  obtain ⟨hstage, hentries, hzero⟩ := hview
  obtain ⟨⟨x, first⟩, rest, hentries, hfirst, hrest⟩ := List.map_eq_cons_iff.mp hentries
  obtain ⟨⟨y, entry⟩, hrest, hsecond⟩ := List.map_eq_singleton_iff.mp hrest
  simp only [Prod.mk.injEq] at hfirst hsecond
  obtain ⟨rfl, hid, hwaits⟩ := hfirst
  obtain ⟨rfl, _, hstate⟩ := hsecond
  rw [hrest] at hentries
  have hfind : s.pendingSubmits.find 3 = some entry := by
    apply OrderedMap.find_eq_some_iff.mpr
    change (3, entry) ∈ s.pendingSubmits.entries
    rw [hentries]
    exact List.mem_cons_of_mem _ List.mem_cons_self
  have htaken : expiredSubmits s.pendingSubmits 60 60 1 = [⟨2, 1, 1⟩] := by
    unfold expiredSubmits
    rw [hentries]
    simp [hwaits, hid, hstate, List.mergeSort]
  obtain ⟨s', hs'⟩ : ∃ s',
      s' = s.setTimeout (.expired 60 (expiredSubmits s.pendingSubmits 60 60 1)) :=
    ⟨_, rfl⟩
  have hnext : next asciiGbk pairConfig s (.timeout .scanSubmits) = some s' := by
    change timeoutNext pairConfig s .scanSubmits = _
    simp only [Connection.timeoutNext, hstage]
    rw [hs']
    rfl
  have hnot : 3 ∉ (expiredSubmits s.pendingSubmits 60 60 1).map SubmitAttemptKey.sequenceId := by
    rw [htaken]
    decide
  have hover : s.passesOver pairConfig (.timeout .scanSubmits) 3 = true := by
    unfold passesOver
    rw [hstage, hfind, Option.map_some, hstate]
    exact Bool.and_eq_true_iff.mpr ⟨rfl, decide_eq_true hnot⟩
  have hstep :
      ((machine asciiGbk pairConfig 0 0).recorded (fun _ => 0) (countPasses pairConfig)).step
      (s, passes) (.timeout .scanSubmits)
      (s', countPasses pairConfig passes s (.timeout .scanSubmits) s') := ⟨hnext, rfl⟩
  refine ⟨_, _, hrun.snoc hstep, (retries_spread (hrun.snoc hstep) (by decide)).1, ?_⟩
  have hwaits : 3 ∈ awaitingIds s'.pendingSubmits := by
    rw [hs']
    exact mem_awaitingIds.mpr ⟨entry, 1, 0, hfind, hstate⟩
  rw [countPasses, if_pos hwaits, hover, hzero]
  rfl

end Connection

end CmppProtocol
