import CmppProtocol.Library.Focus
import CmppProtocol.Library.Machine
import Mathlib.Algebra.GroupWithZero.Nat
import Mathlib.Algebra.Order.BigOperators.Group.List
import Mathlib.Algebra.Order.Group.Nat
import Mathlib.Data.List.Chain
import Mathlib.Order.MinMax

/-! # Counters without locks

The depth of the event spool and its peak, and the limit on how often unexpected
PDUs are logged, are kept in atomic words that any number of tasks update at the
same time. A relaxed load may give a value that the word had before.
-/

namespace CmppProtocol

/-! ## The peak of the depth -/

/-- A permit under construction: the depth after its addition, and whether it has seen a peak that
is lower. -/
structure PermitDraft where
  count : ℕ
  depth : ℕ
  raising : Bool
  deriving DecidableEq, Repr

/-- The highest depth so far is a log. -/
structure EventDepth where
  current : ℕ
  peak : ℕ
  drafts : List PermitDraft
  permits : List ℕ
  highest : ℕ
  deriving DecidableEq, Repr

inductive DepthEvent
  | add (count : ℕ)
  | load (index observed : ℕ)
  | fetchMax (index : ℕ)
  | drop (index : ℕ)
  deriving DecidableEq, Repr

namespace EventDepth

def initial : EventDepth := ⟨0, 0, [], [], 0⟩

variable (s : EventDepth)

/-- `EventDepthPermit::new_n` in three steps, and the drop of a permit. -/
def next : DepthEvent → Option EventDepth
  | .add count => some { s with
      current := s.current + count
      drafts := s.drafts ++ [⟨count, s.current + count, false⟩]
      highest := max s.highest (s.current + count) }
  | .load index observed =>
    match s.drafts[index]? with
    | some ⟨count, depth, false⟩ =>
      if observed ≤ s.peak then
        if observed < depth then some { s with drafts := s.drafts.set index ⟨count, depth, true⟩ }
        else some { s with drafts := s.drafts.eraseIdx index, permits := s.permits ++ [count] }
      else none
    | _ => none
  | .fetchMax index =>
    match s.drafts[index]? with
    | some ⟨count, depth, true⟩ => some { s with
        peak := max s.peak depth
        drafts := s.drafts.eraseIdx index
        permits := s.permits ++ [count] }
    | _ => none
  | .drop index =>
    match s.permits[index]? with
    | some count =>
      some { s with current := s.current - count, permits := s.permits.eraseIdx index }
    | none => none

def machine : Machine EventDepth DepthEvent := .ofNext initial next

/-- The depth is what the permits hold. The highest depth is the peak, unless a draft that has
reached it has still to raise it. -/
structure Counted : Prop where
  current : s.current = (s.drafts.map PermitDraft.count).sum + s.permits.sum
  drafts : ∀ d ∈ s.drafts, d.depth ≤ s.highest
  peak : s.peak ≤ s.highest
  highest : s.highest = s.peak ∨ ∃ d ∈ s.drafts, d.depth = s.highest

variable {s} {s' : EventDepth} {e : DepthEvent}

theorem Counted.initial : initial.Counted := by
  constructor
  · rfl
  · exact fun d hd => absurd hd List.not_mem_nil
  · exact le_rfl
  · exact Or.inl rfl

/-- A draft that becomes a permit has not more to say than the peak. -/
theorem Counted.finish (h : s.Counted) {index : ℕ} {d : PermitDraft}
    (hd : s.drafts[index]? = some d) {peak : ℕ} (hpeak : s.peak ≤ peak) (hdepth : d.depth ≤ peak)
    (hhighest : peak ≤ s.highest) :
    Counted { s with
      peak := peak, drafts := s.drafts.eraseIdx index, permits := s.permits ++ [d.count] } := by
  obtain ⟨pre, post, hf⟩ := List.exists_focus hd
  constructor
  · have hcurrent := h.current
    rw [hf.split] at hcurrent
    rw [hf.erase]
    simp only [List.map_append, List.map_cons, List.sum_append, List.sum_cons, List.sum_nil] at *
    omega
  · intro x hx
    exact h.drafts x (List.mem_of_mem_eraseIdx hx)
  · exact hhighest
  · rcases h.highest with heq | ⟨x, hx, heq⟩
    · exact Or.inl (le_antisymm (heq.le.trans hpeak) hhighest)
    · rw [hf.split] at hx
      rw [hf.erase]
      rcases List.mem_append.mp hx with hx | hx
      · exact Or.inr ⟨x, List.mem_append_left _ hx, heq⟩
      rcases List.mem_cons.mp hx with rfl | hx
      · exact Or.inl (le_antisymm (heq.ge.trans hdepth) hhighest)
      · exact Or.inr ⟨x, List.mem_append_right _ hx, heq⟩

theorem Counted.next (h : s.Counted) (hnext : s.next e = some s') : s'.Counted := by
  cases e with
  | add count =>
    cases hnext
    constructor
    · simp only [List.map_append, List.map_cons, List.map_nil, List.sum_append, List.sum_cons,
        List.sum_nil, h.current]
      omega
    · intro d hd
      rcases List.mem_append.mp hd with hd | hd
      · exact (h.drafts d hd).trans (le_max_left _ _)
      · rw [List.mem_singleton.mp hd]
        exact le_max_right _ _
    · exact h.peak.trans (le_max_left _ _)
    · rcases max_choice s.highest (s.current + count) with hmax | hmax
      · rcases h.highest with heq | ⟨d, hd, heq⟩
        · exact Or.inl (hmax.trans heq)
        · exact Or.inr ⟨d, List.mem_append_left _ hd, heq.trans hmax.symm⟩
      · exact Or.inr ⟨_, List.mem_append_right _ List.mem_cons_self, hmax.symm⟩
  | load index observed =>
    dsimp only [EventDepth.next] at hnext
    split at hnext
    · next count depth hd =>
      split_ifs at hnext with hobserved hlower
      · cases hnext
        obtain ⟨pre, post, hf⟩ := List.exists_focus hd
        constructor
        · have hcurrent := h.current
          rw [hf.split] at hcurrent
          rw [hf.set]
          simpa only [List.map_append, List.map_cons] using hcurrent
        · intro x hx
          rcases List.mem_or_eq_of_mem_set hx with hx | rfl
          · exact h.drafts x hx
          · exact h.drafts ⟨count, depth, false⟩ (List.mem_of_getElem? hd)
        · exact h.peak
        · rcases h.highest with heq | ⟨x, hx, heq⟩
          · exact Or.inl heq
          · rw [hf.split] at hx
            rw [hf.set]
            rcases List.mem_append.mp hx with hx | hx
            · exact Or.inr ⟨x, List.mem_append_left _ hx, heq⟩
            rcases List.mem_cons.mp hx with rfl | hx
            · exact Or.inr ⟨_, List.mem_append_right _ List.mem_cons_self, heq⟩
            · exact Or.inr ⟨x, List.mem_append_right _ (List.mem_cons_of_mem _ hx), heq⟩
      · cases hnext
        exact h.finish hd le_rfl ((not_lt.mp hlower).trans hobserved) h.peak
    · cases hnext
  | fetchMax index =>
    dsimp only [EventDepth.next] at hnext
    split at hnext
    · next count depth hd =>
      cases hnext
      have hdepth := h.drafts _ (List.mem_of_getElem? hd)
      exact h.finish hd (le_max_left _ _) (le_max_right _ _) (max_le h.peak hdepth)
    · cases hnext
  | drop index =>
    dsimp only [EventDepth.next] at hnext
    split at hnext
    · next count hcount =>
      cases hnext
      obtain ⟨pre, post, hf⟩ := List.exists_focus hcount
      refine ⟨?_, h.drafts, h.peak, h.highest⟩
      have hcurrent := h.current
      rw [hf.split] at hcurrent
      rw [hf.erase]
      simp only [List.sum_append, List.sum_cons] at hcurrent ⊢
      omega
    · cases hnext

/-- However the tasks interleave and however old the values are that they load: the depth is the
sum of the permits that are alive, so that no drop goes below zero; the peak is never above the
highest depth that there was, and it is this depth whenever no permit is under construction. -/
theorem peak_exact {events : List DepthEvent} (hrun : machine.Run events s) :
    s.current = (s.drafts.map PermitDraft.count).sum + s.permits.sum ∧
    (∀ count ∈ s.permits, count ≤ s.current) ∧ s.peak ≤ s.highest ∧
    (s.drafts = [] → s.peak = s.highest) := by
  have h : s.Counted := hrun.invariant (I := fun _ => Counted) (fun _ hinit => hinit ▸ .initial)
    fun _ _ _ _ h hstep => h.next hstep
  refine ⟨h.current, fun count hcount => ?_, h.peak, fun hempty => ?_⟩
  · have hle := List.single_le_sum (fun x _ => Nat.zero_le x) count hcount
    have hcurrent := h.current
    omega
  · rcases h.highest with heq | ⟨d, hd, _⟩
    · exact heq.symm
    · rw [hempty] at hd
      exact absurd hd List.not_mem_nil

/-- Two tasks race: the one with the lower depth raises the peak last. -/
theorem peak_exact_raced : ∃ s, machine.Run [.add 128, .add 1, .load 0 0, .load 1 0, .fetchMax 1,
    .fetchMax 0, .drop 0] s ∧ s.peak = s.highest := by
  have hexec : (Machine.exec next initial [.add 128, .add 1, .load 0 0, .load 1 0, .fetchMax 1,
      .fetchMax 0, .drop 0]).map EventDepth.drafts = some [] := by decide
  obtain ⟨s, hrun, hempty⟩ := Machine.exists_run_of_exec EventDepth.drafts hexec
  exact ⟨s, hrun, (peak_exact hrun).2.2.2 hempty⟩

end EventDepth

/-! ## The limit on logs -/

/-- `UNEXPECTED_PDU_LOG_INTERVAL` in milliseconds. -/
def UNEXPECTED_PDU_LOG_INTERVAL : ℕ := 1000

/-- `u64::MAX`: nothing has been logged yet. -/
def neverLogged : ℕ := 2 ^ 64 - 1

inductive LogStage
  | looping
  | suppressing
  | comparing (last : ℕ)
  | swapping
  deriving DecidableEq, Repr

/-- A call of `take_unexpected_pdu_log_slot`. -/
structure LogCall where
  nowMillis : ℕ
  stage : LogStage
  deriving DecidableEq, Repr

/-- The times at which a slot was taken are a log, and so are the numbers of suppressed PDUs that
came with a slot and the number of unexpected PDUs. -/
structure UnexpectedPduLog where
  clock : ℕ
  logAt : ℕ
  suppressed : ℕ
  calls : List LogCall
  taken : List ℕ
  reported : List ℕ
  unexpectedPdus : ℕ
  deriving DecidableEq, Repr

inductive LogEvent
  | tick
  | call
  | load (index observed : ℕ)
  | suppress (index : ℕ)
  | exchange (index : ℕ)
  | swap (index : ℕ)
  deriving DecidableEq, Repr

namespace UnexpectedPduLog

def initial : UnexpectedPduLog := ⟨0, neverLogged, 0, [], [], [], 0⟩

variable (s : UnexpectedPduLog)

/-- One atomic access after the other. A load gives any value that the word has had. -/
def next : LogEvent → Option UnexpectedPduLog
  | .tick => some { s with clock := s.clock + 1 }
  | .call => some { s with
      calls := s.calls ++ [⟨s.clock % 2 ^ 64, .looping⟩]
      unexpectedPdus := s.unexpectedPdus + 1 }
  | .load index observed =>
    match s.calls[index]? with
    | some ⟨now, .looping⟩ =>
      if observed = neverLogged ∨ observed ∈ s.taken then
        some { s with calls := s.calls.set index ⟨now,
          if observed ≠ neverLogged ∧ now - observed < UNEXPECTED_PDU_LOG_INTERVAL then .suppressing
          else .comparing observed⟩ }
      else none
    | _ => none
  | .suppress index =>
    match s.calls[index]? with
    | some ⟨_, .suppressing⟩ =>
      some { s with suppressed := s.suppressed + 1, calls := s.calls.eraseIdx index }
    | _ => none
  | .exchange index =>
    match s.calls[index]? with
    | some ⟨now, .comparing last⟩ =>
      some (if s.logAt = last then
          { s with
            logAt := now
            taken := s.taken ++ [now]
            calls := s.calls.set index ⟨now, .swapping⟩ }
        else { s with calls := s.calls.set index ⟨now, .looping⟩ })
    | _ => none
  | .swap index =>
    match s.calls[index]? with
    | some ⟨_, .swapping⟩ => some { s with
        suppressed := 0
        reported := s.reported ++ [s.suppressed]
        calls := s.calls.eraseIdx index }
    | _ => none

def machine : Machine UnexpectedPduLog LogEvent := .ofNext initial next

/-- A call that compares has seen a slot that is over. -/
def Elapsed (call : LogCall) : Prop :=
  ∀ last, call.stage = .comparing last →
    last = neverLogged ∨ last + UNEXPECTED_PDU_LOG_INTERVAL ≤ call.nowMillis

/-- While the clock is below the mark of a word without a log. -/
structure Spaced : Prop where
  logAt : s.logAt = s.taken.getLast?.getD neverLogged
  spaced : s.taken.IsChain fun earlier later => earlier + UNEXPECTED_PDU_LOG_INTERVAL ≤ later
  taken : ∀ time ∈ s.taken, time ≤ s.clock
  calls : ∀ call ∈ s.calls, call.nowMillis ≤ s.clock ∧ Elapsed call

/-- Every unexpected PDU is in a call that has not ended, or has a slot, or is counted. -/
def Tallied : Prop :=
  s.unexpectedPdus = s.calls.length + s.reported.length + s.reported.sum + s.suppressed

variable {s} {s' : UnexpectedPduLog} {e : LogEvent}

theorem Tallied.next (h : s.Tallied) (hnext : s.next e = some s') : s'.Tallied := by
  unfold Tallied at h ⊢
  cases e with
  | tick =>
    cases hnext
    exact h
  | call =>
    cases hnext
    simp only [List.length_append, List.length_singleton]
    omega
  | load index observed =>
    dsimp only [UnexpectedPduLog.next] at hnext
    split at hnext
    · split_ifs at hnext
      · cases hnext
        simpa only [List.length_set] using h
      · cases hnext
        simpa only [List.length_set] using h
    · cases hnext
  | suppress index =>
    dsimp only [UnexpectedPduLog.next] at hnext
    split at hnext
    · next hcall =>
      cases hnext
      have hlength := List.length_eraseIdx_add_one (List.getElem?_eq_some_iff.mp hcall).1
      dsimp only
      omega
    · cases hnext
  | exchange index =>
    dsimp only [UnexpectedPduLog.next] at hnext
    split at hnext
    · cases hnext
      split_ifs
      · simpa only [List.length_set] using h
      · simpa only [List.length_set] using h
    · cases hnext
  | swap index =>
    dsimp only [UnexpectedPduLog.next] at hnext
    split at hnext
    · next hcall =>
      cases hnext
      have hlength := List.length_eraseIdx_add_one (List.getElem?_eq_some_iff.mp hcall).1
      simp only [List.length_append, List.length_singleton, List.sum_append, List.sum_singleton]
      omega
    · cases hnext

theorem clock_le (hnext : s.next e = some s') : s.clock ≤ s'.clock := by
  cases e with
  | tick =>
    cases hnext
    exact Nat.le_succ _
  | call =>
    cases hnext
    exact le_rfl
  | load index observed =>
    dsimp only [UnexpectedPduLog.next] at hnext
    split at hnext
    · split_ifs at hnext
      · cases hnext
        exact le_rfl
      · cases hnext
        exact le_rfl
    · cases hnext
  | exchange index =>
    dsimp only [UnexpectedPduLog.next] at hnext
    split at hnext
    · cases hnext
      split_ifs
      · exact le_rfl
      · exact le_rfl
    · cases hnext
  | suppress index | swap index =>
    dsimp only [UnexpectedPduLog.next] at hnext
    split at hnext
    · cases hnext
      exact le_rfl
    · cases hnext

/-- A step that changes one call. -/
theorem Spaced.setCall (h : s.Spaced) {index : ℕ} {call : LogCall} (hnow : call.nowMillis ≤ s.clock)
    (helapsed : Elapsed call) : Spaced { s with calls := s.calls.set index call } := by
  refine ⟨h.logAt, h.spaced, h.taken, fun other hother => ?_⟩
  rcases List.mem_or_eq_of_mem_set hother with hother | rfl
  · exact h.calls other hother
  · exact ⟨hnow, helapsed⟩

theorem Spaced.next (h : s.Spaced) (hclock : s.clock < neverLogged) (hnext : s.next e = some s') :
    s'.Spaced := by
  cases e with
  | tick =>
    cases hnext
    refine ⟨h.logAt, h.spaced, fun time htime => ?_, fun call hcall => ?_⟩
    · exact (h.taken time htime).trans (Nat.le_succ _)
    · exact (h.calls call hcall).imp_left fun hle => hle.trans (Nat.le_succ _)
  | call =>
    cases hnext
    refine ⟨h.logAt, h.spaced, h.taken, fun call hcall => ?_⟩
    rcases List.mem_append.mp hcall with hcall | hcall
    · exact h.calls call hcall
    · rw [List.mem_singleton.mp hcall]
      exact ⟨Nat.mod_le _ _, fun last hlast => by cases hlast⟩
  | load index observed =>
    dsimp only [UnexpectedPduLog.next] at hnext
    split at hnext
    · next now hcall =>
      have hnow := (h.calls _ (List.mem_of_getElem? hcall)).1
      split_ifs at hnext with hobserved hrecent
      · cases hnext
        exact h.setCall hnow fun last hlast => by cases hlast
      · cases hnext
        refine h.setCall hnow fun last hlast => ?_
        cases hlast
        by_cases hnever : observed = neverLogged
        · exact Or.inl hnever
        · have hover : ¬ now - observed < UNEXPECTED_PDU_LOG_INTERVAL :=
            fun hlt => hrecent ⟨hnever, hlt⟩
          unfold UNEXPECTED_PDU_LOG_INTERVAL at *
          refine Or.inr ?_
          dsimp only
          omega
    · cases hnext
  | exchange index =>
    dsimp only [UnexpectedPduLog.next] at hnext
    split at hnext
    · next now last hcall =>
      cases hnext
      obtain ⟨hnow, helapsed⟩ := h.calls _ (List.mem_of_getElem? hcall)
      split_ifs with hlast
      · have hset : Spaced { s with calls := s.calls.set index ⟨now, .swapping⟩ } :=
          h.setCall hnow fun last hlast => by cases hlast
        refine ⟨?_, ?_, fun time htime => ?_, hset.calls⟩
        · rw [List.getLast?_concat]
          rfl
        · refine h.spaced.append (.singleton _) fun earlier hearlier later hlater => ?_
          cases hlater
          have hlogAt := h.logAt
          rw [hearlier, Option.getD_some] at hlogAt
          rcases helapsed last rfl with hnever | hle
          · have hle := h.taken earlier (List.mem_of_getLast? hearlier)
            omega
          · rw [← hlogAt, hlast]
            exact hle
        · rcases List.mem_append.mp htime with htime | htime
          · exact h.taken time htime
          · rw [List.mem_singleton.mp htime]
            exact hnow
      · exact h.setCall hnow fun last hlast => by cases hlast
    · cases hnext
  | suppress index | swap index =>
    dsimp only [UnexpectedPduLog.next] at hnext
    split at hnext
    · cases hnext
      exact ⟨h.logAt, h.spaced, h.taken,
        fun call hcall => h.calls call (List.mem_of_mem_eraseIdx hcall)⟩
    · cases hnext

/-- Times that are spaced are few. -/
theorem length_le_of_spaced {times : List ℕ} {last : ℕ}
    (hspaced : times.IsChain fun earlier later => earlier + UNEXPECTED_PDU_LOG_INTERVAL ≤ later)
    (hlast : ∀ time ∈ times, time ≤ last) :
    (times.length - 1) * UNEXPECTED_PDU_LOG_INTERVAL ≤ last := by
  have hend : ∀ first rest, (first :: rest).IsChain (fun earlier later =>
      earlier + UNEXPECTED_PDU_LOG_INTERVAL ≤ later) → (∀ time ∈ first :: rest, time ≤ last) →
      first + rest.length * UNEXPECTED_PDU_LOG_INTERVAL ≤ last := by
    intro first rest
    induction rest generalizing first with
    | nil =>
      intro _ hle
      simpa using hle first List.mem_cons_self
    | cons second rest ih =>
      intro hchain hle
      obtain ⟨hfirst, hchain⟩ := List.isChain_cons_cons.mp hchain
      have hrest := ih second hchain fun time htime => hle time (List.mem_cons_of_mem _ htime)
      rw [List.length_cons, Nat.succ_mul]
      omega
  cases times with
  | nil => simp
  | cons first rest =>
    have hle := hend first rest hspaced hlast
    rw [List.length_cons, Nat.add_sub_cancel]
    omega

/-- Any number of tasks take slots. While the clock has not come to the mark of a log that was never
taken, two slots are a second apart at least, so that they are no more than the seconds that have
passed and one; and every unexpected PDU has a slot of its own, or it is in exactly one of the
numbers that came with a slot, or it is still counted, or its call goes on. -/
theorem logs_limited {events : List LogEvent} (hrun : machine.Run events s) :
    (s.clock < neverLogged →
      s.taken.IsChain (fun earlier later => earlier + UNEXPECTED_PDU_LOG_INTERVAL ≤ later) ∧
      (s.taken.length - 1) * UNEXPECTED_PDU_LOG_INTERVAL ≤ s.clock) ∧
    s.unexpectedPdus = s.calls.length + s.reported.length + s.reported.sum + s.suppressed := by
  have h : s.Tallied ∧ (s.clock < neverLogged → s.Spaced) := by
    refine hrun.invariant (I := fun _ s => s.Tallied ∧ (s.clock < neverLogged → s.Spaced)) ?_ ?_
    · rintro _ rfl
      refine ⟨rfl, fun _ => ⟨rfl, .nil, ?_, ?_⟩⟩
      · exact fun time htime => absurd htime List.not_mem_nil
      · exact fun call hcall => absurd hcall List.not_mem_nil
    · rintro _ s e s' ⟨htallied, hspaced⟩ hstep
      refine ⟨htallied.next hstep, fun hlt => ?_⟩
      have hbefore := (clock_le hstep).trans_lt hlt
      exact (hspaced hbefore).next hbefore hstep
  constructor
  · intro hclock
    have hspaced := h.2 hclock
    exact ⟨hspaced.spaced, length_le_of_spaced hspaced.spaced hspaced.taken⟩
  · exact h.1

/-- Two calls compare with the same value; the second one has to look again, and is suppressed. -/
theorem logs_limited_contended : ∃ s, machine.Run [.call, .call, .load 0 neverLogged,
    .load 1 neverLogged, .exchange 1, .swap 1, .exchange 0, .load 0 0, .suppress 0] s ∧
    (s.taken.length - 1) * UNEXPECTED_PDU_LOG_INTERVAL ≤ s.clock ∧
    s.unexpectedPdus = s.calls.length + s.reported.length + s.reported.sum + s.suppressed := by
  have hexec : (Machine.exec next initial [.call, .call, .load 0 neverLogged, .load 1 neverLogged,
      .exchange 1, .swap 1, .exchange 0, .load 0 0, .suppress 0]).map clock = some 0 := by decide
  obtain ⟨s, hrun, hclock⟩ := Machine.exists_run_of_exec clock hexec
  have hlt : s.clock < neverLogged := hclock ▸ by decide
  obtain ⟨hspaced, haccount⟩ := logs_limited hrun
  exact ⟨s, hrun, (hspaced hlt).2, haccount⟩

end UnexpectedPduLog

end CmppProtocol
