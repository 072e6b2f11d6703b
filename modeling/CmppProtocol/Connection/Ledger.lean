import CmppProtocol.Connection.Entries
import CmppProtocol.Connection.Transitions
import CmppProtocol.Library.Focus
import CmppProtocol.Sequence.Leases
import Mathlib.Tactic.Abel

/-! # Window permits and sequence leases

Every permit is free, with a pending SUBMIT or with a call; every reservation of
the registry has one lease, kept by a call, a pending request, the heartbeat
task or the local TERMINATE. An admitted id is blocked, so that it is never
admitted again.
-/

namespace CmppProtocol

open SequenceLease SequenceState

def HeartbeatStage.lease : HeartbeatStage → Option SequenceLease
  | .prepared lease _ => some lease
  | _ => none

/-- Who holds what. -/
structure Holdings where
  calls : List SubmitCall
  pending : PendingSubmits
  heartbeats : OrderedMap ℕ PendingHeartbeat
  others : List SequenceLease
  registry : SequenceState
  permits : ℕ
  admitted : List ℕ
  retireFailed : List ℕ

def Connection.holdings (s : Connection) : Holdings where
  calls := s.calls
  pending := s.pendingSubmits
  heartbeats := s.heartbeatPending
  others := s.heartbeat.lease.toList ++ s.pendingTerminate.toList
  registry := s.sequenceRegistry
  permits := s.windowPermits
  admitted := s.log.admissions.map Admission.sequenceId
  retireFailed := s.log.retireFailed

namespace Holdings

def pendingLeases (v : Holdings) : List SequenceLease :=
  v.pending.entries.map fun p => p.2.sequenceLease

def heartbeatLeases (v : Holdings) : List SequenceLease :=
  v.heartbeats.entries.map fun p => p.2.sequenceLease

def leases (v : Holdings) : List SequenceLease :=
  v.calls.flatMap SubmitCall.leases ++ (v.pendingLeases ++ (v.heartbeatLeases ++ v.others))

end Holdings

/-- What a call may hold at its stage. -/
structure SubmitCall.Holding (call : SubmitCall) (registry : SequenceState)
    (admitted retireFailed : List ℕ) : Prop where
  releasable : ∀ l ∈ call.leases, l.releaseOnDrop = true ∨
    l.sequenceId ∈ retireFailed ∧ ∃ error, call.stage = .failing (some l) error
  automatic : ∀ l ∈ call.leases, l.manual = false → l.sequenceId ∈ registry.blocked
  fresh : ∀ l ∈ call.leases, l.sequenceId ∉ admitted
  keyed : ∀ l packet key,
    call.stage = .encoded l packet key ∨ call.stage = .reserved l packet key →
      key.sequenceId = l.sequenceId ∧ key.attempt = 1
  clear : call.stage = .entered ∨ call.ended = true → call.manualSequenceLeases = []

structure Ledger (config : ConnectionConfig) (v : Holdings) : Prop where
  holds : v.registry.Holds (held v.leases + (v.retireFailed : Multiset ℕ))
  permits : v.permits + v.pending.size + v.calls.countP SubmitCall.holdsPermit = config.windowSize
  blocked : ∀ x ∈ v.admitted, x ∈ v.registry.blocked
  keyed : ∀ p ∈ v.pending, p.2.sequenceLease.sequenceId = p.1 ∧ p.1 ∈ v.admitted
  retired : ∀ p ∈ v.pending, p.2.sequenceLease.releaseOnDrop = false → p.1 ∉ v.registry.reserved
  calls : ∀ call ∈ v.calls, call.Holding v.registry v.admitted v.retireFailed

section Drop

variable {registry : SequenceState} {leases : List SequenceLease} {ids : Multiset ℕ}

theorem holds_dropLeases (h : registry.Holds (held leases + ids)) :
    (Connection.dropLeases registry leases).Holds ids := by
  induction leases generalizing registry with
  | nil =>
    rw [held_nil, zero_add] at h
    exact h
  | cons lease leases ih =>
    rw [held_cons, add_assoc] at h
    exact ih h.drop

theorem keeps_dropLeases (registry : SequenceState) (leases : List SequenceLease) :
    Keeps registry (Connection.dropLeases registry leases) := by
  induction leases generalizing registry with
  | nil => exact .refl registry
  | cons lease leases ih => exact (keeps_drop registry lease).trans (ih _)

end Drop

section Retire

open Connection

variable {registry registry' : SequenceState} {lease retired : SequenceLease} {ids : Multiset ℕ}

/-- The lease that goes into the window: its id is blocked from now on. -/
theorem retireManual_true (h : registry.Holds (held [lease] + ids))
    (hr : lease.releaseOnDrop = true)
    (hauto : lease.manual = false → lease.sequenceId ∈ registry.blocked)
    (hs : retireManual registry lease = (true, retired, registry')) :
    registry'.Holds (held [retired] + ids) ∧ Keeps registry registry' ∧
      lease.sequenceId ∈ registry'.blocked ∧ retired.sequenceId = lease.sequenceId ∧
      (retired.releaseOnDrop = false → lease.sequenceId ∉ registry'.reserved) := by
  rw [retireManual] at hs
  split_ifs at hs with hmanual
  · cases hret : registry.retire lease.sequenceId with
    | mk ok next =>
      simp only [SequenceLease.retire, hret, Prod.mk.injEq] at hs
      obtain ⟨rfl, rfl, rfl⟩ := hs
      obtain ⟨hholds, hkeeps, hblocked⟩ := h.retire_true hr hret
      have hnodup := h.nodup
      rw [held_releasable hr, Multiset.singleton_add, Multiset.nodup_cons] at hnodup
      refine ⟨?_, hkeeps, hblocked, rfl, fun _ hm => hnodup.1 (hholds.mem_iff.mp hm)⟩
      rw [held_retired rfl, zero_add]
      exact hholds
  · simp only [Prod.mk.injEq, true_and] at hs
    obtain ⟨rfl, rfl⟩ := hs
    refine ⟨h, .refl _, hauto (Bool.eq_false_iff.mpr hmanual), rfl, fun hf => ?_⟩
    rw [hr] at hf
    cases hf

theorem retireManual_false (h : registry.Holds (held [lease] + ids))
    (hr : lease.releaseOnDrop = true)
    (hs : retireManual registry lease = (false, retired, registry')) :
    registry' = registry ∧ retired = { lease with releaseOnDrop := false } := by
  rw [retireManual] at hs
  split_ifs at hs with hmanual
  · cases hret : registry.retire lease.sequenceId with
    | mk ok next =>
      simp only [SequenceLease.retire, hret, Prod.mk.injEq] at hs
      obtain ⟨rfl, rfl, rfl⟩ := hs
      rw [held_releasable hr] at h
      have hle := h.le_u32Max (Multiset.mem_add.mpr (Or.inl (Multiset.mem_singleton_self _)))
      exact ⟨(retire_false h.wellFormed hle hret).1, rfl⟩
  · simp at hs

end Retire

section Focus

variable {calls : List SubmitCall} {index : ℕ} {call : SubmitCall}

/-- What all but one call hold. -/
theorem exists_others (h : calls[index]? = some call) : ∃ ids permits,
    ∀ call', held ((calls.set index call').flatMap SubmitCall.leases) = held call'.leases + ids ∧
      (calls.set index call').countP SubmitCall.holdsPermit =
        (if call'.holdsPermit then 1 else 0) + permits ∧
      ∀ c ∈ calls.set index call', c = call' ∨ c ∈ calls ∧
        ∀ l ∈ c.leases, l.releaseOnDrop = true → l.sequenceId ∈ ids := by
  obtain ⟨pre, post, hfocus⟩ := List.exists_focus h
  refine ⟨held (pre.flatMap SubmitCall.leases) + held (post.flatMap SubmitCall.leases),
    pre.countP SubmitCall.holdsPermit + post.countP SubmitCall.holdsPermit, fun call' => ?_⟩
  rw [hfocus.set]
  refine ⟨?_, ?_, ?_⟩
  · rw [List.flatMap_append, List.flatMap_cons, held_append, held_append, add_left_comm]
  · rw [List.countP_append, List.countP_cons]
    omega
  · intro c hc
    have hids {cs : List SubmitCall} (hc : c ∈ cs) : ∀ l ∈ c.leases, l.releaseOnDrop = true →
        l.sequenceId ∈ held (cs.flatMap SubmitCall.leases) :=
      fun l hl hr => mem_held.mpr ⟨l, List.mem_flatMap.mpr ⟨c, hc, hl⟩, hr, rfl⟩
    rw [hfocus.split]
    rcases List.mem_append.mp hc with hc | hc
    · exact Or.inr ⟨List.mem_append_left _ hc, fun l hl hr =>
        Multiset.mem_add.mpr (Or.inl (hids hc l hl hr))⟩
    · rcases List.mem_cons.mp hc with rfl | hc
      · exact Or.inl rfl
      · exact Or.inr ⟨List.mem_append_right _ (List.mem_cons_of_mem _ hc), fun l hl hr =>
          Multiset.mem_add.mpr (Or.inr (hids hc l hl hr))⟩

theorem set_self (h : calls[index]? = some call) : calls.set index call = calls := by
  obtain ⟨pre, post, hfocus⟩ := List.exists_focus h
  rw [hfocus.set, ← hfocus.split]

end Focus

namespace Ledger

variable {config : ConnectionConfig} {v : Holdings} {index : ℕ} {call call' : SubmitCall}
  {registry : SequenceState} {permits : ℕ}

variable (call') in
/-- A call exchanges leases with the registry. -/
theorem moveCall (h : Ledger config v) (hcall : v.calls[index]? = some call)
    (hholds : ∀ ids, v.registry.Holds (held call.leases + ids) →
      registry.Holds (held call'.leases + ids))
    (hkeeps : Keeps v.registry registry)
    (hpermits : permits + (if call'.holdsPermit then 1 else 0) =
      v.permits + if call.holdsPermit then 1 else 0)
    (hcall' : call'.Holding registry v.admitted v.retireFailed) :
    Ledger config { v with calls := v.calls.set index call', registry, permits } := by
  obtain ⟨ids, n, hothers⟩ := exists_others hcall
  have hself := hothers call
  rw [set_self hcall] at hself
  refine ⟨?_, ?_, ?_, h.keyed, ?_, ?_⟩
  · have hbefore := h.holds
    simp only [Holdings.leases, held_append, hself.1, add_assoc] at hbefore
    have hafter := hholds _ hbefore
    simp only [Holdings.leases, held_append, (hothers call').1, add_assoc]
    exact hafter
  · have hbefore := h.permits
    rw [hself.2.1] at hbefore
    simp only [(hothers call').2.1]
    omega
  · intro x hx
    exact hkeeps.blocked (h.blocked x hx)
  · intro p hp hr
    exact hkeeps.unreserved _ (h.blocked _ (h.keyed p hp).2) (h.retired p hp hr)
  · intro c hc
    rcases List.mem_or_eq_of_mem_set hc with hc | rfl
    · have hold := h.calls c hc
      exact ⟨hold.releasable, fun l hl hm => hkeeps.blocked (hold.automatic l hl hm), hold.fresh,
        hold.keyed, hold.clear⟩
    · exact hcall'

/-- The heartbeats and the local TERMINATE exchange leases with the registry. -/
theorem exchange (h : Ledger config v) {heartbeats : OrderedMap ℕ PendingHeartbeat}
    {others : List SequenceLease}
    (hholds : ∀ ids, v.registry.Holds (held v.heartbeatLeases + held v.others + ids) →
      registry.Holds (held (heartbeats.entries.map fun p => p.2.sequenceLease) + held others + ids))
    (hkeeps : Keeps v.registry registry) :
    Ledger config { v with heartbeats, others, registry } := by
  refine ⟨?_, h.permits, ?_, h.keyed, ?_, ?_⟩
  · have hbefore := h.holds
    simp only [Holdings.leases, held_append] at hbefore ⊢
    have heq (a b c d e : Multiset ℕ) : a + (b + (c + d)) + e = c + d + (a + b + e) := by abel
    rw [heq] at hbefore ⊢
    exact hholds _ hbefore
  · intro x hx
    exact hkeeps.blocked (h.blocked x hx)
  · intro p hp hr
    exact hkeeps.unreserved _ (h.blocked _ (h.keyed p hp).2) (h.retired p hp hr)
  · intro c hc
    have hold := h.calls c hc
    exact ⟨hold.releasable, fun l hl hm => hkeeps.blocked (hold.automatic l hl hm), hold.fresh,
      hold.keyed, hold.clear⟩

/-- Entries that are gone give up their permits and their leases. -/
theorem remove (h : Ledger config v) {pending : PendingSubmits}
    (hshrinks : Shrinks v.pending pending) :
    Ledger config { v with
      pending
      registry := Connection.dropLeases v.registry
        ((v.pending.entries.filter fun p => (pending.find p.1).isNone).map
          fun p => p.2.sequenceLease)
      permits :=
        v.permits + (v.pending.entries.filter fun p => (pending.find p.1).isNone).length } := by
  have hkeeps := keeps_dropLeases v.registry
    ((v.pending.entries.filter fun p => (pending.find p.1).isNone).map fun p => p.2.sequenceLease)
  have hperm := OrderedMap.removed_perm (f := fun p : ℕ × PendingSubmit => p.2.sequenceLease)
    fun q hq => (hshrinks q hq).imp fun p hp => ⟨hp.1, hp.2.1, hp.2.2.1⟩
  have hcount := (OrderedMap.removed_perm (f := fun _ : ℕ × PendingSubmit => ()) fun q hq =>
    (hshrinks q hq).imp fun p hp => ⟨hp.1, hp.2.1, rfl⟩).length_eq
  refine ⟨?_, ?_, ?_, ?_, ?_, ?_⟩
  · apply holds_dropLeases
    have hbefore := h.holds
    simp only [Holdings.leases, Holdings.pendingLeases, held_append, held_perm hperm] at hbefore ⊢
    have heq (a b c d e : Multiset ℕ) : a + (b + c + d) + e = b + (a + (c + d) + e) := by abel
    rw [heq] at hbefore
    exact hbefore
  · have hbefore := h.permits
    simp only [List.length_map, List.length_append] at hcount
    simp only [OrderedMap.size] at hbefore ⊢
    omega
  · intro x hx
    exact hkeeps.blocked (h.blocked x hx)
  · intro q hq
    obtain ⟨p, hp, hk, hl, _⟩ := hshrinks q hq
    rw [← hk, ← hl]
    exact h.keyed p hp
  · intro q hq hr
    obtain ⟨p, hp, hk, hl, _⟩ := hshrinks q hq
    rw [← hl] at hr
    rw [← hk]
    exact hkeeps.unreserved _ (h.blocked _ (h.keyed p hp).2) (h.retired p hp hr)
  · intro c hc
    have hold := h.calls c hc
    exact ⟨hold.releasable, fun l hl hm => hkeeps.blocked (hold.automatic l hl hm), hold.fresh,
      hold.keyed, hold.clear⟩

theorem restate (h : Ledger config v) {pending : PendingSubmits}
    (hrestates : Restates v.pending pending) : Ledger config { v with pending } := by
  have hgone : (v.pending.entries.filter fun p => (pending.find p.1).isNone) = [] := by
    apply List.filter_eq_nil_iff.mpr
    intro p hp
    obtain ⟨q, hq, hk⟩ := hrestates.1 p hp
    have hfound : pending.find q.1 = some q.2 := OrderedMap.find_eq_some_iff.mpr hq
    simp [hk ▸ hfound]
  have hremove := h.remove hrestates.2
  rw [hgone] at hremove
  exact hremove

/-- Giving an entry up retires its id, which is blocked already. -/
theorem giveUp (h : Ledger config v) {x : ℕ} {entry : PendingSubmit}
    (hfind : v.pending.find x = some entry) :
    entry.sequenceLease.retire v.registry =
      (true, { entry.sequenceLease with releaseOnDrop := false }, v.registry.release x) ∧
    Ledger config { v with
      pending := v.pending.erase x, registry := v.registry.release x,
      permits := v.permits + 1 } := by
  have hmem := OrderedMap.find_eq_some_iff.mp hfind
  obtain ⟨hkey, hadmitted⟩ := h.keyed _ hmem
  dsimp only at hkey hadmitted
  have hretire := h.holds.retire_blocked (h.blocked x hadmitted)
  constructor
  · simp only [SequenceLease.retire, hkey, hretire]
  have hkeeps := keeps_release v.registry x
  have hperm := (OrderedMap.erase_perm hfind).map fun p => p.2.sequenceLease
  have hsplit : held v.pendingLeases = held [entry.sequenceLease] +
      held ((v.pending.erase x).entries.map fun p => p.2.sequenceLease) :=
    (held_perm hperm).trans held_cons
  refine ⟨?_, ?_, ?_, ?_, ?_, ?_⟩
  · have hbefore := h.holds
    simp only [Holdings.leases, held_append, hsplit] at hbefore ⊢
    have heq (a b c d e : Multiset ℕ) : a + (b + c + d) + e = b + (a + (c + d) + e) := by abel
    rw [heq] at hbefore
    cases hr : entry.sequenceLease.releaseOnDrop with
    | true =>
      rw [held_releasable hr, hkey] at hbefore
      exact hbefore.release
    | false =>
      rw [held_retired hr, zero_add] at hbefore
      have hfree : x ∉ v.registry.reserved := h.retired _ hmem hr
      have hsame : v.registry.release x = v.registry := by
        rw [SequenceState.release, Finset.erase_eq_of_notMem hfree]
      rw [hsame]
      exact hbefore
  · have hsize := OrderedMap.size_erase_of_find hfind
    have hbefore := h.permits
    dsimp only
    omega
  · intro y hy
    exact h.blocked y hy
  · intro p hp
    exact h.keyed p (OrderedMap.mem_erase.mp hp).1
  · intro p hp hr
    have hp' := (OrderedMap.mem_erase.mp hp).1
    exact hkeeps.unreserved _ (h.blocked _ (h.keyed p hp').2) (h.retired p hp' hr)
  · intro c hc
    have hold := h.calls c hc
    exact ⟨hold.releasable, hold.automatic, hold.fresh, hold.keyed, hold.clear⟩

section Admit

variable {lease retired : SequenceLease} {packet : List UInt8} {key : SubmitAttemptKey}

theorem leases_of_reserved (hstage : call.stage = .reserved lease packet key) :
    call.leases = lease :: call.manualSequenceLeases := by
  rw [SubmitCall.leases, SubmitCall.lease, hstage]
  rfl

theorem reserved_releasable (h : Ledger config v) (hcall : call ∈ v.calls)
    (hstage : call.stage = .reserved lease packet key) : lease.releaseOnDrop = true := by
  have hlease : lease ∈ call.leases := by
    rw [leases_of_reserved hstage]
    exact List.mem_cons_self
  rcases (h.calls call hcall).releasable lease hlease with hr | ⟨_, error, he⟩
  · exact hr
  · rw [hstage] at he
    cases he

/-- The id of a call about to be admitted is not in the window. -/
theorem find_reserved (h : Ledger config v) (hcall : call ∈ v.calls)
    (hstage : call.stage = .reserved lease packet key) : v.pending.find key.sequenceId = none := by
  have hold := h.calls call hcall
  have hfresh := hold.fresh lease (by rw [leases_of_reserved hstage]; exact List.mem_cons_self)
  rw [(hold.keyed lease packet key (Or.inr hstage)).1]
  cases hfind : v.pending.find lease.sequenceId with
  | none => rfl
  | some entry => exact absurd (h.keyed _ (OrderedMap.find_eq_some_iff.mp hfind)).2 hfresh

/-- An admission moves a lease and a permit from the call into the window. -/
theorem admitSubmit (h : Ledger config v) (hcall : v.calls[index]? = some call)
    (hstage : call.stage = .reserved lease packet key)
    (hretire : Connection.retireManual v.registry lease = (true, retired, registry))
    {entry : PendingSubmit} (hentry : entry.sequenceLease = retired)
    (hmanual : call'.manualSequenceLeases = call.manualSequenceLeases)
    (hstage' : call'.stage = .looping) :
    Ledger config { v with
      calls := v.calls.set index call'
      pending := v.pending.insert key.sequenceId entry
      registry
      admitted := v.admitted ++ [key.sequenceId] } := by
  have hmem := List.mem_of_getElem? hcall
  have hold := h.calls call hmem
  have hr := h.reserved_releasable hmem hstage
  have hfind := h.find_reserved hmem hstage
  have hkey := (hold.keyed lease packet key (Or.inr hstage)).1
  obtain ⟨ids, n, hothers⟩ := exists_others hcall
  have hself := hothers call
  rw [set_self hcall] at hself
  have hleases : held call.leases = held [lease] + held call.manualSequenceLeases := by
    rw [leases_of_reserved hstage, held_cons]
  have hleases' : call'.leases = call.manualSequenceLeases := by
    rw [SubmitCall.leases, SubmitCall.lease, hstage', hmanual]
    rfl
  have hpermit : call'.holdsPermit = false := by rw [SubmitCall.holdsPermit, hstage']
  have hheld : call.holdsPermit = true := by rw [SubmitCall.holdsPermit, hstage]
  have hbefore := h.holds
  simp only [Holdings.leases, held_append, hself.1, hleases, add_assoc] at hbefore
  obtain ⟨hholds, hkeeps, hblocked, hid, hunreserved⟩ := retireManual_true hbefore hr
    (hold.automatic lease (by rw [leases_of_reserved hstage]; exact List.mem_cons_self)) hretire
  have hnodup := hbefore.nodup
  rw [held_releasable hr, Multiset.singleton_add, Multiset.nodup_cons] at hnodup
  have hnew {l : SequenceLease} {cs : SubmitCall} (hcs : cs ∈ v.calls) (hl : l ∈ cs.leases)
      (hids : l.releaseOnDrop = true → l.sequenceId ∈ held call.manualSequenceLeases + ids) :
      l.sequenceId ∉ v.admitted ++ [key.sequenceId] := by
    rw [List.mem_append, List.mem_singleton, hkey]
    rintro (hm | he)
    · exact (h.calls cs hcs).fresh l hl hm
    · apply hnodup.1
      rw [← he]
      rcases (h.calls cs hcs).releasable l hl with hr' | ⟨hfailed, _⟩
      · have := hids hr'
        simp only [Multiset.mem_add] at this ⊢
        tauto
      · simp only [Multiset.mem_add, Multiset.mem_coe]
        tauto
  have hinsert : held ((v.pending.insert key.sequenceId entry).entries.map
      fun p => p.2.sequenceLease) = held [retired] + held v.pendingLeases := by
    rw [held_perm ((OrderedMap.insert_perm hfind).map _), List.map_cons, held_cons, hentry]
    rfl
  refine ⟨?_, ?_, ?_, ?_, ?_, ?_⟩
  · simp only [Holdings.leases, held_append, (hothers call').1, hleases', add_assoc]
    rw [Holdings.pendingLeases, hinsert]
    have heq (a b c d e : Multiset ℕ) : a + (b + (c + d + e)) = c + (a + (b + (d + e))) := by abel
    rw [heq]
    exact hholds
  · have hsize := OrderedMap.size_insert_of_find_none (v := entry) hfind
    have hpermits := h.permits
    rw [hself.2.1, hheld] at hpermits
    simp only [(hothers call').2.1, hpermit, hsize, if_true, Bool.false_eq_true,
      if_false] at hpermits ⊢
    omega
  · intro x hx
    rcases List.mem_append.mp hx with hx | hx
    · exact hkeeps.blocked (h.blocked x hx)
    · rw [List.mem_singleton.mp hx, hkey]
      exact hblocked
  · intro p hp
    rcases OrderedMap.mem_insert.mp hp with rfl | ⟨hp, _⟩
    · exact ⟨by rw [hentry, hid, hkey], List.mem_append_right _ (List.mem_singleton_self _)⟩
    · exact (h.keyed p hp).imp_right (List.mem_append_left _)
  · intro p hp hr'
    rcases OrderedMap.mem_insert.mp hp with rfl | ⟨hp, _⟩
    · dsimp only at hr' ⊢
      rw [hkey]
      exact hunreserved (hentry ▸ hr')
    · exact hkeeps.unreserved _ (h.blocked _ (h.keyed p hp).2) (h.retired p hp hr')
  · intro c hc
    rcases (hothers call').2.2 c hc with rfl | ⟨hc, hids⟩
    · have hsub : ∀ l ∈ c.leases, l ∈ call.leases := by
        rw [hleases', leases_of_reserved hstage]
        exact fun l hl => List.mem_cons_of_mem _ hl
      have hsure : ∀ l ∈ c.leases, l.releaseOnDrop = true := by
        intro l hl
        rcases hold.releasable l (hsub l hl) with hr' | ⟨_, error, he⟩
        · exact hr'
        · rw [hstage] at he
          cases he
      refine ⟨fun l hl => Or.inl (hsure l hl), ?_, ?_, fun l packet key hk => ?_, fun hk => ?_⟩
      · exact fun l hl hm => hkeeps.blocked (hold.automatic l (hsub l hl) hm)
      · intro l hl
        refine hnew hmem (hsub l hl) fun hr' => Multiset.mem_add.mpr (Or.inl ?_)
        rw [hleases'] at hl
        exact mem_held.mpr ⟨l, hl, hr', rfl⟩
      · rw [hstage'] at hk
        rcases hk with hk | hk <;> cases hk
      · rw [SubmitCall.ended, hstage'] at hk
        rcases hk with hk | hk <;> cases hk
    · have hother := h.calls c hc
      refine ⟨hother.releasable, fun l hl hm => hkeeps.blocked (hother.automatic l hl hm), ?_,
        hother.keyed, hother.clear⟩
      intro l hl
      exact hnew hc hl fun hr' => Multiset.mem_add.mpr (Or.inr (hids l hl hr'))

/-- A manual id that cannot be retired stays reserved for good. -/
theorem failRetire (h : Ledger config v) (hcall : v.calls[index]? = some call)
    (hstage : call.stage = .reserved lease packet key)
    (hretire : Connection.retireManual v.registry lease = (false, retired, registry))
    {error : Error} (hstage' : call'.stage = .failing (some retired) error)
    (hmanual : call'.manualSequenceLeases = call.manualSequenceLeases) :
    Ledger config { v with
      calls := v.calls.set index call'
      registry
      retireFailed := v.retireFailed ++ [retired.sequenceId] } := by
  have hmem := List.mem_of_getElem? hcall
  have hold := h.calls call hmem
  have hr := h.reserved_releasable hmem hstage
  obtain ⟨ids, n, hothers⟩ := exists_others hcall
  have hself := hothers call
  rw [set_self hcall] at hself
  have hleases : call.leases = lease :: call.manualSequenceLeases := leases_of_reserved hstage
  have hleases' : call'.leases = retired :: call.manualSequenceLeases := by
    rw [SubmitCall.leases, SubmitCall.lease, hstage', hmanual]
    rfl
  have hbefore := h.holds
  have hcons : held (lease :: call.manualSequenceLeases) =
      held [lease] + held call.manualSequenceLeases := held_cons
  simp only [Holdings.leases, held_append, hself.1, hleases, hcons, add_assoc] at hbefore
  obtain ⟨rfl, rfl⟩ := retireManual_false hbefore hr hretire
  refine ⟨?_, ?_, h.blocked, h.keyed, h.retired, ?_⟩
  · rw [held_releasable hr] at hbefore
    simp only [Holdings.leases, held_append, (hothers call').1, hleases', add_assoc,
      ← Multiset.coe_add]
    rw [held_cons, held_retired rfl, zero_add]
    have heq (x a b c d e f : Multiset ℕ) : x + (a + (b + (c + (d + (e + f))))) =
        a + (b + (c + (d + (e + (f + x))))) := by abel
    rw [heq] at hbefore
    exact hbefore
  · have hpermits := h.permits
    rw [hself.2.1] at hpermits
    have hheld : call.holdsPermit = true := by rw [SubmitCall.holdsPermit, hstage]
    have hheld' : call'.holdsPermit = true := by rw [SubmitCall.holdsPermit, hstage']
    simp only [(hothers call').2.1, hheld, hheld'] at hpermits ⊢
    exact hpermits
  · intro c hc
    rcases (hothers call').2.2 c hc with rfl | ⟨hc, _⟩
    · refine ⟨?_, ?_, ?_, fun l packet key hk => ?_, fun hk => ?_⟩
      · intro l hl
        rw [hleases'] at hl
        rcases List.mem_cons.mp hl with rfl | hl
        · exact Or.inr ⟨List.mem_append_right _ (List.mem_singleton_self _), error, hstage'⟩
        · have hheld : l ∈ call.leases := by
            rw [hleases]
            exact List.mem_cons_of_mem _ hl
          rcases hold.releasable l hheld with hr' | ⟨_, e, he⟩
          · exact Or.inl hr'
          · rw [hstage] at he
            cases he
      · intro l hl hm
        rw [hleases'] at hl
        rcases List.mem_cons.mp hl with rfl | hl
        · exact hold.automatic lease (by rw [hleases]; exact List.mem_cons_self) hm
        · exact hold.automatic l (by rw [hleases]; exact List.mem_cons_of_mem _ hl) hm
      · intro l hl
        rw [hleases'] at hl
        rcases List.mem_cons.mp hl with rfl | hl
        · exact hold.fresh lease (by rw [hleases]; exact List.mem_cons_self)
        · exact hold.fresh l (by rw [hleases]; exact List.mem_cons_of_mem _ hl)
      · rw [hstage'] at hk
        rcases hk with hk | hk <;> cases hk
      · rw [SubmitCall.ended, hstage'] at hk
        rcases hk with hk | hk <;> cases hk
    · have hother := h.calls c hc
      refine ⟨fun l hl => ?_, hother.automatic, hother.fresh, hother.keyed, hother.clear⟩
      rcases hother.releasable l hl with hr' | ⟨hfailed, he⟩
      · exact Or.inl hr'
      · exact Or.inr ⟨List.mem_append_left _ hfailed, he⟩

end Admit

end Ledger

end CmppProtocol
