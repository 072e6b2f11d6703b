import CmppProtocol.Connection.Owners
import CmppProtocol.Connection.Reached
import CmppProtocol.Connection.Writing

/-! # Which ids are used up

An id is used up when it is admitted or when the automatic cursor passes it, and
in no other way: a manual id that was given back can be reserved again.
-/

namespace CmppProtocol

open SequenceState

namespace Connection

variable {gbk : Gbk} {config : ConnectionConfig} {s s' : Connection} {index : ℕ}

theorem advances_dropLeases (registry : SequenceState) (leases : List SequenceLease) :
    Advances registry (dropLeases registry leases) := by
  induction leases generalizing registry with
  | nil => exact .refl registry
  | cons lease leases ih => exact (advances_drop registry lease).trans (ih _)

theorem mem_reserved_dropLeases {registry : SequenceState} {leases : List SequenceLease} {x : ℕ} :
    x ∈ (dropLeases registry leases).reserved ↔
      x ∈ registry.reserved ∧ ∀ l ∈ leases, l.releaseOnDrop = true → l.sequenceId ≠ x := by
  induction leases generalizing registry with
  | nil => simp [dropLeases]
  | cons lease leases ih =>
    have hdrop : x ∈ (lease.drop registry).reserved ↔
        x ∈ registry.reserved ∧ (lease.releaseOnDrop = true → lease.sequenceId ≠ x) := by
      rw [SequenceLease.drop]
      split_ifs with hr
      · rw [release, Finset.mem_erase, and_comm]
        simp [hr, ne_comm]
      · simp [hr]
    rw [List.forall_mem_cons, ← and_assoc, ← hdrop]
    exact ih

theorem registry_dropLeases (registry : SequenceState) (leases : List SequenceLease) :
    ∃ reserved, dropLeases registry leases = { registry with reserved } := by
  induction leases generalizing registry with
  | nil => exact ⟨_, rfl⟩
  | cons lease leases ih =>
    obtain ⟨reserved, hrest⟩ := ih (lease.drop registry)
    refine ⟨reserved, hrest.trans ?_⟩
    rw [SequenceLease.drop]
    split_ifs <;> rfl

/-! ## The background tasks -/

theorem writerNext_advances {event : WriterEvent} (h : s.writerNext config event = some s') :
    Advances s.sequenceRegistry s'.sequenceRegistry := by
  cases writerNext_move h with
  | complete writtenAt hstage hstatus => exact advances_dropLeases _ _
  | giveUp hstage =>
    rw [finish_eq]
    exact .refl _
  | _ => exact .refl _

theorem readerNext_advances {event : ReaderEvent} (h : s.readerNext event = some s') :
    Advances s.sequenceRegistry s'.sequenceRegistry := by
  cases event with
  | matchResps =>
    simp only [readerNext] at h
    split_ifs at h
    cases h
    exact advances_dropLeases _ _
  | activeTestResp sequenceId =>
    simp only [readerNext] at h
    split_ifs at h
    cases h
    cases s.heartbeatPending.find sequenceId with
    | none => exact .refl _
    | some entry => exact advances_drop _ _
  | terminate sequenceId =>
    simp only [readerNext] at h
    split_ifs at h
    cases h
    obtain ⟨_, _, _, heq⟩ :=
      ({ s with peerTerminateSeen := true } : Connection).beginClosing_eq false
    rw [heq]
    exact .refl _
  | terminateResp sequenceId =>
    simp only [readerNext] at h
    split_ifs at h
    · cases h
      exact advances_dropLeases _ _
    · cases h
      exact .refl _
  | _ =>
    simp only [readerNext] at h
    repeat' split at h
    all_goals cases h
    all_goals exact .refl _

theorem heartbeatNext_advances (hledger : Ledger config s.holdings) {event : HeartbeatEvent}
    (h : s.heartbeatNext event = some s') : Advances s.sequenceRegistry s'.sequenceRegistry := by
  cases event with
  | tick =>
    simp only [heartbeatNext] at h
    split_ifs at h
    · split at h
      · next hnext =>
        cases h
        exact hledger.holds.advances_next hnext
      · next hnext =>
        cases h
        exact hledger.holds.advances_next hnext
    · cases h
      exact .refl _
  | enqueue =>
    simp only [heartbeatNext] at h
    split at h
    · split_ifs at h
      · cases h
        exact advances_drop _ _
      · cases h
        exact advances_drop _ _
      · cases h
        exact .refl _
    · cases h
  | notOpen =>
    simp only [heartbeatNext] at h
    split_ifs at h
    split at h
    · cases h
      exact .refl _
    · cases h
      exact advances_drop _ _
    · cases h

theorem giveUpSubmit_advances (hledger : Ledger config s.holdings) (now : ℕ)
    (key : SubmitAttemptKey) (keys : List SubmitAttemptKey) (sent : Bool) :
    Advances s.sequenceRegistry (s.giveUpSubmit now key keys sent).sequenceRegistry := by
  rw [giveUpSubmit]
  split
  · exact .refl _
  next entry hawait =>
  cases sent with
  | false => exact .refl _
  | true =>
    -- The id was admitted, so that retiring it only gives up its reservation.
    obtain ⟨hretire, _⟩ := hledger.giveUp (stillAwaiting_some hawait).1
    change entry.sequenceLease.retire s.sequenceRegistry = _ at hretire
    simp only [hretire]
    exact advances_release _ _

theorem timeoutNext_advances (hledger : Ledger config s.holdings) {event : TimeoutEvent}
    (h : s.timeoutNext config event = some s') :
    Advances s.sequenceRegistry s'.sequenceRegistry := by
  cases event with
  | giveUpHeartbeat =>
    simp only [timeoutNext] at h
    split at h
    · split_ifs at h
      split at h
      · cases h
        exact .refl _
      · cases h
        exact advances_drop _ _
    · cases h
  | teardown =>
    simp only [timeoutNext] at h
    split at h
    all_goals cases h
    all_goals rw [finish_eq]
    all_goals exact .refl _
  | giveUpSubmit sent =>
    simp only [timeoutNext] at h
    split at h
    · split_ifs at h
      cases h
      exact giveUpSubmit_advances hledger _ _ _ _
    · cases h
  | retrySubmit =>
    simp only [timeoutNext] at h
    split at h
    · cases h
      rw [retrySubmit]
      split
      · exact .refl _
      · split_ifs <;> exact .refl _
    · cases h
  | _ =>
    simp only [timeoutNext] at h
    repeat' split at h
    all_goals cases h
    all_goals exact .refl _

theorem closerNext_advances (hledger : Ledger config s.holdings) {event : CloserEvent}
    (h : s.closerNext event = some s') : Advances s.sequenceRegistry s'.sequenceRegistry := by
  cases event with
  | close =>
    simp only [closerNext] at h
    split_ifs at h
    obtain ⟨_, _, _, hclosing⟩ := s.beginClosing_eq true
    cases hresult : s.beginClosing true with
    | mk won t =>
      rw [hresult] at h hclosing
      cases hclosing
      cases won with
      | true =>
        cases h
        exact .refl _
      | false =>
        cases h
        exact .refl _
  | leaseTerminate =>
    simp only [closerNext] at h
    split_ifs at h
    split at h
    · next hnext =>
      cases h
      exact hledger.holds.advances_next hnext
    · next hnext =>
      cases h
      exact (hledger.holds.advances_next hnext).trans (advances_dropLeases _ _)
  | finish =>
    simp only [closerNext] at h
    split at h
    · cases h
      rw [finish_eq]
      exact .refl _
    · cases h
  | forget =>
    simp only [closerNext] at h
    split at h
    · split_ifs at h
      · cases h
        exact advances_dropLeases _ _
      · cases h
        exact .refl _
    · cases h
  | _ =>
    simp only [closerNext] at h
    repeat' split at h
    all_goals cases h
    all_goals exact .refl _

theorem cleanupNext_advances {event : CleanupEvent} (h : s.cleanupNext index event = some s') :
    Advances s.sequenceRegistry s'.sequenceRegistry := by
  cases event with
  | drain order =>
    simp only [cleanupNext] at h
    split at h
    · split_ifs at h
      cases h
      exact advances_dropLeases _ _
    · cases h
  | sweep =>
    simp only [cleanupNext] at h
    split at h
    · cases h
      exact advances_dropLeases _ _
    · cases h
  | _ =>
    simp only [cleanupNext] at h
    repeat' split at h
    all_goals cases h
    all_goals exact .refl _

/-! ## Calls -/

theorem retireManual_uses {registry registry' : SequenceState} {lease retired : SequenceLease}
    {ok : Bool} (h : registry.WellFormed) (hle : lease.sequenceId ≤ u32Max)
    (hs : retireManual registry lease = (ok, retired, registry')) :
    registry.automaticPrefix ⊆ registry'.automaticPrefix ∧
      registry'.blocked ⊆ insert lease.sequenceId registry.blocked ∧
      (ok = false → registry' = registry) := by
  rw [retireManual] at hs
  split_ifs at hs
  · cases hret : registry.retire lease.sequenceId with
    | mk ok' next =>
      simp only [SequenceLease.retire, hret, Prod.mk.injEq] at hs
      obtain ⟨rfl, rfl, rfl⟩ := hs
      cases ok' with
      | true =>
        obtain ⟨hwf, hblocked, _, hstart, hcursor⟩ := SequenceState.retire_true h hle hret
        refine ⟨fun x hx => ?_, hblocked.subset, by rintro ⟨⟩⟩
        apply (hwf.prefix_iff x).mpr
        rw [hstart, hcursor]
        exact (h.prefix_iff x).mp hx
      | false =>
        obtain ⟨rfl, _⟩ := SequenceState.retire_false h hle hret
        exact ⟨subset_rfl, Set.subset_insert _ _, fun _ => rfl⟩
  · simp only [Prod.mk.injEq] at hs
    obtain ⟨_, _, rfl⟩ := hs
    exact ⟨subset_rfl, Set.subset_insert _ _, fun _ => rfl⟩

theorem obtainLease_advances {registry registry' : SequenceState} {ids : Multiset ℕ}
    (h : registry.Holds ids) {lease obtained : Option SequenceLease}
    (hs : obtainLease registry lease = (obtained, registry')) : Advances registry registry' := by
  cases lease with
  | some lease =>
    cases hs
    exact .refl _
  | none =>
    simp only [obtainLease] at hs
    split at hs
    · next hnext =>
      cases hs
      exact h.advances_next hnext
    · next hnext =>
      cases hs
      exact h.advances_next hnext

/-- The ids that the calls got admitted. -/
def admittedIds (s : Connection) : List ℕ := s.log.admissions.map Admission.sequenceId

/-- Every id that is used up was admitted, or the cursor has passed it. -/
def Consumed (s : Connection) : Prop :=
  ∀ x ∈ s.sequenceRegistry.blocked, x ∈ s.admittedIds ∨ x ∈ s.sequenceRegistry.automaticPrefix

theorem Consumed.advance (h : s.Consumed)
    (hadvances : Advances s.sequenceRegistry s'.sequenceRegistry)
    (hadmitted : s'.log.admissions = s.log.admissions) : s'.Consumed := by
  intro x hx
  rw [admittedIds, hadmitted]
  rcases hadvances.blocked hx with hx | hx
  · exact (h x hx).imp_right fun hp => hadvances.passed hp
  · exact Or.inr hx

theorem lease_le_u32Max (hledger : Ledger config s.holdings) {call : SubmitCall}
    (hcall : call ∈ s.calls) {lease : SequenceLease} (hlease : lease ∈ call.leases)
    (hr : lease.releaseOnDrop = true) : lease.sequenceId ≤ u32Max := by
  apply hledger.holds.le_u32Max
  refine Multiset.mem_add.mpr (Or.inl (SequenceLease.mem_held.mpr ⟨lease, ?_, hr, rfl⟩))
  exact List.mem_append_left _ (List.mem_flatMap.mpr ⟨call, hcall, hlease⟩)

/-- Only an admission uses an id up that the cursor has not passed. -/
theorem callStep_consumed (hledger : Ledger config s.holdings) {call : SubmitCall}
    (hcall : s.calls[index]? = some call) (hstep : CallStep gbk s index call s')
    (h : s.Consumed) : s'.Consumed := by
  have hmem := List.mem_of_getElem? hcall
  cases hstep with
  | granted udhReference base leases registry hstage hbase hgrant =>
    exact h.advance (hledger.holds.advances_grant hgrant) rfl
  | finished hstage hlength => exact h.advance (advances_dropLeases _ _) rfl
  | closed hstage => exact h.advance (advances_dropLeases _ _) rfl
  | cancelled hended => exact h.advance (advances_dropLeases _ _) rfl
  | failed source hended => exact h.advance (advances_dropLeases _ _) rfl
  | exhausted template registry hstage hnext =>
    exact h.advance (hledger.holds.advances_next hnext) rfl
  | unencodable template lease obtained registry error hstage hobtain =>
    have hobtained := obtainLease_advances hledger.holds hobtain
    exact h.advance (hobtained.trans (advances_dropLeases _ _)) rfl
  | encoded segment lease obtained registry packet hstage hsegment hobtain hpacket =>
    exact h.advance (obtainLease_advances hledger.holds hobtain) rfl
  | retireFailed lease packet key retired registry hstage hopen hretire =>
    have hr := hledger.reserved_releasable hmem hstage
    have hlease : lease ∈ call.leases := by
      rw [Ledger.leases_of_reserved hstage]
      exact List.mem_cons_self
    obtain ⟨_, _, hsame⟩ := retireManual_uses hledger.holds.wellFormed
      (lease_le_u32Max hledger hmem hlease hr) hretire
    cases hsame rfl
    exact h
  | admitted lease packet key retired registry hstage hopen hretire =>
    have hr := hledger.reserved_releasable hmem hstage
    have hlease : lease ∈ call.leases := by
      rw [Ledger.leases_of_reserved hstage]
      exact List.mem_cons_self
    obtain ⟨hpassed, hblocked, _⟩ := retireManual_uses hledger.holds.wellFormed
      (lease_le_u32Max hledger hmem hlease hr) hretire
    obtain ⟨hkey, _⟩ := (hledger.calls call hmem).keyed lease packet key (Or.inr hstage)
    intro x hx
    change x ∈ (s.log.admissions ++ [_]).map Admission.sequenceId ∨ _
    rw [List.map_append, List.mem_append]
    rcases hblocked hx with rfl | hx
    · exact Or.inl (Or.inr (List.mem_singleton.mpr hkey.symm))
    · exact (h x hx).imp Or.inl fun hp => hpassed hp
  | failing lease error hstage =>
    rw [finish_eq]
    exact h.advance (advances_dropLeases _ _) rfl
  | _ => exact h

/-! ## Runs -/

theorem submit_registry {options : SubmitOptions} {content : String} {base : Option UInt32}
    (h : s.submit options content base = some s') :
    s'.sequenceRegistry = s.sequenceRegistry ∧ s'.pendingSubmits = s.pendingSubmits := by
  rw [submit] at h
  split_ifs at h
  · cases h
    exact ⟨rfl, rfl⟩
  · cases h
    exact ⟨rfl, rfl⟩
  split at h
  · cases h
    exact ⟨rfl, rfl⟩
  · cases h
    exact ⟨rfl, rfl⟩
  · cases h

theorem next_admissions {event : ConnectionEvent} (h : next gbk config s event = some s')
    (hcall : ∀ index e, event ≠ .call index e) : s'.log.admissions = s.log.admissions := by
  have howned := congrArg Owned.admissions (next_owned h)
  cases event with
  | call index e => exact absurd rfl (hcall index e)
  | _ => exact howned

theorem next_advances (hledger : Ledger config s.holdings) {event : ConnectionEvent}
    (h : next gbk config s event = some s') (hcall : ∀ index e, event ≠ .call index e) :
    Advances s.sequenceRegistry s'.sequenceRegistry := by
  cases event with
  | clock duration =>
    cases h
    exact .refl _
  | udhCounter counter =>
    cases h
    exact .refl _
  | submit options content base =>
    rw [(submit_registry h).1]
    exact .refl _
  | call index e => exact absurd rfl (hcall index e)
  | writer event => exact writerNext_advances h
  | reader event => exact readerNext_advances h
  | heartbeat event => exact heartbeatNext_advances hledger h
  | timeout event => exact timeoutNext_advances hledger h
  | closer event => exact closerNext_advances hledger h
  | overloadClose =>
    cases h
    obtain ⟨_, _, _, heq⟩ := s.beginClosing_eq false
    rw [heq]
    exact .refl _
  | finish =>
    cases h
    rw [finish_eq]
    exact .refl _
  | finishStores =>
    simp only [next] at h
    split_ifs at h
    cases h
    exact .refl _
  | cleanup index event => exact cleanupNext_advances h

theorem next_consumed (hledger : Ledger config s.holdings) {event : ConnectionEvent}
    (hnext : next gbk config s event = some s') (h : s.Consumed) : s'.Consumed := by
  by_cases hcall : ∀ index e, event ≠ .call index e
  · exact h.advance (next_advances hledger hnext hcall) (next_admissions hnext hcall)
  · push Not at hcall
    obtain ⟨index, e, rfl⟩ := hcall
    simp only [next] at hnext
    split at hnext
    · next call hget => exact callStep_consumed hledger hget (callNext_step hnext) h
    · cases hnext

theorem callStep_passed (hledger : Ledger config s.holdings) {call : SubmitCall}
    (hcall : s.calls[index]? = some call) (hstep : CallStep gbk s index call s') :
    s.sequenceRegistry.automaticPrefix ⊆ s'.sequenceRegistry.automaticPrefix := by
  have hmem := List.mem_of_getElem? hcall
  cases hstep with
  | granted udhReference base leases registry hstage hbase hgrant =>
    exact (hledger.holds.advances_grant hgrant).passed
  | finished hstage hlength => exact (advances_dropLeases _ _).passed
  | closed hstage => exact (advances_dropLeases _ _).passed
  | cancelled hended => exact (advances_dropLeases _ _).passed
  | failed source hended => exact (advances_dropLeases _ _).passed
  | exhausted template registry hstage hnext => exact (hledger.holds.advances_next hnext).passed
  | unencodable template lease obtained registry error hstage hobtain =>
    have hobtained := obtainLease_advances hledger.holds hobtain
    exact (hobtained.trans (advances_dropLeases _ _)).passed
  | encoded segment lease obtained registry packet hstage hsegment hobtain hpacket =>
    exact (obtainLease_advances hledger.holds hobtain).passed
  | admitted lease packet key retired registry hstage hopen hretire =>
    have hr := hledger.reserved_releasable hmem hstage
    have hlease : lease ∈ call.leases := by
      rw [Ledger.leases_of_reserved hstage]
      exact List.mem_cons_self
    exact (retireManual_uses hledger.holds.wellFormed
      (lease_le_u32Max hledger hmem hlease hr) hretire).1
  | retireFailed lease packet key retired registry hstage hopen hretire =>
    have hr := hledger.reserved_releasable hmem hstage
    have hlease : lease ∈ call.leases := by
      rw [Ledger.leases_of_reserved hstage]
      exact List.mem_cons_self
    exact (retireManual_uses hledger.holds.wellFormed
      (lease_le_u32Max hledger hmem hlease hr) hretire).1
  | failing lease error hstage =>
    rw [finish_eq]
    exact (advances_dropLeases _ _).passed
  | _ => exact subset_rfl

/-- The automatic cursor does not go back. -/
theorem next_passed (hledger : Ledger config s.holdings) {event : ConnectionEvent}
    (hnext : next gbk config s event = some s') :
    s.sequenceRegistry.automaticPrefix ⊆ s'.sequenceRegistry.automaticPrefix := by
  by_cases hcall : ∀ index e, event ≠ .call index e
  · exact (next_advances hledger hnext hcall).passed
  · push Not at hcall
    obtain ⟨index, e, rfl⟩ := hcall
    simp only [next] at hnext
    split at hnext
    · next call hget => exact callStep_passed hledger hget (callNext_step hnext)
    · cases hnext

theorem consumed_run {clock : ℕ} {udhCounter : UInt32} {events : List ConnectionEvent}
    (hrun : (machine gbk config clock udhCounter).Run events s) : s.Consumed := by
  refine (hrun.invariant (I := fun _ s => s.Sound config ∧ s.Consumed) ?_ ?_).2
  · rintro s rfl
    refine ⟨sound_initial config clock udhCounter, fun x hx => ?_⟩
    rcases hx with hx | ⟨p, hp, _⟩
    · exact Or.inr hx
    · exact absurd hp OrderedMap.not_mem_empty
  · rintro _ s event s' ⟨hsound, hconsumed⟩ hnext
    exact ⟨hsound.next hnext, next_consumed hsound.ledger hnext hconsumed⟩

end Connection

end CmppProtocol
