import CmppProtocol.Udh.Runs

/-! # Readings before the locks

An acquire reads the clock before it waits for the locks of its buckets, so that
its reading may be old when it purges and searches. An old reading only purges
less, and isolation holds as it does for readings that are exact.
-/

namespace CmppProtocol

open UdhReferenceBucket

/-- The clock goes on by itself; an acquire comes with its own, earlier, reading. -/
inductive LateEvent
  | tick (now : ℕ)
  | tryAcquire (message : UdhMessage) (preferred : UInt8) (cooldown reading : ℕ)
  | markExposed (index : ℕ)
  | release (index : ℕ)
  | visit (index : ℕ)

namespace UdhState

variable (hash : UdhHash) (horizon : ℕ)

def lateNext (s : UdhState) : LateEvent → Option UdhState
  | .tick now => if s.clock ≤ now then some { s with clock := now } else none
  | .tryAcquire message preferred cooldown reading =>
    if reading ≤ s.clock then
      let (lease, pool) := s.acquire hash message preferred cooldown reading
      some { s with pool, live := s.live ++ (lease.map (⟨message, ·⟩)).toList }
    else none
  | .markExposed index => s.next hash horizon (.markExposed index)
  | .release index => s.next hash horizon (.release index s.clock)
  | .visit index => s.next hash horizon (.visit index)

def lateMachine : Machine UdhState LateEvent := .ofNext initial (lateNext hash horizon)

variable {hash horizon} {s s' : UdhState} {b : BucketId} {r : UInt8} {deadline reading : ℕ}

theorem Guarded.tick (h : Guarded s b r deadline) {now : ℕ} (hnow : s.clock ≤ now) :
    Guarded { s with clock := now } b r deadline := by
  rcases h with hover | hpending | hcooling
  · exact Or.inl (hover.trans hnow)
  · exact Or.inr (Or.inl hpending)
  · exact Or.inr (Or.inr hcooling)

theorem Inv.tick (h : Inv hash s) {now : ℕ} (hnow : s.clock ≤ now) :
    Inv hash { s with clock := now } where
  consistent := h.consistent
  nodup := h.nodup
  active := h.active
  live := h.live
  released := h.released
  guarded x hx hexp b hb := (h.guarded x hx hexp b hb).tick hnow

/-- A purge at an old reading takes no reference back whose deadline is still to come. -/
theorem Guarded.latePurge (h : Inv hash s) (hg : Guarded s b r deadline) (ids : List BucketId)
    (hreading : reading ≤ s.clock) :
    Guarded { s with pool := CmppProtocol.purge s.pool ids reading } b r deadline := by
  rcases hg with hg | hg | ⟨hc, hall⟩
  · exact Or.inl hg
  · exact Or.inr (Or.inl hg)
  by_cases hover : deadline ≤ s.clock
  · exact Or.inl hover
  refine Or.inr (Or.inr ?_)
  rcases purge_purged h ids reading b with ⟨-, hp⟩ | ⟨-, heq⟩
  · constructor
    · refine (hp.cooling r).mpr ⟨hc, fun c hmem hr => ?_⟩
      exact (hreading.trans_lt (not_le.mp hover)).trans_le (hall c hmem hr)
    · intro c hmem hr
      exact hall c ((hp.cooldowns c).mp hmem).1 hr
  · dsimp only
    rw [heq]
    exact ⟨hc, hall⟩

theorem Inv.latePurge (h : Inv hash s) (ids : List BucketId) (hreading : reading ≤ s.clock) :
    Inv hash { s with pool := CmppProtocol.purge s.pool ids reading } where
  consistent b := by
    rcases purge_purged h ids reading b with ⟨-, hp⟩ | ⟨-, heq⟩
    · exact hp.consistent
    · dsimp only
      rw [heq]
      exact h.consistent b
  nodup := h.nodup
  active b r := by
    rw [← h.active b r]
    rcases purge_purged h ids reading b with ⟨-, hp⟩ | ⟨-, heq⟩
    · simp only [Active, hp.active]
    · simp only [heq]
  live := h.live
  released := h.released
  guarded x hx hexp b hb := (h.guarded x hx hexp b hb).latePurge h ids hreading

theorem Inv.lateAcquire (h : Inv hash s) (message : UdhMessage) (preferred : UInt8) (cooldown : ℕ)
    (hreading : reading ≤ s.clock) :
    Inv hash { s with
      pool := (s.acquire hash message preferred cooldown reading).2
      live := s.live ++ ((s.acquire hash message preferred cooldown reading).1.map
        (⟨message, ·⟩)).toList } := by
  have hp := h.latePurge (bucketIds hash message.srcId message.destTerminalIds) hreading
  cases hacq : s.acquire hash message preferred cooldown reading with
  | mk lease pool' =>
    cases lease with
    | none =>
      obtain rfl := tryAcquire_none hacq
      rw [Option.map_none, Option.toList_none, List.append_nil]
      exact hp
    | some lease =>
      obtain ⟨hids, -, -, hfree, rfl⟩ := tryAcquire_some hacq
      rw [← hids] at hfree ⊢
      exact hp.lend ⟨message, lease⟩ hids hfree

theorem Inv.lateNext (h : Inv hash s) {e : LateEvent}
    (hnext : s.lateNext hash horizon e = some s') :
    Inv hash s' := by
  cases e with
  | tick now =>
    rw [UdhState.lateNext] at hnext
    split_ifs at hnext with hnow
    cases hnext
    exact h.tick hnow
  | tryAcquire message preferred cooldown reading =>
    rw [UdhState.lateNext] at hnext
    split_ifs at hnext with hreading
    cases hnext
    exact h.lateAcquire message preferred cooldown hreading
  | markExposed index =>
    rw [UdhState.lateNext] at hnext
    exact h.next hnext
  | release index =>
    rw [UdhState.lateNext] at hnext
    exact h.next hnext
  | visit index =>
    rw [UdhState.lateNext] at hnext
    exact h.next hnext

theorem Inv.lateRun {events : List LateEvent} (hrun : (lateMachine hash horizon).Run events s) :
    Inv hash s :=
  hrun.invariant (I := fun _ => Inv hash) (fun _ hinit => hinit ▸ Inv.initial)
    fun _ _ _ _ h hstep => h.lateNext hstep

/-- Long messages that a receiver could mix up never have the same reference at the same time,
however old the readings of the acquires are; and as long as the cooldown of an exposed reference
that was released is not over, no acquire gets it for such a message, whatever its reading. -/
theorem late_references_isolated {events : List LateEvent}
    (hrun : (lateMachine hash horizon).Run events s) :
    (s.live.Pairwise fun x y =>
      x.message.SharesDomain y.message → x.lease.reference ≠ y.lease.reference) ∧
    ∀ x ∈ s.released, x.holder.lease.exposed = true →
      s.clock < x.reading + x.holder.lease.cooldown →
      ∀ message preferred cooldown reading, reading ≤ s.clock →
        message.SharesDomain x.holder.message →
        ∀ lease, (s.acquire hash message preferred cooldown reading).1 = some lease →
          lease.reference ≠ x.holder.lease.reference := by
  have h := Inv.lateRun hrun
  refine ⟨h.live_isolated, ?_⟩
  intro x hx hexp hcooling message preferred cooldown reading hreading hshare lease hlease
  obtain ⟨b, hb, hb'⟩ := shared_bucket hash hshare
  have hmem : b ∈ x.holder.lease.bucketIds := by
    rw [h.released x hx]
    exact mem_sortDedup.mpr hb'
  have hguarded := (h.guarded x hx hexp b hmem).latePurge h
    (bucketIds hash message.srcId message.destTerminalIds) hreading
  have hset := hguarded.isSet (h.latePurge _ hreading) hcooling
  have hacq : s.acquire hash message preferred cooldown reading = (some lease, _) :=
    Prod.ext hlease rfl
  obtain ⟨-, -, -, hfree, -⟩ := tryAcquire_some hacq
  intro heq
  have hclear := hfree b (mem_sortDedup.mpr hb)
  rw [heq] at hclear
  exact Bool.false_ne_true (hclear.symm.trans hset)

/-- A reference released at 6 with a cooldown of 10 is not handed out at 15 to an acquire that has
read the clock at 2. -/
theorem late_references_isolated_old :
    let message : UdhMessage := ⟨"1065", ["13800000000"]⟩
    let events : List LateEvent := [.tick 5, .tryAcquire message 7 10 5, .markExposed 0, .tick 6,
      .release 0, .visit 0, .tick 15]
    ∃ s, (lateMachine (fun _ _ => 3) 1000).Run events s ∧
      ∀ lease, (s.acquire (fun _ _ => 3) message 7 10 2).1 = some lease → lease.reference ≠ 7 := by
  intro message events
  have hexec : (Machine.exec (lateNext (fun _ _ => 3) 1000) initial events).map
      (fun s => (s.clock, s.released)) =
      some (15, [⟨⟨message, ⟨[⟨3, by decide⟩], 7, 10, true⟩⟩, 6⟩]) := by decide
  obtain ⟨s, hrun, hview⟩ := Machine.exists_run_of_exec
    (fun s : UdhState => (s.clock, s.released)) hexec
  obtain ⟨hclock, hreleased⟩ := Prod.mk.inj hview
  have hcooling : s.clock < 6 + 10 := by
    rw [hclock]
    decide
  have hreading : 2 ≤ s.clock := by
    rw [hclock]
    decide
  refine ⟨s, hrun, ?_⟩
  refine (late_references_isolated hrun).2 ⟨⟨message, ⟨[⟨3, by decide⟩], 7, 10, true⟩⟩, 6⟩
    (hreleased ▸ List.mem_singleton_self _) rfl hcooling message 7 10 2 hreading
    ⟨rfl, "13800000000", ?_, "13800000000", ?_, rfl⟩
  · exact List.mem_singleton_self _
  · exact List.mem_singleton_self _

end UdhState

end CmppProtocol
