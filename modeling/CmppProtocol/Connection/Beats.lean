import CmppProtocol.Connection.State
import CmppProtocol.Library.History

/-! # The life of one heartbeat

The notes about heartbeats, oldest first, and what each may follow. A heartbeat
is known by its sequence id: its attempts are queued, claimed and written in
turn until a response comes or all of them are used up.
-/

namespace CmppProtocol

open History

inductive HeartbeatNote
  | queued (key : HeartbeatAttemptKey) (instant : ℕ)
  | claimed (key : HeartbeatAttemptKey) (phase : ConnectionPhase)
  | written (key : HeartbeatAttemptKey) (writtenAt : ℕ)
  | responded (sequenceId : ℕ)
  | exhausted (sequenceId : ℕ)
  | tornDown
  deriving DecidableEq, Repr

namespace HeartbeatNote

def queuedKey : HeartbeatNote → Option HeartbeatAttemptKey
  | .queued key _ => some key
  | _ => none

def claimedKey : HeartbeatNote → Option HeartbeatAttemptKey
  | .claimed key _ => some key
  | _ => none

/-- The notes that change nothing for the entry of a heartbeat. -/
def isPlain : HeartbeatNote → Bool
  | .written _ _ | .tornDown => true
  | _ => false

end HeartbeatNote

variable {config : ConnectionConfig} {notes new : List HeartbeatNote} {note : HeartbeatNote}
  {x : ℕ} {entry entry' : Option PendingHeartbeat} {e : PendingHeartbeat}

/-- The keys of one heartbeat. -/
def keysOf (x : ℕ) (keys : List HeartbeatAttemptKey) : List HeartbeatAttemptKey :=
  keys.filter fun key => key.sequenceId = x

def queuedFor (notes : List HeartbeatNote) (x : ℕ) : List HeartbeatAttemptKey :=
  keysOf x (notes.filterMap HeartbeatNote.queuedKey)

def claimedFor (notes : List HeartbeatNote) (x : ℕ) : List HeartbeatAttemptKey :=
  keysOf x (notes.filterMap HeartbeatNote.claimedKey)

/-- Attempts 1, 2, … of a heartbeat. -/
def attemptKeys (x : ℕ) (heartbeatId : UInt64) (count : ℕ) : List HeartbeatAttemptKey :=
  (List.range' 1 count).map fun attempt => ⟨x, heartbeatId, attempt⟩

/-- No response with the sequence id was processed since the heartbeat was first queued. -/
def Unanswered (notes : List HeartbeatNote) (x : ℕ) : Prop :=
  Lawful (fun before note => note = .responded x → queuedFor before x = []) notes

/-- What has to come before a note. -/
def Allowed (config : ConnectionConfig) (before : List HeartbeatNote) : HeartbeatNote → Prop
  | .queued key instant =>
    key.attempt = 1 ∧ queuedFor before key.sequenceId = [] ∨
      ∃ attempt writtenAt, key.attempt = attempt + 1 ∧
        .written { key with attempt } writtenAt ∈ before ∧
          writtenAt + config.responseTimeout ≤ instant
  | .claimed key phase =>
    phase = .opened ∧ key.attempt ≤ config.retryCount ∧ Unanswered before key.sequenceId
  | .exhausted x =>
    (∃ heartbeatId, ∀ attempt, 1 ≤ attempt → attempt ≤ config.retryCount →
      ∃ writtenAt, .written ⟨x, heartbeatId, attempt⟩ writtenAt ∈ before) ∧ Unanswered before x
  | .tornDown => ∃ x, .exhausted x ∈ before
  | _ => True

theorem attemptKeys_succ (x : ℕ) (heartbeatId : UInt64) (count : ℕ) :
    attemptKeys x heartbeatId (count + 1) =
      attemptKeys x heartbeatId count ++ [⟨x, heartbeatId, count + 1⟩] := by
  rw [attemptKeys, List.range'_1_concat, List.map_append, List.map_singleton, Nat.add_comm 1]
  rfl

theorem attemptKeys_eq_nil {heartbeatId : UInt64} {count : ℕ}
    (h : attemptKeys x heartbeatId count = []) : count = 0 := by
  have hlength := congrArg List.length h
  rwa [attemptKeys, List.length_map, List.length_range'] at hlength

theorem mem_attemptKeys {heartbeatId : UInt64} {count : ℕ} {key : HeartbeatAttemptKey} :
    key ∈ attemptKeys x heartbeatId count ↔
      ∃ attempt, 1 ≤ attempt ∧ attempt ≤ count ∧ key = ⟨x, heartbeatId, attempt⟩ := by
  rw [attemptKeys, List.mem_map]
  constructor
  · rintro ⟨attempt, hmem, rfl⟩
    have hrange := List.mem_range'_1.mp hmem
    exact ⟨attempt, hrange.1, by omega, rfl⟩
  · rintro ⟨attempt, hpos, hle, rfl⟩
    exact ⟨attempt, List.mem_range'_1.mpr ⟨hpos, by omega⟩, rfl⟩

theorem attemptKeys_nodup (x : ℕ) (heartbeatId : UInt64) (count : ℕ) :
    (attemptKeys x heartbeatId count).Nodup := by
  refine List.Nodup.map (fun a b h => ?_) List.nodup_range'
  exact congrArg HeartbeatAttemptKey.attempt h

/-- All attempts but perhaps the last one, in their order. -/
theorem attemptKeys_of_sublist {heartbeatId : UInt64} {count : ℕ} {keys : List HeartbeatAttemptKey}
    (hsub : keys.Sublist (attemptKeys x heartbeatId count))
    (hall : ∀ attempt, 1 ≤ attempt → attempt < count → ⟨x, heartbeatId, attempt⟩ ∈ keys) :
    ∃ k ≤ count, keys = attemptKeys x heartbeatId k := by
  cases count with
  | zero => exact ⟨0, le_rfl, List.sublist_nil.mp hsub⟩
  | succ m =>
    rw [attemptKeys_succ, List.sublist_append_iff] at hsub
    obtain ⟨front, last, rfl, hfront, hlast⟩ := hsub
    have hsubset : attemptKeys x heartbeatId m ⊆ front := by
      intro key hkey
      obtain ⟨attempt, hpos, hle, rfl⟩ := mem_attemptKeys.mp hkey
      rcases List.mem_append.mp (hall attempt hpos (by omega)) with hmem | hmem
      · exact hmem
      · cases List.mem_singleton.mp (hlast.subset hmem)
        omega
    have hlength := ((attemptKeys_nodup x heartbeatId m).subperm hsubset).length_le
    obtain rfl := hfront.eq_of_length_le hlength
    rcases List.sublist_singleton.mp hlast with rfl | rfl
    · exact ⟨m, Nat.le_succ m, List.append_nil _⟩
    · exact ⟨m + 1, le_rfl, (attemptKeys_succ x heartbeatId m).symm⟩

theorem queuedFor_append (notes new : List HeartbeatNote) (x : ℕ) :
    queuedFor (notes ++ new) x = queuedFor notes x ++ queuedFor new x := by
  rw [queuedFor, keysOf, List.filterMap_append, List.filter_append]
  rfl

theorem claimedFor_append (notes new : List HeartbeatNote) (x : ℕ) :
    claimedFor (notes ++ new) x = claimedFor notes x ++ claimedFor new x := by
  rw [claimedFor, keysOf, List.filterMap_append, List.filter_append]
  rfl

theorem queuedFor_queued (key : HeartbeatAttemptKey) (instant : ℕ) (x : ℕ) :
    queuedFor [.queued key instant] x = if key.sequenceId = x then [key] else [] := by
  simp [queuedFor, keysOf, HeartbeatNote.queuedKey, List.filter_cons]

theorem claimedFor_claimed (key : HeartbeatAttemptKey) (phase : ConnectionPhase) (x : ℕ) :
    claimedFor [.claimed key phase] x = if key.sequenceId = x then [key] else [] := by
  simp [claimedFor, keysOf, HeartbeatNote.claimedKey, List.filter_cons]

theorem plain_keys (h : ∀ note ∈ new, note.isPlain = true) :
    queuedFor new x = [] ∧ claimedFor new x = [] := by
  have hqueued : new.filterMap HeartbeatNote.queuedKey = [] := by
    refine List.filterMap_eq_nil_iff.mpr fun note hnote => ?_
    cases note with
    | queued key instant => cases h _ hnote
    | _ => rfl
  have hclaimed : new.filterMap HeartbeatNote.claimedKey = [] := by
    refine List.filterMap_eq_nil_iff.mpr fun note hnote => ?_
    cases note with
    | claimed key phase => cases h _ hnote
    | _ => rfl
  constructor
  · rw [queuedFor, hqueued]
    rfl
  · rw [claimedFor, hclaimed]
    rfl

/-- The note queues or claims an attempt of this heartbeat. -/
def HeartbeatNote.turns (note : HeartbeatNote) (x : ℕ) : Prop :=
  (∃ key instant, note = .queued key instant ∧ key.sequenceId = x) ∨
    ∃ key phase, note = .claimed key phase ∧ key.sequenceId = x

theorem turned_keys {y : ℕ} (h : ∀ note ∈ new, note.turns x) (hy : y ≠ x) :
    queuedFor new y = [] ∧ claimedFor new y = [] := by
  constructor
  · rw [queuedFor, keysOf, List.filter_eq_nil_iff]
    intro key hkey
    obtain ⟨note, hnote, hkey⟩ := List.mem_filterMap.mp hkey
    rcases h note hnote with ⟨key', instant, rfl, rfl⟩ | ⟨key', phase, rfl, rfl⟩
    · cases hkey
      simpa using hy.symm
    · cases hkey
  · rw [claimedFor, keysOf, List.filter_eq_nil_iff]
    intro key hkey
    obtain ⟨note, hnote, hkey⟩ := List.mem_filterMap.mp hkey
    rcases h note hnote with ⟨key', instant, rfl, rfl⟩ | ⟨key', phase, rfl, rfl⟩
    · cases hkey
    · cases hkey
      simpa using hy.symm

theorem Unanswered.append (h : Unanswered notes x) (hnew : .responded x ∉ new) :
    Unanswered (notes ++ new) x := by
  refine Lawful.append h fun a ha before heq => ?_
  rw [heq] at ha
  exact absurd ha hnew

/-- What was never queued is unanswered. -/
theorem unanswered_of_fresh (h : queuedFor notes x = []) : Unanswered notes x := by
  rintro before note after rfl -
  rw [queuedFor_append] at h
  exact (List.append_eq_nil_iff.mp h).1

/-- How many attempts were queued and claimed; those before the last one queued were written. -/
structure Beat (config : ConnectionConfig) (notes : List HeartbeatNote) (x : ℕ)
    (heartbeatId : UInt64) (queued claimed : ℕ) : Prop where
  queued_eq : queuedFor notes x = attemptKeys x heartbeatId queued
  claimed_eq : claimedFor notes x = attemptKeys x heartbeatId claimed
  claimed_le : claimed ≤ queued
  queued_le : queued ≤ claimed + 1
  queued_max : queued ≤ config.retryCount
  written : ∀ attempt, 1 ≤ attempt → attempt < queued →
    ∃ writtenAt, .written ⟨x, heartbeatId, attempt⟩ writtenAt ∈ notes

/-- The entry of a pending heartbeat tells how far it is. -/
def Waits (notes : List HeartbeatNote) (x : ℕ) (heartbeatId : UInt64) (queued claimed : ℕ)
    (e : PendingHeartbeat) : Prop :=
  e.heartbeatId = heartbeatId ∧ 1 ≤ queued ∧ Unanswered notes x ∧
    match e.state with
    | .queued attempt => queued = attempt ∧ claimed + 1 = attempt
    | .writing attempt => queued = attempt ∧ claimed = attempt
    | .awaitingResponse attempt writtenAt => queued = attempt ∧ claimed = attempt ∧
        .written ⟨x, heartbeatId, attempt⟩ writtenAt ∈ notes

/-- The notes about one heartbeat, and its entry if it is pending. -/
def Beating (config : ConnectionConfig) (notes : List HeartbeatNote) (x : ℕ)
    (entry : Option PendingHeartbeat) : Prop :=
  ∃ heartbeatId queued claimed, Beat config notes x heartbeatId queued claimed ∧
    ∀ e, entry = some e → Waits notes x heartbeatId queued claimed e

theorem beating_nil (config : ConnectionConfig) (x : ℕ) : Beating config [] x none :=
  ⟨0, 0, 0, ⟨rfl, rfl, le_rfl, Nat.zero_le _, Nat.zero_le _, by omega⟩, nofun⟩

/-- Notes that queue and claim nothing of the heartbeat; an answered entry is gone. -/
theorem Beating.quiet (h : Beating config notes x entry) (hqueued : queuedFor new x = [])
    (hclaimed : claimedFor new x = [])
    (hentry : ∀ e, entry' = some e → entry = some e ∧ .responded x ∉ new) :
    Beating config (notes ++ new) x entry' := by
  obtain ⟨heartbeatId, queued, claimed, hbeat, hwaits⟩ := h
  refine ⟨heartbeatId, queued, claimed, ⟨?_, ?_, hbeat.claimed_le, hbeat.queued_le,
    hbeat.queued_max, ?_⟩, ?_⟩
  · rw [queuedFor_append, hqueued, List.append_nil, hbeat.queued_eq]
  · rw [claimedFor_append, hclaimed, List.append_nil, hbeat.claimed_eq]
  · intro attempt hpos hlt
    obtain ⟨writtenAt, hmem⟩ := hbeat.written attempt hpos hlt
    exact ⟨writtenAt, List.mem_append_left _ hmem⟩
  · intro e he
    obtain ⟨hold, hanswer⟩ := hentry e he
    obtain ⟨hid, hpos, hunanswered, hstate⟩ := hwaits e hold
    refine ⟨hid, hpos, hunanswered.append hanswer, ?_⟩
    cases hat : e.state with
    | queued attempt =>
      rw [hat] at hstate
      exact hstate
    | writing attempt =>
      rw [hat] at hstate
      exact hstate
    | awaitingResponse attempt writtenAt =>
      rw [hat] at hstate
      exact ⟨hstate.1, hstate.2.1, List.mem_append_left _ hstate.2.2⟩

theorem Beating.queued (h : Beating config notes x (some e)) : queuedFor notes x ≠ [] := by
  obtain ⟨_, queued, claimed, hbeat, hwaits⟩ := h
  obtain ⟨_, hpos, _⟩ := hwaits e rfl
  intro hnil
  obtain rfl : queued = 0 := attemptKeys_eq_nil (hbeat.queued_eq.symm.trans hnil)
  exact absurd hpos (Nat.not_succ_le_zero 0)

/-- The first attempt is queued. -/
theorem Beating.begin (h : Beating config notes x entry) (hfresh : queuedFor notes x = [])
    (heartbeatId : UInt64) (lease : SequenceLease) (instant : ℕ) :
    Beating config (notes ++ [.queued ⟨x, heartbeatId, 1⟩ instant]) x
      (some ⟨heartbeatId, .queued 1, lease⟩) := by
  obtain ⟨_, queued, claimed, hbeat, _⟩ := h
  obtain rfl : queued = 0 := attemptKeys_eq_nil (hbeat.queued_eq.symm.trans hfresh)
  obtain rfl : claimed = 0 := Nat.le_zero.mp hbeat.claimed_le
  refine ⟨heartbeatId, 1, 0, ⟨?_, ?_, Nat.zero_le _, le_rfl, config.retryCount_pos, ?_⟩, ?_⟩
  · rw [queuedFor_append, hfresh, queuedFor_queued, if_pos rfl]
    rfl
  · rw [claimedFor_append, hbeat.claimed_eq]
    rfl
  · omega
  · rintro e he
    cases he
    refine ⟨rfl, le_rfl, ?_, rfl, rfl⟩
    exact (unanswered_of_fresh hfresh).append (by simp)

/-- The next attempt is queued. -/
theorem Beating.again (h : Beating config notes x (some e)) {attempt writtenAt : ℕ}
    (hstate : e.state = .awaitingResponse attempt writtenAt) (hlt : attempt < config.retryCount)
    (instant : ℕ) :
    Beating config (notes ++ [.queued ⟨x, e.heartbeatId, attempt + 1⟩ instant]) x
      (some { e with state := .queued (attempt + 1) }) := by
  obtain ⟨_, queued, claimed, hbeat, hwaits⟩ := h
  obtain ⟨rfl, hpos, hunanswered, hat⟩ := hwaits e rfl
  rw [hstate] at hat
  obtain ⟨rfl, rfl, hwritten⟩ := hat
  refine ⟨e.heartbeatId, claimed + 1, claimed, ⟨?_, ?_, Nat.le_succ _, le_rfl, hlt, ?_⟩, ?_⟩
  · rw [queuedFor_append, hbeat.queued_eq, queuedFor_queued, if_pos rfl, attemptKeys_succ]
  · rw [claimedFor_append, hbeat.claimed_eq]
    exact List.append_nil _
  · intro n hpos hn
    rcases Nat.lt_succ_iff_lt_or_eq.mp hn with hn | rfl
    · obtain ⟨t, ht⟩ := hbeat.written n hpos hn
      exact ⟨t, List.mem_append_left _ ht⟩
    · exact ⟨writtenAt, List.mem_append_left _ hwritten⟩
  · rintro e' he
    cases he
    exact ⟨rfl, Nat.le_add_left 1 _, hunanswered.append (by simp), rfl, rfl⟩

/-- A queued attempt is claimed. -/
theorem Beating.claim (h : Beating config notes x (some e)) {attempt : ℕ}
    (hstate : e.state = .queued attempt) (phase : ConnectionPhase) :
    Beating config (notes ++ [.claimed ⟨x, e.heartbeatId, attempt⟩ phase]) x
      (some { e with state := .writing attempt }) ∧
      attempt ≤ config.retryCount ∧ Unanswered notes x := by
  obtain ⟨_, queued, claimed, hbeat, hwaits⟩ := h
  obtain ⟨rfl, hpos, hunanswered, hat⟩ := hwaits e rfl
  rw [hstate] at hat
  obtain ⟨rfl, rfl⟩ := hat
  refine ⟨⟨e.heartbeatId, claimed + 1, claimed + 1, ⟨?_, ?_, le_rfl, Nat.le_succ _,
    hbeat.queued_max, ?_⟩, ?_⟩, hbeat.queued_max, hunanswered⟩
  · rw [queuedFor_append, hbeat.queued_eq]
    exact List.append_nil _
  · rw [claimedFor_append, hbeat.claimed_eq, claimedFor_claimed, if_pos rfl, attemptKeys_succ]
  · intro n hpos hn
    obtain ⟨t, ht⟩ := hbeat.written n hpos hn
    exact ⟨t, List.mem_append_left _ ht⟩
  · rintro e' he
    cases he
    exact ⟨rfl, hpos, hunanswered.append (by simp), rfl, rfl⟩

/-- A claimed attempt was written. -/
theorem Beating.complete (h : Beating config notes x (some e)) {attempt writtenAt : ℕ}
    (hstate : e.state = .writing attempt)
    (hwritten : .written ⟨x, e.heartbeatId, attempt⟩ writtenAt ∈ notes) :
    Beating config notes x (some { e with state := .awaitingResponse attempt writtenAt }) := by
  obtain ⟨_, queued, claimed, hbeat, hwaits⟩ := h
  obtain ⟨rfl, hpos, hunanswered, hat⟩ := hwaits e rfl
  rw [hstate] at hat
  obtain ⟨rfl, rfl⟩ := hat
  refine ⟨e.heartbeatId, claimed, claimed, hbeat, ?_⟩
  rintro e' he
  cases he
  exact ⟨rfl, hpos, hunanswered, rfl, rfl, hwritten⟩

/-- When the last attempt waits for its response, all of them were written. -/
theorem Beating.exhaust (h : Beating config notes x (some e)) {attempt writtenAt : ℕ}
    (hstate : e.state = .awaitingResponse attempt writtenAt) (hle : config.retryCount ≤ attempt) :
    Allowed config notes (.exhausted x) := by
  obtain ⟨_, queued, claimed, hbeat, hwaits⟩ := h
  obtain ⟨rfl, hpos, hunanswered, hat⟩ := hwaits e rfl
  rw [hstate] at hat
  obtain ⟨rfl, rfl, hwritten⟩ := hat
  refine ⟨⟨e.heartbeatId, fun n hpos hn => ?_⟩, hunanswered⟩
  rcases (hn.trans hle).lt_or_eq with hlt | rfl
  · exact hbeat.written n hpos hlt
  · exact ⟨writtenAt, hwritten⟩

end CmppProtocol
