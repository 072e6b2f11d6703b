import Mathlib.Data.Bool.Basic
import Mathlib.Data.List.TakeDrop
import Mathlib.Data.Nat.Basic
import Mathlib.Order.Basic
import Mathlib.Tactic.SplitIfs

/-! # Bounded channels

A channel hands items on in the order in which they came. It is kept as the list
of all items that were ever put into it and the number of those that were taken
out again; what it holds is the rest of the list. A closed channel takes no more
items.
-/

structure Channel (α : Type*) (capacity : ℕ) where
  sent : List α
  taken : ℕ
  closed : Bool
  taken_le : taken ≤ sent.length
  room : sent.length ≤ taken + capacity

namespace Channel

variable {α : Type*} {capacity n : ℕ} {c c' : Channel α capacity} {a : α}

inductive SendError
  | full
  | closed
  deriving DecidableEq, Repr

def empty (α : Type*) (capacity : ℕ) : Channel α capacity where
  sent := []
  taken := 0
  closed := false
  taken_le := le_rfl
  room := Nat.zero_le _

/-- The items that the channel holds. -/
def queued (c : Channel α capacity) : List α := c.sent.drop c.taken

/-- Put an item in if there is a slot for it and so many others are free beside it. -/
def trySend (c : Channel α capacity) (spare : ℕ) (a : α) :
    Except SendError (Channel α capacity) :=
  if c.closed then .error .closed
  else if h : c.sent.length + 1 + spare ≤ c.taken + capacity then
    .ok {
      sent := c.sent ++ [a]
      taken := c.taken
      closed := c.closed
      taken_le := c.taken_le.trans (List.length_append ▸ Nat.le_add_right _ _)
      room := by
        rw [List.length_append, List.length_singleton]
        exact (Nat.le_add_right _ spare).trans h }
  else .error .full

def recv (c : Channel α capacity) : Option (α × Channel α capacity) :=
  if h : c.taken < c.sent.length then
    some (c.sent[c.taken], { c with
      taken := c.taken + 1
      taken_le := h
      room := c.room.trans (Nat.add_le_add_right (Nat.le_succ _) _) })
  else none

def close (c : Channel α capacity) : Channel α capacity := { c with closed := true }

@[simp] theorem empty_sent : (empty α capacity).sent = [] := rfl

@[simp] theorem close_sent (c : Channel α capacity) : c.close.sent = c.sent := rfl

@[simp] theorem close_taken (c : Channel α capacity) : c.close.taken = c.taken := rfl

@[simp] theorem close_queued (c : Channel α capacity) : c.close.queued = c.queued := rfl

theorem queued_length (c : Channel α capacity) : c.queued.length + c.taken = c.sent.length := by
  rw [queued, List.length_drop]
  exact Nat.sub_add_cancel c.taken_le

/-- What an item that was put in has done to the channel. -/
structure Sent (c c' : Channel α capacity) (spare : ℕ) (a : α) : Prop where
  opened : c.closed = false
  sent : c'.sent = c.sent ++ [a]
  taken : c'.taken = c.taken
  closed : c'.closed = false
  free : c'.sent.length + spare ≤ c'.taken + capacity

theorem trySend_ok (h : c.trySend n a = .ok c') : c.Sent c' n a := by
  unfold trySend at h
  split_ifs at h with hclosed hfree
  cases h
  refine ⟨Bool.eq_false_of_not_eq_true hclosed, rfl, rfl, Bool.eq_false_of_not_eq_true hclosed, ?_⟩
  rw [List.length_append, List.length_singleton]
  exact hfree

theorem trySend_closed (h : c.trySend n a = .error .closed) : c.closed = true := by
  unfold trySend at h
  split_ifs at h with hclosed
  · exact hclosed
  · cases h

/-- There is room for an item, so that it is put in. -/
theorem trySend_of_free (hopen : c.closed = false)
    (hfree : c.sent.length + 1 + n ≤ c.taken + capacity) : ∃ c', c.trySend n a = .ok c' := by
  unfold trySend
  rw [hopen, if_neg Bool.false_ne_true, dif_pos hfree]
  exact ⟨_, rfl⟩

theorem Sent.queued (h : c.Sent c' n a) : c'.queued = c.queued ++ [a] := by
  rw [Channel.queued, Channel.queued, h.sent, h.taken, List.drop_append_of_le_length c.taken_le]

/-- What taking an item out has done to the channel. -/
structure Received (c c' : Channel α capacity) (a : α) : Prop where
  sent : c'.sent = c.sent
  taken : c'.taken = c.taken + 1
  closed : c'.closed = c.closed
  queued : c.queued = a :: c'.queued
  front : c'.sent.take c'.taken = c.sent.take c.taken ++ [a]

theorem recv_some (h : c.recv = some (a, c')) : c.Received c' a := by
  unfold recv at h
  split_ifs at h with hlt
  cases h
  exact ⟨rfl, rfl, rfl, List.drop_eq_getElem_cons hlt, (List.take_concat_get' _ _ hlt).symm⟩

theorem recv_none (h : c.recv = none) : c.queued = [] := by
  unfold recv at h
  split_ifs at h with hlt
  exact List.drop_eq_nil_of_le (Nat.le_of_not_lt hlt)

/-! ## Items in front -/

/-- The channel after items that have gone through it. -/
def after (items : List α) (c : Channel α capacity) : Channel α capacity where
  sent := items ++ c.sent
  taken := c.taken + items.length
  closed := c.closed
  taken_le := by
    have htaken := c.taken_le
    rw [List.length_append]
    omega
  room := by
    have hroom := c.room
    rw [List.length_append]
    omega

/-- The channel with items in it that nobody takes, and a slot more for each of them. -/
def behind (items : List α) (c : Channel α capacity) : Channel α (capacity + items.length) where
  sent := items ++ c.sent
  taken := c.taken
  closed := c.closed
  taken_le := by
    rw [List.length_append]
    exact Nat.le_add_left_of_le c.taken_le
  room := by
    have hroom := c.room
    rw [List.length_append]
    omega

@[simp] theorem after_queued (items : List α) (c : Channel α capacity) :
    (c.after items).queued = c.queued := by
  change (items ++ c.sent).drop (c.taken + items.length) = c.queued
  rw [Nat.add_comm, ← List.drop_drop, List.drop_left]
  rfl

theorem after_recv (items : List α) (c : Channel α capacity) :
    (c.after items).recv = c.recv.map (Prod.map id (after items)) := by
  have hlt : (c.after items).taken < (c.after items).sent.length ↔ c.taken < c.sent.length := by
    simp only [after, List.length_append]
    omega
  unfold recv
  by_cases h : c.taken < c.sent.length
  · have h' := hlt.mpr h
    have hitem : (c.after items).sent[(c.after items).taken] = c.sent[c.taken] := by
      apply Option.some.inj
      rw [← List.getElem?_eq_getElem, ← List.getElem?_eq_getElem]
      change (items ++ c.sent)[c.taken + items.length]? = c.sent[c.taken]?
      rw [List.getElem?_append_right (Nat.le_add_left _ _), Nat.add_sub_cancel]
    rw [dif_pos h, dif_pos h', hitem]
    simp only [Option.map_some, Prod.map, id, after, Nat.add_right_comm]
  · rw [dif_neg h, dif_neg (mt hlt.mp h)]
    rfl

theorem after_trySend (items : List α) (c : Channel α capacity) (spare : ℕ) (a : α) :
    (c.after items).trySend spare a = (c.trySend spare a).map (after items) := by
  have hfree : (c.after items).sent.length + 1 + spare ≤ (c.after items).taken + capacity ↔
      c.sent.length + 1 + spare ≤ c.taken + capacity := by
    simp only [after, List.length_append]
    omega
  unfold trySend
  by_cases hclosed : c.closed = true
  · rw [if_pos hclosed, if_pos (show (c.after items).closed = true from hclosed)]
    rfl
  · rw [if_neg hclosed, if_neg (show ¬ (c.after items).closed = true from hclosed)]
    by_cases h : c.sent.length + 1 + spare ≤ c.taken + capacity
    · rw [dif_pos h, dif_pos (hfree.mpr h)]
      simp only [Except.map, after, List.append_assoc]
    · rw [dif_neg h, dif_neg (mt hfree.mp h)]
      rfl

theorem behind_trySend (items : List α) (c : Channel α capacity) (spare : ℕ) (a : α) :
    (c.behind items).trySend spare a = (c.trySend spare a).map (behind items) := by
  have hfree :
      (c.behind items).sent.length + 1 + spare ≤
        (c.behind items).taken + (capacity + items.length) ↔
      c.sent.length + 1 + spare ≤ c.taken + capacity := by
    simp only [behind, List.length_append]
    omega
  unfold trySend
  by_cases hclosed : c.closed = true
  · rw [if_pos hclosed, if_pos (show (c.behind items).closed = true from hclosed)]
    rfl
  · rw [if_neg hclosed, if_neg (show ¬ (c.behind items).closed = true from hclosed)]
    by_cases h : c.sent.length + 1 + spare ≤ c.taken + capacity
    · rw [dif_pos h, dif_pos (hfree.mpr h)]
      simp only [Except.map, behind, List.append_assoc]
    · rw [dif_neg h, dif_neg (mt hfree.mp h)]
      rfl

end Channel
