import Mathlib.Data.List.Sort
import Mathlib.Order.Lattice

/-! # Min-heaps

A heap as the sorted list of its items: a push puts an item in its place, a peek
shows the least one, a pop takes it away.
-/

structure MinHeap (α : Type*) [LinearOrder α] where
  items : List α
  sorted : items.Pairwise (· ≤ ·)

namespace MinHeap

variable {α : Type*} [LinearOrder α] {heap : MinHeap α} {a b : α}

instance : Membership α (MinHeap α) := ⟨fun heap a => a ∈ heap.items⟩

theorem mem_def : a ∈ heap ↔ a ∈ heap.items := Iff.rfl

def empty : MinHeap α := ⟨[], .nil⟩

def size (heap : MinHeap α) : ℕ := heap.items.length

def peek (heap : MinHeap α) : Option α := heap.items.head?

def pop (heap : MinHeap α) : MinHeap α := ⟨heap.items.tail, heap.sorted.tail⟩

theorem push_sorted (heap : MinHeap α) (a : α) :
    (heap.items.orderedInsert (· ≤ ·) a).Pairwise (· ≤ ·) := heap.sorted.orderedInsert a _

def push (heap : MinHeap α) (a : α) : MinHeap α :=
  ⟨heap.items.orderedInsert (· ≤ ·) a, heap.push_sorted a⟩

@[simp] theorem not_mem_empty : a ∉ (empty : MinHeap α) := List.not_mem_nil

@[simp] theorem mem_push : b ∈ heap.push a ↔ b = a ∨ b ∈ heap := List.mem_orderedInsert _

theorem peek_eq_none (h : heap.peek = none) : b ∉ heap := by
  rw [mem_def, List.head?_eq_none_iff.mp h]
  exact List.not_mem_nil

theorem mem_of_peek (h : heap.peek = some a) : a ∈ heap := List.mem_of_head? h

/-- The item on top is the least one. -/
theorem peek_le (h : heap.peek = some a) (hb : b ∈ heap) : a ≤ b := by
  obtain ⟨rest, hitems⟩ := List.head?_eq_some_iff.mp h
  have hsorted := heap.sorted
  rw [mem_def, hitems] at hb
  rw [hitems] at hsorted
  rcases List.mem_cons.mp hb with rfl | hb
  · exact le_rfl
  · exact List.rel_of_pairwise_cons hsorted hb

theorem items_of_peek (h : heap.peek = some a) : heap.items = a :: heap.pop.items := by
  obtain ⟨rest, hitems⟩ := List.head?_eq_some_iff.mp h
  change heap.items = a :: heap.items.tail
  rw [hitems, List.tail_cons]

theorem size_pop (h : heap.peek = some a) : heap.pop.size < heap.size := by
  rw [size, size, items_of_peek h, List.length_cons]
  exact Nat.lt_succ_self _

end MinHeap
