import CmppProtocol.Library.Fallible

/-! # Reading through a cursor

A cursor is a position in a fixed list of items. `Reads` says that a reader
consumes exactly the given items wherever they stand in a list of bounded
length, so that readers of consecutive parts compose.
-/

structure Cursor (ι : Type) where
  buf : List ι
  pos : ℕ

namespace Cursor

open Fallible

variable {ι ε α β : Type} {m : Fallible ε (Cursor ι) α} {f : α → Fallible ε (Cursor ι) β}
  {limit : ℕ} {xs ys : List ι} {a : α} {b : β}

/-- The position lies in the list. -/
def Inside (c : Cursor ι) : Prop := c.pos ≤ c.buf.length

def Reads (limit : ℕ) (m : Fallible ε (Cursor ι) α) (xs : List ι) (a : α) : Prop :=
  ∀ pre post, (pre ++ xs ++ post).length ≤ limit → Returns m ⟨pre ++ xs ++ post, pre.length⟩ a
    ⟨pre ++ xs ++ post, pre.length + xs.length⟩

theorem Reads.pure (a : α) : Reads (ε := ε) limit (Pure.pure a) ([] : List ι) a :=
  fun _ _ _ => Returns.pure a _

theorem Reads.bind (hm : Reads limit m xs a) (hf : Reads limit (f a) ys b) :
    Reads limit (m >>= f) (xs ++ ys) b := by
  intro pre post hlen
  have h₁ := hm pre (ys ++ post)
  have h₂ := hf (pre ++ xs) post
  simp only [List.append_assoc, List.length_append, Nat.add_assoc] at h₁ h₂ hlen ⊢
  exact (h₁ hlen).bind (h₂ hlen)

/-- Reading a prefix through a continuation that has nothing left to read. -/
theorem Reads.bind_nil (hm : Reads limit m xs a) (hf : Reads limit (f a) [] b) :
    Reads limit (m >>= f) xs b := by
  simpa only [List.append_nil] using hm.bind hf

theorem Reads.collect {m : Fallible ε (Cursor ι) α} {enc : β → List ι} {dec : β → α}
    {bs : List β} (hm : ∀ b ∈ bs, Reads limit m (enc b) (dec b)) :
    Reads limit (collect m bs.length) (bs.flatMap enc) (bs.map dec) := by
  induction bs with
  | nil => exact .pure []
  | cons b bs ih =>
    have hrest := ih fun b hb => hm b (List.mem_cons_of_mem _ hb)
    have h := (hm b List.mem_cons_self).bind (f := fun a => do
      let as ← Fallible.collect m bs.length
      Pure.pure (a :: as)) (hrest.bind (Reads.pure (dec b :: bs.map dec)))
    rw [List.append_nil] at h
    exact h

end Cursor
