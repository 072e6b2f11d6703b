import Mathlib.Data.Nat.Notation

/-! # Bitmaps

A bitmap is an array of 64-bit words. An index has a position: a word, and a mask
with one bit. Testing, setting and clearing positions is membership, insertion
and removal of indices.
-/

namespace Bitmap

variable {n : ℕ}

/-- The word and the mask of an index. -/
def position (i : ℕ) (h : i / 64 < n) : Fin n × UInt64 :=
  (⟨i / 64, h⟩, 1 <<< UInt64.ofNat (i % 64))

def set (words : Vector UInt64 n) : Fin n × UInt64 → Vector UInt64 n
  | (word, mask) => words.set word (words[word] ||| mask)

def clear (words : Vector UInt64 n) : Fin n × UInt64 → Vector UInt64 n
  | (word, mask) => words.set word (words[word] &&& ~~~mask)

/-- The index is a member of the bitmap. -/
def Mem (words : Vector UInt64 n) (i : ℕ) (hi : i / 64 < n) : Prop :=
  words[i / 64].toBitVec.getLsbD (i % 64) = true

variable {words : Vector UInt64 n} {i j : ℕ} (hi : i / 64 < n) (hj : j / 64 < n)

instance : Decidable (Mem words i hi) := inferInstanceAs (Decidable (_ = true))

theorem not_mem_zero : ¬ Mem (.replicate n 0) i hi := by
  simp [Mem]

/-! ## One word -/

theorem toBitVec_bit (h : i < 64) :
    ((1 : UInt64) <<< UInt64.ofNat i).toBitVec = BitVec.twoPow 64 i := by
  rw [UInt64.toBitVec_shiftLeft, BitVec.twoPow]
  simp [Nat.mod_eq_of_lt h]

theorem and_bit_ne_zero (x : UInt64) (h : i < 64) :
    x &&& 1 <<< UInt64.ofNat i ≠ 0 ↔ x.toBitVec.getLsbD i = true := by
  have hone : BitVec.twoPow 64 i ≠ 0#64 := by
    intro hz
    have hbit := congrArg (BitVec.getLsbD · i) hz
    simp [h] at hbit
  rw [Ne, ← UInt64.toBitVec_inj, UInt64.toBitVec_and, toBitVec_bit h, BitVec.and_twoPow]
  cases x.toBitVec.getLsbD i
  · simp
  · simpa using hone

theorem getLsbD_or_bit (x : UInt64) (h : i < 64) :
    (x ||| 1 <<< UInt64.ofNat i).toBitVec.getLsbD j = (x.toBitVec.getLsbD j || decide (i = j)) := by
  rw [UInt64.toBitVec_or, BitVec.getLsbD_or, toBitVec_bit h, BitVec.getLsbD_twoPow]
  simp [h]

theorem getLsbD_and_not_bit (x : UInt64) (h : i < 64) (h' : j < 64) :
    (x &&& ~~~(1 <<< UInt64.ofNat i)).toBitVec.getLsbD j =
      (x.toBitVec.getLsbD j && !decide (i = j)) := by
  rw [UInt64.toBitVec_and, BitVec.getLsbD_and, UInt64.toBitVec_not, BitVec.getLsbD_not,
    toBitVec_bit h, BitVec.getLsbD_twoPow]
  simp [h, h']

/-! ## The array -/

theorem index_eq_iff (h : i / 64 = j / 64) : i % 64 = j % 64 ↔ i = j := by omega

/-- Testing one position against the union of two bitmaps. -/
theorem test_or {words' : Vector UInt64 n} :
    (words[(position i hi).1] ||| words'[(position i hi).1]) &&& (position i hi).2 ≠ 0 ↔
      Mem words i hi ∨ Mem words' i hi := by
  have hlt : i % 64 < 64 := Nat.mod_lt _ (by decide)
  simp only [position, and_bit_ne_zero _ hlt, UInt64.toBitVec_or, BitVec.getLsbD_or,
    Bool.or_eq_true]
  rfl

theorem mem_set : Mem (set words (position i hi)) j hj ↔ Mem words j hj ∨ j = i := by
  have hlt : i % 64 < 64 := Nat.mod_lt _ (by decide)
  simp only [Mem, set, position, Fin.getElem_fin, Vector.getElem_set]
  split
  · rename_i h
    rw [getLsbD_or_bit _ hlt, Bool.or_eq_true, decide_eq_true_eq, index_eq_iff h, eq_comm (a := i)]
    simp only [h]
  · rename_i h
    have hne : j ≠ i := fun he => h (he ▸ rfl)
    simp only [hne, or_false]

theorem mem_clear : Mem (clear words (position i hi)) j hj ↔ Mem words j hj ∧ j ≠ i := by
  have hlt : i % 64 < 64 := Nat.mod_lt _ (by decide)
  have hlt' : j % 64 < 64 := Nat.mod_lt _ (by decide)
  simp only [Mem, clear, position, Fin.getElem_fin, Vector.getElem_set]
  split
  · rename_i h
    rw [getLsbD_and_not_bit _ hlt hlt', Bool.and_eq_true, Bool.not_eq_true',
      decide_eq_false_iff_not, index_eq_iff h, eq_comm (a := i)]
    simp only [h, ne_eq]
  · rename_i h
    have hne : j ≠ i := fun he => h (he ▸ rfl)
    simp only [hne, ne_eq, not_false_eq_true, and_true]

end Bitmap
