import CmppProtocol.Wire.Octets

/-! # What the readers read

Each reader of a body is given twice: the octets it consumes for a written
value, and that it never aborts while the position lies in the body.
-/

namespace CmppProtocol

open Fallible Cursor

/-- The octets that the writer of a text field appends. -/
def octets (s : String) (len : ℕ) : List UInt8 := putOctetStr [] s len

/-- A text field after writing and reading it back. -/
def wireText (s : String) (width : ℕ) : String :=
  Utf8.ofBytesLossy (((Utf8.bytes s).take width).rdropWhile isPadding)

theorem putOctetStr_eq (buf : List UInt8) (s : String) (len : ℕ) :
    putOctetStr buf s len = buf ++ octets s len := by
  simp [octets, putOctetStr, putSlice]

theorem octets_eq (s : String) (len : ℕ) :
    octets s len = (Utf8.bytes s).take len ++ List.replicate (len - (Utf8.bytes s).length) 0 := by
  have hn : len - min (Utf8.bytes s).length len = len - (Utf8.bytes s).length := by omega
  rw [octets, putOctetStr, hn, min_comm, ← List.take_take, List.take_length]
  rfl

@[simp] theorem length_octets (s : String) (len : ℕ) : (octets s len).length = len := by
  rw [octets_eq, List.length_append, List.length_take, List.length_replicate]
  omega

theorem readOctetStr_octets (s : String) (len : ℕ) :
    readOctetStr (octets s len) = wireText s len := by
  have hpad : ∀ (bytes : List UInt8) (n : ℕ),
      (bytes ++ List.replicate n 0).rdropWhile isPadding = bytes.rdropWhile isPadding := by
    intro bytes n
    induction n with
    | zero => rw [List.replicate_zero, List.append_nil]
    | succ n ih =>
      rw [List.replicate_succ', ← List.append_assoc, List.rdropWhile_concat_pos _ _ _ rfl, ih]
  rw [readOctetStr, octets_eq, hpad, wireText]

/-- A text that fits its field and does not end in padding is read back as it is. -/
theorem wireText_eq {s : String} {width : ℕ} (hfit : (Utf8.bytes s).length ≤ width)
    (hend : ∀ b, (Utf8.bytes s).getLast? = some b → isPadding b = false) :
    wireText s width = s := by
  have hdrop : (Utf8.bytes s).rdropWhile isPadding = Utf8.bytes s := by
    rw [List.rdropWhile_eq_self_iff]
    intro hne
    rw [hend _ (List.getLast?_eq_some_getLast hne)]
    exact Bool.false_ne_true
  rw [wireText, List.take_of_length_le hfit, hdrop, Utf8.ofBytesLossy_bytes]

theorem fromBeBytes_toBeBytes (x : UInt32) :
    fromBeBytes (.ofNat (x.toNat / 16777216)) (.ofNat (x.toNat / 65536)) (.ofNat (x.toNat / 256))
      (.ofNat x.toNat) = x := by
  have hx : x.toNat < 4294967296 := x.toNat_lt
  apply UInt32.toNat_inj.mp
  simp only [fromBeBytes, UInt8.toNat_ofNat', UInt32.toNat_ofNat']
  omega

@[simp] theorem length_toBeBytes (x : UInt32) : (toBeBytes x).length = 4 := rfl

namespace BodyReader

variable {α β : Type} {m : Fallible Error BodyReader α} {f : α → Fallible Error BodyReader β}
  {xs ys : List UInt8} {a : α} {b : β} {P : α → Prop}

/-! ## What is consumed -/

theorem reads_take {n : ℕ} (h : xs.length = n) : Reads usizeMax (take n) xs xs := by
  intro pre post hlen
  simp only [List.length_append] at hlen
  have hadd : checkedAdd pre.length n = some (pre.length + n) := if_pos (by omega)
  have hin : ¬ (pre ++ xs ++ post).length < pre.length + n := by
    simp only [List.length_append]
    omega
  have hslice : ((pre ++ xs ++ post).take (pre.length + n)).drop pre.length = xs := by
    subst h
    rw [← List.length_append, List.take_left, List.drop_left]
  have hs := slice_eq (ε := Error) (σ := BodyReader) (Nat.le_add_right pre.length n) (not_lt.mp hin)
  simp only [Returns, take, state_bind, put_bind, hadd, hin, if_false, hs, hslice, pure_apply, h]

theorem reads_u8 (b : UInt8) : Reads usizeMax u8 [b] b := (reads_take rfl).bind_nil (.pure b)

theorem reads_u32 (x : UInt32) : Reads usizeMax u32 (toBeBytes x) x := by
  refine (reads_take rfl).bind_nil ?_
  have h : ∀ v : UInt32, v = x →
      Reads usizeMax (pure v : Fallible Error BodyReader UInt32) [] x := by
    rintro v rfl
    exact .pure v
  exact h _ (fromBeBytes_toBeBytes x)

theorem reads_takeArray {n : ℕ} (v : Vector UInt8 n) : Reads usizeMax (takeArray n) v.toList v := by
  refine (reads_take (by simp)).bind_nil ?_
  rw [array_toList]
  exact .pure v

theorem reads_octetStr (s : String) (n : ℕ) :
    Reads usizeMax (octetStr n) (octets s n) (wireText s n) := by
  refine (reads_take (length_octets s n)).bind_nil ?_
  rw [readOctetStr_octets]
  exact .pure _

/-- The reader consumes the given octets as the last ones of the body. -/
def ReadsAll (m : Fallible Error BodyReader α) (xs : List UInt8) (a : α) : Prop :=
  ∀ pre, (pre ++ xs).length ≤ usizeMax →
    Returns m ⟨pre ++ xs, pre.length⟩ a ⟨pre ++ xs, (pre ++ xs).length⟩

theorem ReadsAll.bind (hm : Reads usizeMax m xs a) (hf : ReadsAll (f a) ys b) :
    ReadsAll (m >>= f) (xs ++ ys) b := by
  intro pre hlen
  have h₁ := hm pre ys
  have h₂ := hf (pre ++ xs)
  simp only [List.append_assoc, List.length_append] at h₁ h₂ hlen ⊢
  exact (h₁ hlen).bind (h₂ hlen)

theorem ReadsAll.remaining {f : ℕ → Fallible Error BodyReader β}
    (hf : ReadsAll (f xs.length) xs b) :
    ReadsAll (BodyReader.remaining >>= f) xs b := by
  intro pre hlen
  refine Returns.bind ?_ (hf pre hlen)
  simp only [Returns, BodyReader.remaining, state_bind, List.length_append, Nat.le_add_right,
    if_true, Nat.add_sub_cancel_left, pure_apply]

theorem ReadsAll.finish (pdu : String) (a : α) :
    ReadsAll (do BodyReader.finish pdu; Pure.pure a) [] a := by
  intro pre _
  refine Returns.bind (a := ()) ?_ (Returns.pure a _)
  simp only [Returns, BodyReader.finish, state_bind, List.append_nil, ne_eq, not_true_eq_false,
    if_false, pure_apply]

theorem ReadsAll.run {σ : Type} (hm : ReadsAll m xs a) (hlen : xs.length ≤ usizeMax) (s : σ) :
    Returns (run m xs) s a s := by
  have h : m (new xs) = some (.ok a, ⟨xs, xs.length⟩) := hm [] hlen
  simp only [Returns, BodyReader.run, h]
  rfl

/-! ## No abort -/

theorem sound_take (n : ℕ) : Sound Inside (take n) fun xs => xs.length = n := by
  rintro ⟨buf, pos⟩ hin
  simp only [take, state_bind]
  cases hadd : checkedAdd pos n with
  | none =>
    refine ⟨_, _, rfl, hin, ?_⟩
    rintro _ ⟨⟩
  | some stop =>
    have hstop : stop = pos + n := by
      unfold checkedAdd at hadd
      split_ifs at hadd
      exact (Option.some.inj hadd).symm
    by_cases hlt : buf.length < stop
    · simp only [hlt, if_true]
      refine ⟨_, _, rfl, hin, ?_⟩
      rintro _ ⟨⟩
    · have hs := slice_eq (ε := Error) (σ := BodyReader) (show pos ≤ stop by omega) (not_lt.mp hlt)
      simp only [hlt, if_false, hs]
      refine ⟨_, _, rfl, not_lt.mp hlt, ?_⟩
      rintro _ ⟨⟩
      rw [List.length_drop, List.length_take]
      omega

theorem sound_u8 : Sound Inside u8 fun _ => True := by
  refine (sound_take 1).bind fun xs hxs => ?_
  rw [index_eq (by omega)]
  exact .pure trivial

theorem sound_u32 : Sound Inside u32 fun _ => True := by
  refine (sound_take 4).bind fun xs hxs => ?_
  have hi : ∀ i < 4, ∃ b, index (ε := Error) (σ := BodyReader) xs i = pure b :=
    fun i hi => ⟨_, index_eq (hxs ▸ hi)⟩
  obtain ⟨b₀, h₀⟩ := hi 0 (by decide)
  obtain ⟨b₁, h₁⟩ := hi 1 (by decide)
  obtain ⟨b₂, h₂⟩ := hi 2 (by decide)
  obtain ⟨b₃, h₃⟩ := hi 3 (by decide)
  rw [h₀, h₁, h₂, h₃]
  exact .pure trivial

theorem sound_takeArray (n : ℕ) : Sound Inside (takeArray n) fun _ => True := by
  refine (sound_take n).bind fun xs hxs => ?_
  rw [array, dif_pos hxs]
  exact .pure trivial

theorem sound_octetStr (n : ℕ) : Sound Inside (octetStr n) fun _ => True :=
  (sound_take n).bind fun _ _ => .pure trivial

theorem sound_remaining : Sound Inside remaining fun _ => True := by
  rintro ⟨buf, pos⟩ hin
  simp only [remaining, state_bind, if_pos (show pos ≤ buf.length from hin), pure_apply]
  exact ⟨_, _, rfl, hin, fun _ _ => trivial⟩

theorem sound_finish (pdu : String) : Sound Inside (finish pdu) fun _ => True := by
  rintro ⟨buf, pos⟩ hin
  by_cases h : pos = buf.length
  · simp only [finish, state_bind, h, ne_eq, not_true_eq_false, if_false, pure_apply]
    exact ⟨_, _, rfl, le_refl buf.length, fun _ _ => trivial⟩
  · simp only [finish, state_bind, ne_eq, h, not_false_eq_true, if_true]
    exact (sound_remaining.bind fun _ _ => Sound.fail _) _ hin

theorem run_uniform {σ : Type} (hm : Sound Inside m P) (body : List UInt8) :
    Uniform (run m body : Fallible Error σ α) := by
  obtain ⟨r, c, hr, _⟩ := hm (new body) (Nat.zero_le _)
  exact ⟨r, fun s => by simp only [run, hr, Option.map_some]⟩

end BodyReader

end CmppProtocol
