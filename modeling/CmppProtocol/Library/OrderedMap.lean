import Mathlib.Data.List.Nodup
import Mathlib.Order.Lattice

/-! # Ordered maps

A finite map with ordered keys, kept as the list of its entries in strictly
increasing key order. The neighbour queries return the last entry at or below a
key and the first entry at or above it, as the cursors of a search tree do.
-/

/-- A finite map whose entries are listed in strictly increasing key order. -/
structure OrderedMap (κ ν : Type*) [LinearOrder κ] where
  entries : List (κ × ν)
  sorted : entries.Pairwise (fun p q => p.1 < q.1)

namespace OrderedMap

variable {κ ν : Type*} [LinearOrder κ] {m : OrderedMap κ ν} {k : κ} {v : ν} {p q : κ × ν}

instance : Membership (κ × ν) (OrderedMap κ ν) := ⟨fun m p => p ∈ m.entries⟩

instance (m : OrderedMap κ ν) [DecidableEq ν] (p : κ × ν) : Decidable (p ∈ m) :=
  inferInstanceAs (Decidable (p ∈ m.entries))

theorem mem_def : p ∈ m ↔ p ∈ m.entries := Iff.rfl

def empty : OrderedMap κ ν := ⟨[], .nil⟩

def size (m : OrderedMap κ ν) : ℕ := m.entries.length

/-- The last entry whose key is at most `k`. -/
def floor (m : OrderedMap κ ν) (k : κ) : Option (κ × ν) :=
  (m.entries.filter (fun p => p.1 ≤ k)).getLast?

/-- The first entry whose key is at least `k`. -/
def ceil (m : OrderedMap κ ν) (k : κ) : Option (κ × ν) :=
  (m.entries.filter (fun p => k ≤ p.1)).head?

def erase (m : OrderedMap κ ν) (k : κ) : OrderedMap κ ν :=
  ⟨m.entries.filter (fun p => p.1 ≠ k), m.sorted.filter _⟩

theorem insert_sorted (m : OrderedMap κ ν) (k : κ) (v : ν) :
    (m.entries.filter (fun p => p.1 < k) ++ (k, v) :: m.entries.filter (fun p => k < p.1)).Pairwise
      (fun p q => p.1 < q.1) := by
  refine List.pairwise_append.mpr
    ⟨m.sorted.filter _, List.pairwise_cons.mpr ⟨?_, m.sorted.filter _⟩, ?_⟩
  · intro p hp
    simpa using (List.mem_filter.mp hp).2
  · intro p hp q hq
    have hpk : p.1 < k := by simpa using (List.mem_filter.mp hp).2
    rcases List.mem_cons.mp hq with rfl | hq
    · exact hpk
    · exact hpk.trans (by simpa using (List.mem_filter.mp hq).2)

/-- Bind `k` to `v`, replacing the binding that is there. -/
def insert (m : OrderedMap κ ν) (k : κ) (v : ν) : OrderedMap κ ν :=
  ⟨m.entries.filter (fun p => p.1 < k) ++ (k, v) :: m.entries.filter (fun p => k < p.1),
    m.insert_sorted k v⟩

theorem modify_sorted (m : OrderedMap κ ν) (k : κ) (v : ν) :
    (m.entries.map (fun p => if p.1 = k then (p.1, v) else p)).Pairwise
      (fun p q => p.1 < q.1) := by
  refine List.pairwise_map.mpr (m.sorted.imp ?_)
  intro p q h
  split_ifs <;> exact h

/-- Overwrite the value at `k` when the key is present. -/
def set (m : OrderedMap κ ν) (k : κ) (v : ν) : OrderedMap κ ν :=
  ⟨m.entries.map (fun p => if p.1 = k then (p.1, v) else p), m.modify_sorted k v⟩

@[simp] theorem not_mem_empty : p ∉ (empty : OrderedMap κ ν) := List.not_mem_nil

@[simp] theorem size_empty : (empty : OrderedMap κ ν).size = 0 := rfl

@[simp] theorem mem_erase : p ∈ m.erase k ↔ p ∈ m ∧ p.1 ≠ k := by
  simp [mem_def, erase]

@[simp] theorem mem_insert : p ∈ m.insert k v ↔ p = (k, v) ∨ p ∈ m ∧ p.1 ≠ k := by
  simp only [mem_def, insert, List.mem_append, List.mem_cons, List.mem_filter, decide_eq_true_eq]
  constructor
  · rintro (⟨hp, hk⟩ | h | ⟨hp, hk⟩)
    · exact Or.inr ⟨hp, hk.ne⟩
    · exact Or.inl h
    · exact Or.inr ⟨hp, hk.ne'⟩
  · rintro (h | ⟨hp, hk⟩)
    · exact Or.inr (Or.inl h)
    · rcases lt_or_gt_of_ne hk with hk | hk
      · exact Or.inl ⟨hp, hk⟩
      · exact Or.inr (Or.inr ⟨hp, hk⟩)

theorem keys_nodup (m : OrderedMap κ ν) : (m.entries.map Prod.fst).Nodup :=
  List.pairwise_map.mpr (m.sorted.imp fun h => h.ne)

theorem key_injective (hp : p ∈ m) (hq : q ∈ m) (h : p.1 = q.1) : p = q :=
  List.inj_on_of_nodup_map m.keys_nodup hp hq h

theorem floor_some (h : m.floor k = some p) :
    p ∈ m ∧ p.1 ≤ k ∧ ∀ q ∈ m, q.1 ≤ k → q.1 ≤ p.1 := by
  obtain ⟨init, hl⟩ := List.getLast?_eq_some_iff.mp h
  have hsorted : (m.entries.filter (fun p => p.1 ≤ k)).Pairwise (fun p q => p.1 < q.1) :=
    m.sorted.filter _
  have hp : p ∈ m.entries.filter (fun p => p.1 ≤ k) := by simp [hl]
  refine ⟨(List.mem_filter.mp hp).1, by simpa using (List.mem_filter.mp hp).2, ?_⟩
  intro q hq hqk
  have hq' : q ∈ m.entries.filter (fun p => p.1 ≤ k) :=
    List.mem_filter.mpr ⟨hq, by simpa using hqk⟩
  rw [hl] at hq' hsorted
  rcases List.mem_append.mp hq' with hi | hi
  · exact ((List.pairwise_append.mp hsorted).2.2 q hi p (by simp)).le
  · rw [List.mem_singleton.mp hi]

theorem floor_none (h : m.floor k = none) : ∀ q ∈ m, k < q.1 := by
  intro q hq
  have he := List.filter_eq_nil_iff.mp (List.getLast?_eq_none_iff.mp h) q hq
  simpa using he

theorem floor_eq_some_iff :
    m.floor k = some p ↔ p ∈ m ∧ p.1 ≤ k ∧ ∀ q ∈ m, q.1 ≤ k → q.1 ≤ p.1 := by
  constructor
  · exact floor_some
  · rintro ⟨hp, hpk, hmax⟩
    cases hf : m.floor k with
    | none => exact absurd (floor_none hf p hp) (not_lt.mpr hpk)
    | some q =>
      obtain ⟨hq, hqk, hqmax⟩ := floor_some hf
      rw [key_injective hp hq (le_antisymm (hqmax p hp hpk) (hmax q hq hqk))]

theorem ceil_some (h : m.ceil k = some p) :
    p ∈ m ∧ k ≤ p.1 ∧ ∀ q ∈ m, k ≤ q.1 → p.1 ≤ q.1 := by
  obtain ⟨rest, hl⟩ := List.head?_eq_some_iff.mp h
  have hsorted : (m.entries.filter (fun p => k ≤ p.1)).Pairwise (fun p q => p.1 < q.1) :=
    m.sorted.filter _
  have hp : p ∈ m.entries.filter (fun p => k ≤ p.1) := by simp [hl]
  refine ⟨(List.mem_filter.mp hp).1, by simpa using (List.mem_filter.mp hp).2, ?_⟩
  intro q hq hqk
  have hq' : q ∈ m.entries.filter (fun p => k ≤ p.1) :=
    List.mem_filter.mpr ⟨hq, by simpa using hqk⟩
  rw [hl] at hq' hsorted
  rcases List.mem_cons.mp hq' with rfl | hi
  · exact le_rfl
  · exact ((List.pairwise_cons.mp hsorted).1 q hi).le

theorem ceil_none (h : m.ceil k = none) : ∀ q ∈ m, q.1 < k := by
  intro q hq
  have he := List.filter_eq_nil_iff.mp (List.head?_eq_none_iff.mp h) q hq
  simpa using he

@[simp] theorem mem_set (h : ∃ w, (k, w) ∈ m) :
    p ∈ m.set k v ↔ p = (k, v) ∨ p ∈ m ∧ p.1 ≠ k := by
  obtain ⟨w, hw⟩ := h
  simp only [mem_def, set, List.mem_map]
  constructor
  · rintro ⟨q, hq, rfl⟩
    split_ifs with hk
    · exact Or.inl (by rw [hk])
    · exact Or.inr ⟨hq, hk⟩
  · rintro (rfl | ⟨hp, hk⟩)
    · exact ⟨(k, w), hw, by simp⟩
    · exact ⟨p, hp, by simp [hk]⟩

@[simp] theorem size_set : (m.set k v).size = m.size := by simp [size, set]

theorem erase_set {a : κ} (h : a ≠ k) : (m.set a v).erase k = (m.erase k).set a v := by
  simp only [erase, set, List.filter_map, OrderedMap.mk.injEq]
  congr 1
  refine List.filter_congr fun p _ => ?_
  by_cases hp : p.1 = a <;> simp [hp, h]

theorem size_erase_le : (m.erase k).size ≤ m.size := List.length_filter_le _ _

theorem size_erase_lt (h : (k, v) ∈ m) : (m.erase k).size < m.size :=
  List.length_filter_lt_length_iff_exists.mpr ⟨(k, v), h, by simp⟩

theorem size_insert_le : (m.insert k v).size ≤ m.size + 1 := by
  have hsplit := List.length_eq_length_filter_add (l := m.entries) (fun p => p.1 < k)
  have hle : (m.entries.filter (fun p => k < p.1)).length ≤
      (m.entries.filter (fun p => !decide (p.1 < k))).length := by
    rw [← List.countP_eq_length_filter, ← List.countP_eq_length_filter]
    refine List.countP_mono_left fun p _ hp => ?_
    simpa using (of_decide_eq_true hp).le
  simp only [size, insert, List.length_append, List.length_cons]
  omega

/-- Maps with the same entries are equal. -/
theorem ext_of_mem {m' : OrderedMap κ ν} (h : ∀ p, p ∈ m ↔ p ∈ m') : m = m' := by
  have hperm : m.entries.Perm m'.entries := (List.perm_ext_iff_of_nodup
    (List.Nodup.of_map _ m.keys_nodup) (List.Nodup.of_map _ m'.keys_nodup)).mpr h
  have heq := hperm.eq_of_pairwise (fun a b _ _ hab hba => absurd (hab.trans hba) (lt_irrefl _))
    m.sorted m'.sorted
  cases m
  cases m'
  simpa using heq

/-! ## Lookup -/

/-- The value bound to a key. -/
def find (m : OrderedMap κ ν) (k : κ) : Option ν :=
  (m.entries.find? (fun p => p.1 = k)).map Prod.snd

theorem find_eq_some_iff : m.find k = some v ↔ (k, v) ∈ m := by
  constructor
  · intro h
    obtain ⟨p, hp, rfl⟩ := Option.map_eq_some_iff.mp h
    have hk : p.1 = k := by simpa using List.find?_some hp
    exact hk ▸ List.mem_of_find?_eq_some hp
  · intro h
    cases hf : m.entries.find? (fun p => p.1 = k) with
    | none =>
      have hne := List.find?_eq_none.mp hf (k, v) h
      simp at hne
    | some p =>
      have hk : p.1 = k := by simpa using List.find?_some hf
      have hp : p = (k, v) := key_injective (List.mem_of_find?_eq_some hf) h hk
      rw [find, hf, hp]
      rfl

theorem find_eq_none_iff : m.find k = none ↔ ∀ v, (k, v) ∉ m := by
  rw [Option.eq_none_iff_forall_ne_some]
  exact forall_congr' fun v => not_congr find_eq_some_iff

@[simp] theorem find_empty : (empty : OrderedMap κ ν).find k = none := rfl

theorem find_insert {a : κ} : (m.insert k v).find a = if a = k then some v else m.find a := by
  apply Option.ext
  intro w
  rw [find_eq_some_iff, mem_insert]
  split_ifs with h
  · subst h
    simp [eq_comm]
  · simp [find_eq_some_iff, h]

theorem find_erase {a : κ} : (m.erase k).find a = if a = k then none else m.find a := by
  apply Option.ext
  intro w
  rw [find_eq_some_iff, mem_erase]
  split_ifs with h
  · simp [h]
  · simp [find_eq_some_iff, h]

theorem find_set {a : κ} (h : m.find k ≠ none) :
    (m.set k v).find a = if a = k then some v else m.find a := by
  obtain ⟨w, hw⟩ := Option.ne_none_iff_exists'.mp h
  apply Option.ext
  intro u
  rw [find_eq_some_iff, mem_set ⟨w, find_eq_some_iff.mp hw⟩]
  split_ifs with hk
  · subst hk
    simp [eq_comm]
  · simp [find_eq_some_iff, hk]

theorem erase_of_find_none (h : m.find k = none) : m.erase k = m := by
  have hne : ∀ p ∈ m.entries, p.1 ≠ k := fun p hp hk =>
    find_eq_none_iff.mp h p.2 (hk ▸ hp)
  have hfilter : m.entries.filter (fun p => p.1 ≠ k) = m.entries :=
    List.filter_eq_self.mpr fun p hp => decide_eq_true (hne p hp)
  cases m
  simpa only [erase, OrderedMap.mk.injEq] using hfilter

theorem size_erase_of_find (h : m.find k = some v) : (m.erase k).size + 1 = m.size := by
  have hmem := find_eq_some_iff.mp h
  have hcount : m.entries.countP (fun p => p.1 = k) = 1 := by
    have hnodup := m.keys_nodup
    have hone := List.count_eq_one_of_mem hnodup (List.mem_map_of_mem hmem)
    rw [List.count, List.countP_map] at hone
    rw [← hone]
    congr 1
  have hlen := List.length_eq_countP_add_countP (fun p : κ × ν => decide (p.1 = k)) (l := m.entries)
  rw [hcount] at hlen
  rw [size, size, erase, hlen, Nat.add_comm, ← List.countP_eq_length_filter]
  congr 2
  funext p
  simp

theorem size_insert_of_find_none (h : m.find k = none) : (m.insert k v).size = m.size + 1 := by
  have hfind : (m.insert k v).find k = some v := by rw [find_insert, if_pos rfl]
  have herase : (m.insert k v).erase k = m := by
    have hext : ∀ p, p ∈ (m.insert k v).erase k ↔ p ∈ m := by
      intro p
      rw [mem_erase, mem_insert]
      constructor
      · rintro ⟨rfl | hp, hne⟩
        · exact absurd rfl hne
        · exact hp.1
      · intro hp
        have hne : p.1 ≠ k := fun hk => find_eq_none_iff.mp h p.2 (hk ▸ hp)
        exact ⟨Or.inr ⟨hp, hne⟩, hne⟩
    exact ext_of_mem hext
  rw [← size_erase_of_find hfind, herase]

theorem entries_nodup (m : OrderedMap κ ν) : m.entries.Nodup := List.Nodup.of_map _ m.keys_nodup

/-- The keys of some entries. -/
theorem filterMap_keys_nodup {f : κ × ν → Option κ} (hf : ∀ p k, f p = some k → k = p.1) :
    (m.entries.filterMap f).Nodup := by
  have hsub : ∀ entries : List (κ × ν), (entries.filterMap f).Sublist (entries.map Prod.fst) := by
    intro entries
    induction entries with
    | nil => exact .slnil
    | cons p entries ih =>
      rw [List.map_cons]
      cases hp : f p with
      | none =>
        rw [List.filterMap_cons_none hp]
        exact ih.cons _
      | some k =>
        rw [List.filterMap_cons_some hp, hf p k hp]
        exact ih.cons_cons _
  exact m.keys_nodup.sublist (hsub _)

/-! ## Entries up to their order -/

theorem insert_perm (h : m.find k = none) :
    (m.insert k v).entries.Perm ((k, v) :: m.entries) := by
  have hk : (k, v) ∉ m.entries := find_eq_none_iff.mp h v
  apply (List.perm_ext_iff_of_nodup (entries_nodup _) (m.entries_nodup.cons hk)).mpr
  intro p
  rw [← mem_def, mem_insert, List.mem_cons, mem_def]
  constructor
  · rintro (rfl | hp)
    · exact Or.inl rfl
    · exact Or.inr hp.1
  · rintro (rfl | hp)
    · exact Or.inl rfl
    · exact Or.inr ⟨hp, fun hk => find_eq_none_iff.mp h p.2 (hk ▸ hp)⟩

theorem erase_perm (h : m.find k = some v) :
    m.entries.Perm ((k, v) :: (m.erase k).entries) := by
  have hmem := find_eq_some_iff.mp h
  have hk : (k, v) ∉ (m.erase k).entries := fun hp => (mem_erase.mp hp).2 rfl
  apply (List.perm_ext_iff_of_nodup m.entries_nodup ((entries_nodup _).cons hk)).mpr
  intro p
  rw [List.mem_cons, ← mem_def, ← mem_def, mem_erase]
  constructor
  · intro hp
    by_cases hpk : p.1 = k
    · exact Or.inl (key_injective hp hmem hpk)
    · exact Or.inr ⟨hp, hpk⟩
  · rintro (rfl | hp)
    · exact hmem
    · exact hp.1

/-- A new value that looks like the old one changes no list of views. -/
theorem map_entries_set {β : Type*} {w : ν} {f : κ × ν → β} (h : m.find k = some w)
    (hf : f (k, v) = f (k, w)) : (m.set k v).entries.map f = m.entries.map f := by
  rw [set, List.map_map]
  apply List.map_congr_left
  intro p hp
  simp only [Function.comp_apply]
  split_ifs with hk
  · rw [key_injective hp (find_eq_some_iff.mp h) hk]
    exact hf
  · rfl

/-- Maps with the same keys and the same views of their values list the same views. -/
theorem map_entries_congr {β : Type*} {m' : OrderedMap κ ν} {f : κ × ν → β}
    (hto : ∀ p ∈ m, ∃ q ∈ m', q.1 = p.1) (hfrom : ∀ q ∈ m', ∃ p ∈ m, p.1 = q.1 ∧ f p = f q) :
    m.entries.map f = m'.entries.map f := by
  have hkeys : m.entries.map Prod.fst = m'.entries.map Prod.fst := by
    apply List.Perm.eq_of_pairwise
      (fun a b _ _ (hab : a < b) hba => absurd (hab.trans hba) (lt_irrefl _))
      (List.pairwise_map.mpr m.sorted) (List.pairwise_map.mpr m'.sorted)
    apply (List.perm_ext_iff_of_nodup m.keys_nodup m'.keys_nodup).mpr
    intro k
    rw [List.mem_map, List.mem_map]
    constructor
    · rintro ⟨p, hp, rfl⟩
      obtain ⟨q, hq, hk⟩ := hto p hp
      exact ⟨q, hq, hk⟩
    · rintro ⟨q, hq, rfl⟩
      obtain ⟨p, hp, hk, _⟩ := hfrom q hq
      exact ⟨p, hp, hk⟩
  apply List.ext_getElem (by simpa using congrArg List.length hkeys)
  intro i hi hi'
  rw [List.length_map] at hi hi'
  have hkey : m.entries[i].1 = m'.entries[i].1 := by
    have hget := congrArg (fun l => l[i]?) hkeys
    simpa [hi, hi'] using hget
  obtain ⟨p, hp, hk, hf⟩ := hfrom _ (List.getElem_mem hi')
  rw [List.getElem_map, List.getElem_map, ← hf,
    key_injective hp (List.getElem_mem hi) (hk.trans hkey.symm)]

/-- A map whose entries look like entries of the old one leaves out the others. -/
theorem removed_perm {β : Type*} {m' : OrderedMap κ ν} {f : κ × ν → β}
    (hfrom : ∀ q ∈ m', ∃ p ∈ m, p.1 = q.1 ∧ f p = f q) :
    (m.entries.map f).Perm
      ((m.entries.filter fun p => (m'.find p.1).isNone).map f ++ m'.entries.map f) := by
  let kept : OrderedMap κ ν :=
    ⟨m.entries.filter fun p => !(m'.find p.1).isNone, m.sorted.filter _⟩
  have hkept : kept.entries.map f = m'.entries.map f := by
    apply map_entries_congr
    · intro p hp
      obtain ⟨q, hq⟩ : ∃ q, m'.find p.1 = some q := by
        simpa [Option.isSome_iff_exists] using (List.mem_filter.mp hp).2
      exact ⟨(p.1, q), find_eq_some_iff.mp hq, rfl⟩
    · intro q hq
      obtain ⟨p, hp, hk, hf⟩ := hfrom q hq
      have hfind : m'.find p.1 = some q.2 := find_eq_some_iff.mpr (hk ▸ hq)
      exact ⟨p, List.mem_filter.mpr ⟨hp, by simp [hfind]⟩, hk, hf⟩
  rw [← hkept, ← List.map_append]
  exact (List.filter_append_perm _ m.entries).symm.map f

end OrderedMap
