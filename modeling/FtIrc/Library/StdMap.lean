import Mathlib

/-!
# Ordered associative containers

`StdMap` is `std::map`: a list of entries strictly ascending in the key, so that iteration
follows the order of the list and each key has one entry. The order is a field of the type.
-/

namespace FtIrc

/-- A finite map kept in ascending key order. -/
structure StdMap (κ ν : Type*) [LinearOrder κ] where
  entries : List (κ × ν)
  sorted : entries.Pairwise fun a b => a.1 < b.1

namespace StdMap

variable {κ ν : Type*} [LinearOrder κ]

/-- The map without entries. -/
def empty : StdMap κ ν := ⟨[], List.Pairwise.nil⟩

/-- `find`: the value stored under `k`. -/
def find? (m : StdMap κ ν) (k : κ) : Option ν :=
  (m.entries.find? fun e => e.1 = k).map Prod.snd

/-- `count(k) != 0`. -/
def contains (m : StdMap κ ν) (k : κ) : Bool := (m.find? k).isSome

def keys (m : StdMap κ ν) : List κ := m.entries.map Prod.fst

def values (m : StdMap κ ν) : List ν := m.entries.map Prod.snd

/-- Put one entry in its place, replacing the entry of the same key. -/
def insertEntry (k : κ) (v : ν) : List (κ × ν) → List (κ × ν)
  | [] => [(k, v)]
  | e :: es =>
    if k < e.1 then (k, v) :: e :: es
    else if e.1 < k then e :: insertEntry k v es
    else (k, v) :: es

theorem mem_insertEntry_imp {k : κ} {v : ν} {a : κ × ν} {es : List (κ × ν)}
    (h : a ∈ insertEntry k v es) : a = (k, v) ∨ a ∈ es := by
  induction es with
  | nil => simpa [insertEntry] using h
  | cons e es ih =>
    simp only [insertEntry] at h
    split_ifs at h with h1 h2
    · simpa using h
    · rcases List.mem_cons.mp h with rfl | h
      · exact Or.inr List.mem_cons_self
      · exact (ih h).imp_right (List.mem_cons_of_mem _)
    · rcases List.mem_cons.mp h with rfl | h
      · exact Or.inl rfl
      · exact Or.inr (List.mem_cons_of_mem _ h)

theorem insertEntry_sorted (k : κ) (v : ν) {es : List (κ × ν)}
    (h : es.Pairwise fun a b => a.1 < b.1) :
    (insertEntry k v es).Pairwise fun a b => a.1 < b.1 := by
  induction es with
  | nil => simp [insertEntry]
  | cons e es ih =>
    have hhead := (List.pairwise_cons.mp h).1
    have htail := (List.pairwise_cons.mp h).2
    simp only [insertEntry]
    split_ifs with h1 h2
    · refine List.pairwise_cons.mpr ⟨?_, h⟩
      intro a ha
      rcases List.mem_cons.mp ha with rfl | ha
      · exact h1
      · exact h1.trans (hhead a ha)
    · refine List.pairwise_cons.mpr ⟨?_, ih htail⟩
      intro a ha
      rcases mem_insertEntry_imp ha with rfl | ha
      · exact h2
      · exact hhead a ha
    · have hk : k = e.1 := le_antisymm (not_lt.mp h2) (not_lt.mp h1)
      refine List.pairwise_cons.mpr ⟨?_, htail⟩
      intro a ha
      simpa [hk] using hhead a ha

/-- `m[k] = v`. -/
def insert (m : StdMap κ ν) (k : κ) (v : ν) : StdMap κ ν :=
  ⟨insertEntry k v m.entries, insertEntry_sorted k v m.sorted⟩

/-- `m.erase(k)`. -/
def erase (m : StdMap κ ν) (k : κ) : StdMap κ ν :=
  ⟨m.entries.filter fun e => e.1 ≠ k, m.sorted.sublist List.filter_sublist⟩

theorem entry_unique (m : StdMap κ ν) {a b : κ × ν} (ha : a ∈ m.entries) (hb : b ∈ m.entries)
    (hk : a.1 = b.1) : a = b := by
  obtain ⟨i, hi, rfl⟩ := List.mem_iff_getElem.mp ha
  obtain ⟨j, hj, rfl⟩ := List.mem_iff_getElem.mp hb
  have hpair := List.pairwise_iff_getElem.mp m.sorted
  rcases Nat.lt_trichotomy i j with hij | rfl | hij
  · exact absurd hk (hpair i j hi hj hij).ne
  · rfl
  · exact absurd hk.symm (hpair j i hj hi hij).ne

theorem find?_eq_some (m : StdMap κ ν) {k : κ} {v : ν} :
    m.find? k = some v ↔ (k, v) ∈ m.entries := by
  constructor
  · intro h
    obtain ⟨e, he, rfl⟩ := Option.map_eq_some_iff.mp h
    have hk : e.1 = k := by simpa using List.find?_some he
    subst hk
    exact List.mem_of_find?_eq_some he
  · intro h
    cases hf : m.entries.find? fun e => e.1 = k with
    | none =>
      have hne := List.find?_eq_none.mp hf (k, v) h
      simp at hne
    | some e =>
      have hk : e.1 = k := by simpa using List.find?_some hf
      have he : e = (k, v) := m.entry_unique (List.mem_of_find?_eq_some hf) h hk
      simp [find?, hf, he]

@[simp] theorem find?_empty (k : κ) : (empty : StdMap κ ν).find? k = none := rfl

theorem mem_insertEntry {k k' : κ} {v v' : ν} (es : List (κ × ν))
    (hs : es.Pairwise fun a b => a.1 < b.1) :
    (k', v') ∈ insertEntry k v es ↔ (k' = k ∧ v' = v) ∨ (k' ≠ k ∧ (k', v') ∈ es) := by
  induction es with
  | nil => simp [insertEntry]
  | cons e es ih =>
    have hhead := (List.pairwise_cons.mp hs).1
    have ih := ih (List.pairwise_cons.mp hs).2
    rw [insertEntry]
    split_ifs with h1 h2
    · -- the new entry is in front of all others
      have hne : (k', v') ∈ e :: es → k' ≠ k := by
        intro h
        rcases List.mem_cons.mp h with h | h
        · exact fun hk => h1.ne (by rw [← hk, ← h])
        · exact (h1.trans (hhead _ h)).ne'
      rw [List.mem_cons, Prod.mk.injEq]
      exact or_congr_right ⟨fun h => ⟨hne h, h⟩, fun h => h.2⟩
    · have hne : (k', v') = e → k' ≠ k := by
        rintro rfl
        exact h2.ne
      rw [List.mem_cons, ih, List.mem_cons]
      constructor
      · rintro (h | h | ⟨h, h'⟩)
        · exact .inr ⟨hne h, .inl h⟩
        · exact .inl h
        · exact .inr ⟨h, .inr h'⟩
      · rintro (h | ⟨h, h' | h'⟩)
        · exact .inr (.inl h)
        · exact .inl h'
        · exact .inr (.inr ⟨h, h'⟩)
    · -- the entry of the same key is replaced
      have hk : k = e.1 := le_antisymm (not_lt.mp h2) (not_lt.mp h1)
      have hne : (k', v') ∈ es → k' ≠ k := fun h => hk ▸ (hhead _ h).ne'
      rw [List.mem_cons, List.mem_cons, Prod.mk.injEq]
      constructor
      · rintro (h | h)
        · exact .inl h
        · exact .inr ⟨hne h, .inr h⟩
      · rintro (h | ⟨h, h' | h'⟩)
        · exact .inl h
        · exact absurd (by rw [hk, ← h']) h
        · exact .inr h'

theorem mem_insert (m : StdMap κ ν) {k k' : κ} {v v' : ν} :
    (k', v') ∈ (m.insert k v).entries ↔ (k' = k ∧ v' = v) ∨ (k' ≠ k ∧ (k', v') ∈ m.entries) :=
  mem_insertEntry m.entries m.sorted

theorem mem_erase (m : StdMap κ ν) {k : κ} {e : κ × ν} :
    e ∈ (m.erase k).entries ↔ e.1 ≠ k ∧ e ∈ m.entries := by
  simp [erase, and_comm]

theorem find?_insert (m : StdMap κ ν) (k k' : κ) (v : ν) :
    (m.insert k v).find? k' = if k' = k then some v else m.find? k' := by
  apply Option.ext
  intro w
  rw [find?_eq_some, mem_insert]
  split_ifs with h
  · simp [h, eq_comm]
  · simp [h, find?_eq_some]

theorem find?_erase (m : StdMap κ ν) (k k' : κ) :
    (m.erase k).find? k' = if k' = k then none else m.find? k' := by
  apply Option.ext
  intro w
  rw [find?_eq_some, mem_erase]
  split_ifs with h
  · simp [h]
  · simp [h, find?_eq_some]

@[simp] theorem find?_insert_self (m : StdMap κ ν) (k : κ) (v : ν) :
    (m.insert k v).find? k = some v := by
  simp [find?_insert]

@[simp] theorem find?_erase_self (m : StdMap κ ν) (k : κ) : (m.erase k).find? k = none := by
  simp [find?_erase]

theorem mem_values (m : StdMap κ ν) {v : ν} : v ∈ m.values ↔ ∃ k, m.find? k = some v := by
  simp [values, find?_eq_some]

theorem mem_keys (m : StdMap κ ν) {k : κ} : k ∈ m.keys ↔ ∃ v, m.find? k = some v := by
  simp [keys, find?_eq_some]

theorem keys_nodup (m : StdMap κ ν) : m.keys.Nodup := by
  rw [keys, List.Nodup, List.pairwise_map]
  exact m.sorted.imp fun hlt => hlt.ne

/-- Maps that agree on every key are equal: their entries are sorted in the same order. -/
theorem ext_find? {m m' : StdMap κ ν} (h : ∀ k, m.find? k = m'.find? k) : m = m' := by
  have hmem : ∀ e, e ∈ m.entries ↔ e ∈ m'.entries := by
    intro e
    rw [← m.find?_eq_some (k := e.1), ← m'.find?_eq_some (k := e.1), h]
  have hperm : m.entries.Perm m'.entries := by
    have hnd : ∀ n : StdMap κ ν, n.entries.Nodup :=
      fun n => n.sorted.imp fun hab he => hab.ne (congrArg Prod.fst he)
    exact (List.perm_ext_iff_of_nodup (hnd m) (hnd m')).mpr hmem
  have he : m.entries = m'.entries :=
    hperm.eq_of_pairwise (fun _ _ _ _ hab hba => absurd hab hba.asymm) m.sorted m'.sorted
  cases m
  cases m'
  cases he
  rfl

end StdMap
end FtIrc
