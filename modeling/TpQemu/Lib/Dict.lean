import Mathlib.Data.List.Nodup
import Mathlib.Data.List.Basic

/-!
# Insertion-ordered dictionaries

A dictionary is a list of entries whose keys are distinct. Assigning to a key
that is present replaces its value in place and keeps its position; assigning to
a new key appends an entry. Removal keeps the order of the remaining entries.
Iteration order is the order of `entries`, so it is observable.

The operations are described by what `get?` and `keys` return after them; later
proofs use these equations and never the list recursion.
-/

namespace TpQemu

universe u v w

/-- A finite map with distinct keys in insertion order. -/
structure Dict (κ : Type u) (ν : Type v) where
  entries : List (κ × ν)
  nodup : (entries.map Prod.fst).Nodup

namespace Dict

variable {κ : Type u} {ν : Type v}

/-- The dictionary display with no entries. -/
def empty : Dict κ ν := ⟨[], List.nodup_nil⟩

instance : EmptyCollection (Dict κ ν) := ⟨empty⟩

instance : Inhabited (Dict κ ν) := ⟨empty⟩

/-- The keys in iteration order. -/
def keys (d : Dict κ ν) : List κ := d.entries.map Prod.fst

@[ext] theorem ext {d e : Dict κ ν} (h : d.entries = e.entries) : d = e := by
  cases d
  cases e
  cases h
  rfl

theorem nodup_keys (d : Dict κ ν) : d.keys.Nodup := d.nodup

@[simp] theorem entries_empty : (∅ : Dict κ ν).entries = [] := rfl

@[simp] theorem keys_empty : (∅ : Dict κ ν).keys = [] := rfl

theorem mem_keys_of_mem {d : Dict κ ν} {k : κ} {v : ν} (h : (k, v) ∈ d.entries) :
    k ∈ d.keys := List.mem_map.mpr ⟨(k, v), h, rfl⟩

section Operations

variable [DecidableEq κ]

/-- `d.get(k)`: the value filed under the key, if there is one. -/
def get? (d : Dict κ ν) (k : κ) : Option ν := d.entries.lookup k

/-- Any lawful comparison of keys finds the value. -/
theorem lookup_entries [BEq κ] [LawfulBEq κ] (d : Dict κ ν) (k : κ) :
    d.entries.lookup k = d.get? k := by
  rw [get?]
  congr
  exact lawful_beq_subsingleton _ _

/-- The entry list after an assignment: replaced in place, or appended. -/
def setEntries (k : κ) (v : ν) : List (κ × ν) → List (κ × ν)
  | [] => [(k, v)]
  | e :: es => if e.1 = k then (k, v) :: es else e :: setEntries k v es

theorem keys_setEntries (k : κ) (v : ν) (es : List (κ × ν)) :
    (setEntries k v es).map Prod.fst =
      if k ∈ es.map Prod.fst then es.map Prod.fst else es.map Prod.fst ++ [k] := by
  induction es with
  | nil => simp [setEntries]
  | cons e es ih =>
      by_cases he : e.1 = k
      · simp [setEntries, he]
      · have hne : ¬k = e.1 := fun h => he h.symm
        by_cases hk : k ∈ es.map Prod.fst
        · simp only [setEntries, if_neg he, List.map_cons, ih, if_pos hk]
          rw [if_pos (List.mem_cons_of_mem _ hk)]
        · simp only [setEntries, if_neg he, List.map_cons, ih, if_neg hk]
          rw [if_neg (by simpa [hne] using hk), List.cons_append]

/-- `d[k] = v`. -/
def set (d : Dict κ ν) (k : κ) (v : ν) : Dict κ ν where
  entries := setEntries k v d.entries
  nodup := by
    rw [keys_setEntries]
    split
    · exact d.nodup
    · rename_i h
      refine List.nodup_append.mpr ⟨d.nodup, List.nodup_singleton k, ?_⟩
      rintro a ha b hb rfl
      exact h (List.mem_singleton.mp hb ▸ ha)

/-- `del d[k]`, also the dictionary left by `d.pop(k)`. -/
def erase (d : Dict κ ν) (k : κ) : Dict κ ν where
  entries := d.entries.filter (fun e => e.1 ≠ k)
  nodup := d.nodup.sublist ((List.filter_sublist).map Prod.fst)

theorem keys_set (d : Dict κ ν) (k : κ) (v : ν) :
    (d.set k v).keys = if k ∈ d.keys then d.keys else d.keys ++ [k] :=
  keys_setEntries k v d.entries

@[simp] theorem mem_keys_set {d : Dict κ ν} {k k' : κ} {v : ν} :
    k' ∈ (d.set k v).keys ↔ k' = k ∨ k' ∈ d.keys := by
  rw [keys_set]
  split
  · rename_i h
    constructor
    · exact Or.inr
    · rintro (rfl | h')
      · exact h
      · exact h'
  · rw [List.mem_append, List.mem_singleton, or_comm]

theorem setEntries_of_notMem {k : κ} (v : ν) {es : List (κ × ν)} (h : k ∉ es.map Prod.fst) :
    setEntries k v es = es ++ [(k, v)] := by
  induction es with
  | nil => rfl
  | cons e es ih =>
      obtain ⟨hne, hes⟩ := not_or.mp (mt List.mem_cons.mpr h)
      rw [setEntries, if_neg (Ne.symm hne), ih hes, List.cons_append]

/-- A new key is appended. -/
theorem entries_set_of_notMem {d : Dict κ ν} {k : κ} {v : ν} (h : k ∉ d.keys) :
    (d.set k v).entries = d.entries ++ [(k, v)] := setEntries_of_notMem v h

@[simp] theorem get?_empty (k : κ) : (∅ : Dict κ ν).get? k = none := rfl

private theorem lookup_setEntries_self (k : κ) (v : ν) (es : List (κ × ν)) :
    (setEntries k v es).lookup k = some v := by
  induction es with
  | nil => simp [setEntries]
  | cons e es ih =>
      obtain ⟨k₀, v₀⟩ := e
      by_cases hk : k₀ = k
      · simp [setEntries, hk]
      · have hne : (k == k₀) = false := by simpa using fun h : k = k₀ => hk h.symm
        simp only [setEntries, if_neg hk, List.lookup_cons, hne, ih]

private theorem lookup_setEntries_ne {k k' : κ} (h : k' ≠ k) (v : ν) (es : List (κ × ν)) :
    (setEntries k v es).lookup k' = es.lookup k' := by
  have hne : (k' == k) = false := by simpa using h
  induction es with
  | nil => simp [setEntries, List.lookup_cons, hne]
  | cons e es ih =>
      obtain ⟨k₀, v₀⟩ := e
      by_cases hk : k₀ = k
      · rw [setEntries, if_pos hk, List.lookup_cons, List.lookup_cons, hk, hne]
      · simp only [setEntries, if_neg hk, List.lookup_cons, ih]

@[simp] theorem get?_set_self (d : Dict κ ν) (k : κ) (v : ν) :
    (d.set k v).get? k = some v := lookup_setEntries_self k v d.entries

theorem get?_set_ne (d : Dict κ ν) {k k' : κ} (h : k' ≠ k) (v : ν) :
    (d.set k v).get? k' = d.get? k' := lookup_setEntries_ne h v d.entries

/-- Assignment as a function update. -/
theorem get?_set (d : Dict κ ν) (k k' : κ) (v : ν) :
    (d.set k v).get? k' = if k' = k then some v else d.get? k' := by
  split
  · rename_i h
    rw [h, get?_set_self]
  · rename_i h
    exact get?_set_ne d h v

/-- What a key holds after an assignment is the new value or an old one. -/
theorem get?_set_cases {d : Dict κ ν} {k k' : κ} {v w : ν} (h : (d.set k v).get? k' = some w) :
    (k' = k ∧ w = v) ∨ (k' ≠ k ∧ d.get? k' = some w) := by
  by_cases hk : k' = k
  · rw [hk, get?_set_self] at h
    exact .inl ⟨hk, (Option.some.inj h).symm⟩
  · rw [get?_set_ne d hk] at h
    exact .inr ⟨hk, h⟩

private theorem lookup_eq_some_iff {es : List (κ × ν)} (nodup : (es.map Prod.fst).Nodup)
    {k : κ} {v : ν} : es.lookup k = some v ↔ (k, v) ∈ es := by
  induction es with
  | nil => simp
  | cons e es ih =>
      obtain ⟨k₀, v₀⟩ := e
      rw [List.map_cons, List.nodup_cons] at nodup
      by_cases hk : k = k₀
      · subst hk
        have absent : (k, v) ∉ es := fun h => nodup.1 (List.mem_map.mpr ⟨(k, v), h, rfl⟩)
        simp [absent, eq_comm]
      · have hb : (k == k₀) = false := by simpa using hk
        simp only [List.lookup_cons, hb, ih nodup.2, List.mem_cons, Prod.mk.injEq, hk, false_and,
          false_or]

theorem get?_eq_some_iff {d : Dict κ ν} {k : κ} {v : ν} :
    d.get? k = some v ↔ (k, v) ∈ d.entries := lookup_eq_some_iff d.nodup

/-- An entry after an assignment is the new one or an old one. -/
theorem mem_entries_set {d : Dict κ ν} {k : κ} {v : ν} {e : κ × ν}
    (h : e ∈ (d.set k v).entries) : e = (k, v) ∨ e ∈ d.entries := by
  rcases get?_set_cases (get?_eq_some_iff.mpr h) with ⟨hk, hv⟩ | ⟨-, hget⟩
  · exact .inl (Prod.ext hk hv)
  · exact .inr (get?_eq_some_iff.mp hget)

theorem mem_keys_iff {d : Dict κ ν} {k : κ} : k ∈ d.keys ↔ ∃ v, d.get? k = some v := by
  constructor
  · intro h
    obtain ⟨⟨k', v⟩, hm, rfl⟩ := List.mem_map.mp h
    exact ⟨v, get?_eq_some_iff.mpr hm⟩
  · rintro ⟨v, h⟩
    exact mem_keys_of_mem (get?_eq_some_iff.mp h)

theorem get?_eq_none_iff {d : Dict κ ν} {k : κ} : d.get? k = none ↔ k ∉ d.keys := by
  rw [mem_keys_iff, not_exists, Option.eq_none_iff_forall_ne_some]

theorem get?_erase_self (d : Dict κ ν) (k : κ) : (d.erase k).get? k = none := by
  rw [get?_eq_none_iff]
  intro h
  obtain ⟨e, he, hk⟩ := List.mem_map.mp h
  have hne := (List.mem_filter.mp he).2
  simp [hk] at hne

theorem get?_erase_ne (d : Dict κ ν) {k k' : κ} (h : k' ≠ k) :
    (d.erase k).get? k' = d.get? k' := by
  ext v
  rw [get?_eq_some_iff, get?_eq_some_iff]
  simp [erase, h]

theorem mem_keys_erase {d : Dict κ ν} {k k' : κ} :
    k' ∈ (d.erase k).keys ↔ k' ≠ k ∧ k' ∈ d.keys := by
  simp [keys, erase, and_comm]

theorem length_keys_erase_add_one {d : Dict κ ν} {k : κ} (h : k ∈ d.keys) :
    (d.erase k).keys.length + 1 = d.keys.length := by
  have hperm : (k :: (d.erase k).keys).Perm d.keys := by
    refine (List.perm_ext_iff_of_nodup (List.nodup_cons.mpr ⟨?_, nodup_keys _⟩) d.nodup_keys).mpr ?_
    · intro hmem
      exact (mem_keys_erase.mp hmem).1 rfl
    · intro k'
      rw [List.mem_cons, mem_keys_erase]
      by_cases hk : k' = k
      · simp [hk, h]
      · simp [hk]
  exact hperm.length_eq

theorem length_keys_erase_lt {d : Dict κ ν} {k : κ} (h : k ∈ d.keys) :
    (d.erase k).keys.length < d.keys.length := by
  have hlength := length_keys_erase_add_one h
  omega

/-- `d.update(e)` -/
def update (d e : Dict κ ν) : Dict κ ν := e.entries.foldl (fun d p => d.set p.1 p.2) d

private theorem get?_foldl_set (d : Dict κ ν) {es : List (κ × ν)}
    (nodup : (es.map Prod.fst).Nodup) (k : κ) :
    (es.foldl (fun d p => d.set p.1 p.2) d).get? k = (es.lookup k).or (d.get? k) := by
  induction es generalizing d with
  | nil => rfl
  | cons e es ih =>
      obtain ⟨k₀, v₀⟩ := e
      rw [List.map_cons, List.nodup_cons] at nodup
      rw [List.foldl_cons, ih _ nodup.2, get?_set, List.lookup_cons]
      by_cases hk : k = k₀
      · have habsent : es.lookup k = none := by
          rw [List.lookup_eq_none_iff]
          rintro ⟨k', v'⟩ hmem
          have hne : k ≠ k' := by
            rintro rfl
            exact nodup.1 (hk ▸ List.mem_map.mpr ⟨(k, v'), hmem, rfl⟩)
          simpa using hne
        rw [habsent, if_pos hk]
        simp [hk]
      · have hb : (k == k₀) = false := by simpa using hk
        rw [if_neg hk, hb]

/-- The entries of the second dictionary replace those of the first. -/
theorem get?_update (d e : Dict κ ν) (k : κ) :
    (d.update e).get? k = (e.get? k).or (d.get? k) := get?_foldl_set d e.nodup k

end Operations

section Map

variable {μ : Type w}

/-- The dictionary with each value mapped. -/
def map (f : ν → μ) (d : Dict κ ν) : Dict κ μ where
  entries := d.entries.map fun e => (e.1, f e.2)
  nodup := by
    rw [List.map_map]
    exact d.nodup

theorem keys_map (f : ν → μ) (d : Dict κ ν) : (d.map f).keys = d.keys := by
  rw [keys, map, List.map_map]
  rfl

theorem map_congr {f g : ν → μ} {d : Dict κ ν} (h : ∀ e ∈ d.entries, f e.2 = g e.2) :
    d.map f = d.map g := by
  apply ext
  exact List.map_congr_left fun e he => by rw [h e he]

variable [DecidableEq κ]

theorem get?_map (f : ν → μ) (d : Dict κ ν) (k : κ) : (d.map f).get? k = (d.get? k).map f := by
  change (d.entries.map _).lookup k = (d.entries.lookup k).map f
  induction d.entries with
  | nil => rfl
  | cons e es ih =>
      rw [List.map_cons, List.lookup_cons, List.lookup_cons, ih]
      cases k == e.1 <;> rfl

theorem map_set (f : ν → μ) (d : Dict κ ν) (k : κ) (v : ν) :
    (d.set k v).map f = (d.map f).set k (f v) := by
  apply ext
  change (setEntries k v d.entries).map _ = setEntries k (f v) (d.entries.map _)
  induction d.entries with
  | nil => rfl
  | cons e es ih =>
      rw [List.map_cons, setEntries, setEntries]
      split
      · rfl
      · rw [List.map_cons, ih]

end Map

end Dict

end TpQemu
