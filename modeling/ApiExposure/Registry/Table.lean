/-!
# Tables in insertion order

A table holds one value for each of its keys and lists them in the order in
which the keys were first inserted. Inserting under a key that is there
replaces the value in place; removing a key keeps the order of the rest.
-/

namespace ApiExposure

/-- Values under distinct keys, in insertion order. -/
structure Table (κ ν : Type) where
  /-- Keys with their values. -/
  entries : List (κ × ν)
  /-- No key comes twice. -/
  distinct : (entries.map (·.1)).Nodup

namespace Table

variable {κ ν : Type}

/-- The table without entries. -/
def empty : Table κ ν := ⟨[], .nil⟩

instance : Inhabited (Table κ ν) := ⟨empty⟩

/-- Keys in order. -/
def keys (t : Table κ ν) : List κ := t.entries.map (·.1)

/-- Values in order. -/
def values (t : Table κ ν) : List ν := t.entries.map (·.2)

/-- Number of entries. -/
def size (t : Table κ ν) : Nat := t.entries.length

/-- Tables with the same entries are equal. -/
theorem ext {s t : Table κ ν} (h : s.entries = t.entries) : s = t := by
  cases s; cases t; cases h; rfl

variable [DecidableEq κ]

/-- The value under a key in a list of entries. -/
def lookup (key : κ) : List (κ × ν) → Option ν
  | [] => none
  | (k, v) :: rest => if k = key then some v else lookup key rest

/-- The value under a key. -/
def get? (t : Table κ ν) (key : κ) : Option ν := lookup key t.entries

/-- Whether a key is there. -/
def contains (t : Table κ ν) (key : κ) : Bool := (t.get? key).isSome

/-- Entries with a key set to a value, in place or at the end. -/
def put (key : κ) (value : ν) : List (κ × ν) → List (κ × ν)
  | [] => [(key, value)]
  | (k, v) :: rest => if k = key then (key, value) :: rest else (k, v) :: put key value rest

/-- Putting a value in adds its key. -/
theorem mem_keys_put {key k : κ} {value : ν} {l : List (κ × ν)} :
    k ∈ (put key value l).map (·.1) ↔ k = key ∨ k ∈ l.map (·.1) := by
  induction l with
  | nil => simp [put]
  | cons e rest ih =>
    obtain ⟨k', v'⟩ := e
    by_cases h : k' = key
    · subst h; simp [put]
    · simp only [put, h, if_false, List.map_cons, List.mem_cons, ih]
      constructor
      · rintro (rfl | rfl | hk)
        · exact Or.inr (Or.inl rfl)
        · exact Or.inl rfl
        · exact Or.inr (Or.inr hk)
      · rintro (rfl | rfl | hk)
        · exact Or.inr (Or.inl rfl)
        · exact Or.inl rfl
        · exact Or.inr (Or.inr hk)

/-- Putting a value in repeats no key. -/
theorem nodup_put {key : κ} {value : ν} {l : List (κ × ν)} (h : (l.map (·.1)).Nodup) :
    ((put key value l).map (·.1)).Nodup := by
  induction l with
  | nil => simp [put]
  | cons e rest ih =>
    obtain ⟨k, v⟩ := e
    simp only [List.map_cons, List.nodup_cons] at h
    by_cases hk : k = key
    · subst hk
      simpa [put] using h
    · simp only [put, hk, if_false, List.map_cons, List.nodup_cons]
      refine ⟨fun hm => ?_, ih h.2⟩
      rcases mem_keys_put.1 hm with rfl | hm
      · exact hk rfl
      · exact h.1 hm

/-- Sets a key to a value. -/
def insert (t : Table κ ν) (key : κ) (value : ν) : Table κ ν :=
  ⟨put key value t.entries, nodup_put t.distinct⟩

/-- Removes a key. -/
def erase (t : Table κ ν) (key : κ) : Table κ ν :=
  ⟨t.entries.filter (fun e => e.1 ≠ key), t.distinct.sublist (List.filter_sublist.map _)⟩

theorem lookup_put_self {key : κ} {value : ν} {l : List (κ × ν)} :
    lookup key (put key value l) = some value := by
  induction l with
  | nil => simp [put, lookup]
  | cons e rest ih =>
    obtain ⟨k, v⟩ := e
    by_cases h : k = key <;> simp [put, lookup, h, ih]

theorem lookup_put_of_ne {key other : κ} {value : ν} {l : List (κ × ν)} (h : other ≠ key) :
    lookup other (put key value l) = lookup other l := by
  induction l with
  | nil => simp [put, lookup, Ne.symm h]
  | cons e rest ih =>
    obtain ⟨k, v⟩ := e
    by_cases hk : k = key
    · subst hk; simp [put, lookup, Ne.symm h]
    · by_cases ho : k = other
      · subst ho; simp [put, lookup, hk]
      · simp [put, lookup, hk, ho, ih]

@[simp] theorem get?_insert_self (t : Table κ ν) (key : κ) (value : ν) :
    (t.insert key value).get? key = some value := lookup_put_self

theorem get?_insert_of_ne (t : Table κ ν) {key other : κ} (value : ν) (h : other ≠ key) :
    (t.insert key value).get? other = t.get? other := lookup_put_of_ne h

/-- Taking a key out leaves the other keys alone. -/
theorem lookup_filter_ne {key other : κ} {l : List (κ × ν)} :
    lookup other (l.filter (fun e => e.1 ≠ key)) = if other = key then none else lookup other l := by
  induction l with
  | nil => simp [lookup]
  | cons e rest ih =>
    obtain ⟨k, v⟩ := e
    by_cases hk : k = key
    · subst hk
      by_cases ho : other = k
      · subst ho; simpa [lookup] using ih
      · simpa [lookup, ho, Ne.symm ho] using ih
    · by_cases ho : k = other
      · subst ho; simp [lookup, hk]
      · simpa [lookup, hk, ho] using ih

@[simp] theorem get?_erase (t : Table κ ν) (key other : κ) :
    (t.erase key).get? other = if other = key then none else t.get? other := lookup_filter_ne

/-- What is found under a key is its entry, as no key is repeated. -/
theorem lookup_eq_some_iff {key : κ} {value : ν} {l : List (κ × ν)} (h : (l.map (·.1)).Nodup) :
    lookup key l = some value ↔ (key, value) ∈ l := by
  induction l with
  | nil => simp [lookup]
  | cons e rest ih =>
    obtain ⟨k, v⟩ := e
    simp only [List.map_cons, List.nodup_cons] at h
    by_cases hk : k = key
    · subst hk
      have absent : (k, value) ∉ rest := fun hm => h.1 (List.mem_map.2 ⟨_, hm, rfl⟩)
      simp [lookup, absent, eq_comm]
    · simp [lookup, hk, ih h.2, Ne.symm hk]

/-- A table has a value under a key exactly when the pair is among its entries. -/
theorem get?_eq_some_iff {t : Table κ ν} {key : κ} {value : ν} :
    t.get? key = some value ↔ (key, value) ∈ t.entries := lookup_eq_some_iff t.distinct

/-- The values of a table are what it has under its keys. -/
theorem mem_values_iff {t : Table κ ν} {value : ν} :
    value ∈ t.values ↔ ∃ key, t.get? key = some value := by
  simp only [values, List.mem_map, get?_eq_some_iff]
  exact ⟨fun ⟨e, he, hv⟩ => ⟨e.1, hv ▸ he⟩, fun ⟨key, he⟩ => ⟨_, he, rfl⟩⟩

/-- A value with a new key goes to the end. -/
theorem put_of_not_mem {key : κ} {value : ν} {l : List (κ × ν)} (h : key ∉ l.map (·.1)) :
    put key value l = l ++ [(key, value)] := by
  induction l with
  | nil => rfl
  | cons e rest ih =>
    obtain ⟨k, v⟩ := e
    simp only [List.map_cons, List.mem_cons, not_or] at h
    simp [put, Ne.symm h.1, ih h.2]

/-- Nothing is found under a key that is not there. -/
theorem lookup_eq_none_iff {key : κ} {l : List (κ × ν)} :
    lookup key l = none ↔ key ∉ l.map (·.1) := by
  induction l with
  | nil => simp [lookup]
  | cons e rest ih =>
    obtain ⟨k, v⟩ := e
    by_cases hk : k = key
    · subst hk; simp [lookup]
    · simp only [lookup, hk, if_false, ih, List.map_cons, List.mem_cons, not_or]
      exact ⟨fun h => ⟨Ne.symm hk, h⟩, fun h => h.2⟩

/-- A table contains its keys. -/
theorem contains_eq_true_iff {t : Table κ ν} {key : κ} :
    t.contains key = true ↔ key ∈ t.keys := by
  rw [contains, get?, keys]
  cases h : lookup key t.entries with
  | none => simpa using lookup_eq_none_iff.1 h
  | some v =>
    refine ⟨fun _ => ?_, fun _ => rfl⟩
    exact List.mem_map.2 ⟨_, (lookup_eq_some_iff t.distinct).1 h, rfl⟩

/-- A table does not contain a key under which nothing is found. -/
theorem contains_eq_false_iff {t : Table κ ν} {key : κ} :
    t.contains key = false ↔ t.get? key = none := by
  rw [contains, Option.isSome_eq_false_iff, Option.isNone_iff_eq_none]

/-- The keys are those that have a value. -/
theorem mem_keys_iff {t : Table κ ν} {key : κ} : key ∈ t.keys ↔ t.get? key ≠ none := by
  rw [get?, Ne, lookup_eq_none_iff, Decidable.not_not, keys]

/-- A new key goes to the end. -/
theorem entries_insert_of_not_contains {t : Table κ ν} {key : κ} {value : ν}
    (h : t.contains key = false) : (t.insert key value).entries = t.entries ++ [(key, value)] := by
  apply put_of_not_mem
  intro hm
  have := contains_eq_true_iff.2 hm
  rw [h] at this
  cases this

theorem keys_put_of_mem {key : κ} {value : ν} {l : List (κ × ν)} (h : key ∈ l.map (·.1)) :
    (put key value l).map (·.1) = l.map (·.1) := by
  induction l with
  | nil => cases h
  | cons e rest ih =>
    obtain ⟨k, v⟩ := e
    by_cases hk : k = key
    · subst hk; simp [put]
    · have hrest : key ∈ rest.map (·.1) := (List.mem_cons.1 h).resolve_left (Ne.symm hk)
      simp [put, hk, ih hrest]

/-- A key that is there keeps its place. -/
theorem keys_insert_of_contains {t : Table κ ν} {key : κ} {value : ν}
    (h : t.contains key = true) : (t.insert key value).keys = t.keys :=
  keys_put_of_mem (contains_eq_true_iff.1 h)

/-- A new key is the last one. -/
theorem keys_insert_of_not_contains {t : Table κ ν} {key : κ} {value : ν}
    (h : t.contains key = false) : (t.insert key value).keys = t.keys ++ [key] := by
  rw [keys, entries_insert_of_not_contains h, List.map_append]
  rfl

/-- Erasing a key leaves the others. -/
theorem mem_keys_erase {t : Table κ ν} {key other : κ} :
    other ∈ (t.erase key).keys ↔ other ∈ t.keys ∧ other ≠ key := by
  rw [mem_keys_iff, mem_keys_iff, get?_erase]
  split
  · next h => simp [h]
  · next h => simp [h]

/-- Removing a key keeps the order of the rest. -/
theorem keys_erase_sublist (t : Table κ ν) (key : κ) : (t.erase key).keys.Sublist t.keys :=
  List.filter_sublist.map _

end Table

end ApiExposure
