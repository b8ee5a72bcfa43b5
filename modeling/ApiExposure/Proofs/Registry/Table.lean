import Mathlib.Data.List.Perm.Basic
import ApiExposure.Registry.Table

/-!
# Laws of tables

What a setting, a change in place or a removal does to the keys, to the entries that
a test picks and to the order of both. What is true of all values stays true. Tables that
keep keys of one list in its order are told apart by what they hold.
-/

namespace ApiExposure.Table

variable {κ ν μ : Type} {s t : Table κ ν} {key k : κ} {value : ν} {q : κ × ν → Bool}

/-- The table with every value changed in its place. -/
def mapValues (f : ν → μ) (t : Table κ ν) : Table κ μ :=
  ⟨t.entries.map (fun e => (e.1, f e.2)), by
    rw [List.map_map]
    exact t.distinct⟩

/-- Changing the values leaves the keys. -/
@[simp] theorem keys_mapValues (f : ν → μ) (t : Table κ ν) : (t.mapValues f).keys = t.keys := by
  rw [keys, mapValues, List.map_map]
  rfl

/-- Entries whose values a function drops or changes keep their keys in order. -/
theorem keys_filterMap_sublist (f : ν → Option μ) (l : List (κ × ν)) :
    ((l.filterMap (fun e => (f e.2).map (fun value => (e.1, value)))).map (·.1)).Sublist
      (l.map (·.1)) := by
  induction l with
  | nil => exact List.Sublist.refl _
  | cons e l ih =>
    rw [List.filterMap_cons]
    cases f e.2 with
    | none => exact ih.cons _
    | some value => exact ih.cons_cons _

/-- The table with the values that a function leaves, in their places. -/
def filterMapValues (f : ν → Option μ) (t : Table κ ν) : Table κ μ where
  entries := t.entries.filterMap (fun e => (f e.2).map (fun value => (e.1, value)))
  distinct := t.distinct.sublist (keys_filterMap_sublist f t.entries)

variable [DecidableEq κ]

/-- Setting a key leaves all keys there and brings in that one. -/
theorem get?_insert_ne_none_iff :
    (t.insert key value).get? k ≠ none ↔ t.get? k ≠ none ∨ k = key := by
  by_cases hk : k = key
  · simp [hk]
  · simp [hk, get?_insert_of_ne]

/-- After a key is erased, what is there was there and has another key. -/
theorem get?_erase_ne_none_iff :
    (t.erase key).get? k ≠ none ↔ t.get? k ≠ none ∧ k ≠ key := by
  by_cases hk : k = key <;> simp [hk]

@[simp] theorem get?_mapValues (f : ν → μ) (t : Table κ ν) (key : κ) :
    (t.mapValues f).get? key = (t.get? key).map f := by
  have hlookup : ∀ l : List (κ × ν),
      lookup key (l.map (fun e => (e.1, f e.2))) = (lookup key l).map f := by
    intro l
    induction l with
    | nil => rfl
    | cons e rest ih =>
      by_cases hk : e.1 = key <;> simp [lookup, hk, ih]
  exact hlookup t.entries

@[simp] theorem get?_filterMapValues (f : ν → Option μ) (t : Table κ ν) (key : κ) :
    (t.filterMapValues f).get? key = (t.get? key).bind f := by
  refine Option.ext fun value => ?_
  simp only [get?_eq_some_iff, filterMapValues, List.mem_filterMap, Option.bind_eq_some_iff,
    Option.map_eq_some_iff, Prod.mk.injEq]
  constructor
  · rintro ⟨e, he, v, hv, rfl, rfl⟩
    exact ⟨e.2, he, hv⟩
  · rintro ⟨v, he, hv⟩
    exact ⟨(key, v), he, value, hv, rfl, rfl⟩

/-- Of two values put under a key the second one stays. -/
theorem put_put {v w : ν} {l : List (κ × ν)} : put key w (put key v l) = put key w l := by
  induction l with
  | nil => simp [put]
  | cons e rest ih => by_cases hk : e.1 = key <;> simp [put, hk, ih]

theorem insert_insert (t : Table κ ν) (key : κ) (v w : ν) :
    (t.insert key v).insert key w = t.insert key w := Table.ext put_put

/-- A table with the value under a key changed in its place. -/
def modify (t : Table κ ν) (key : κ) (f : ν → ν) : Table κ ν where
  entries := t.entries.map (fun e => if e.1 = key then (e.1, f e.2) else e)
  distinct := by
    have hkeys : (fun e : κ × ν => e.1) ∘ (fun e => if e.1 = key then (e.1, f e.2) else e) =
        fun e => e.1 := by
      funext e
      simp only [Function.comp]
      split <;> rfl
    rw [List.map_map, hkeys]
    exact t.distinct

/-- Where a key is there already, putting a value in changes its entry and no other. -/
theorem put_eq_map {v : ν} {f : ν → ν} {l : List (κ × ν)} (hl : (l.map (·.1)).Nodup)
    (h : lookup key l = some v) :
    put key (f v) l = l.map (fun e => if e.1 = key then (e.1, f e.2) else e) := by
  induction l with
  | nil => cases h
  | cons e rest ih =>
    obtain ⟨k, w⟩ := e
    rw [List.map_cons, List.nodup_cons] at hl
    by_cases hk : k = key
    · subst hk
      rw [lookup, if_pos rfl] at h
      cases h
      have hrest : rest.map (fun e => if e.1 = k then (e.1, f e.2) else e) = rest := by
        refine (List.map_congr_left fun e he => ?_).trans (List.map_id rest)
        exact if_neg fun heq => hl.1 (List.mem_map.mpr ⟨e, he, heq⟩)
      simp [put, hrest]
    · rw [lookup, if_neg hk] at h
      simp [put, hk, ih hl.2 h]

/-- Putting in a changed value is changing it in its place. -/
theorem insert_eq_modify {v : ν} (h : t.get? key = some v) (f : ν → ν) :
    t.insert key (f v) = t.modify key f :=
  Table.ext (put_eq_map t.distinct h)

/-- Putting in what is there changes nothing. -/
theorem insert_of_get? {v : ν} (h : t.get? key = some v) : t.insert key v = t :=
  (insert_eq_modify h id).trans (Table.ext (by simp [modify]))

/-- A new value under a key that is there takes the place of the old one. -/
theorem entries_insert_of_get? {v : ν} (h : t.get? key = some v) (value : ν) :
    (t.insert key value).entries =
      t.entries.map (fun e => if e.1 = key then (key, value) else e) := by
  rw [insert_eq_modify h (fun _ => value), modify]
  refine List.map_congr_left fun e _ => ?_
  split
  · next hk => rw [hk]
  · rfl

/-- A modified value is found under its key. -/
theorem get?_modify_self {v : ν} (h : t.get? key = some v) (f : ν → ν) :
    (t.modify key f).get? key = some (f v) := by
  rw [← insert_eq_modify h]
  exact get?_insert_self _ _ _

/-- Changes of one value follow one another. -/
theorem modify_modify (t : Table κ ν) (key : κ) (f g : ν → ν) :
    (t.modify key f).modify key g = t.modify key (fun value => g (f value)) := by
  refine Table.ext ?_
  simp only [modify, List.map_map]
  refine List.map_congr_left fun e _ => ?_
  by_cases hk : e.1 = key <;> simp [hk]

/-- The entries are the keys with what is under them. -/
theorem entries_eq_filterMap_keys (t : Table κ ν) :
    t.entries = t.keys.filterMap (fun key => (t.get? key).map (fun value => (key, value))) := by
  rw [keys, List.filterMap_map]
  conv_lhs => rw [← List.filterMap_some (l := t.entries)]
  refine List.filterMap_congr fun e he => ?_
  rw [Function.comp_apply, get?_eq_some_iff.mpr he, Option.map_some]

/-- Tables that keep some of the keys of a list in its order are equal when they have the same
values. -/
theorem eq_of_get? {l : List κ} (hl : l.Nodup) (hs : s.keys.Sublist l) (ht : t.keys.Sublist l)
    (h : ∀ key, s.get? key = t.get? key) : s = t := by
  have hmem : ∀ key, key ∈ s.keys ↔ key ∈ t.keys := fun key => by
    rw [mem_keys_iff, mem_keys_iff, h]
  have hkeys : s.keys = t.keys :=
    (List.Nodup.perm_iff_eq_of_sublist hl hs ht).mp
      ((List.perm_ext_iff_of_nodup s.distinct t.distinct).mpr hmem)
  apply Table.ext
  rw [entries_eq_filterMap_keys s, entries_eq_filterMap_keys t, hkeys]
  exact List.filterMap_congr fun key _ => by rw [h]

/-- So a table that keeps some of the keys of another in its order, with what a function leaves of
the values, has what the function leaves of the entries. -/
theorem entries_eq_filterMap {f : ν → Option μ} {s : Table κ μ} (hs : s.keys.Sublist t.keys)
    (h : ∀ key, s.get? key = (t.get? key).bind f) :
    s.entries = t.entries.filterMap (fun e => (f e.2).map (fun value => (e.1, value))) := by
  have heq : s = t.filterMapValues f :=
    eq_of_get? t.distinct hs (keys_filterMap_sublist f t.entries) fun key => by
      rw [h, get?_filterMapValues]
  rw [heq, filterMapValues]

/-- Keys that are removed one after the other are removed. -/
theorem entries_foldl_erase (t : Table κ ν) (removed : List κ) :
    (removed.foldl erase t).entries = t.entries.filter (fun e => e.1 ∉ removed) := by
  induction removed generalizing t with
  | nil => simp
  | cons key removed ih =>
    rw [List.foldl_cons, ih, erase, List.filter_filter]
    refine List.filter_congr fun e _ => ?_
    simp only [List.mem_cons, not_or, Bool.decide_and, Bool.and_comm]

/-- Keys may be removed in any order. -/
theorem foldl_erase_comm (t : Table κ ν) (first second : List κ) :
    second.foldl erase (first.foldl erase t) = first.foldl erase (second.foldl erase t) := by
  apply Table.ext
  rw [entries_foldl_erase, entries_foldl_erase, entries_foldl_erase, entries_foldl_erase,
    List.filter_comm]

/-- Every value of a table has a property. -/
def All (P : ν → Prop) (t : Table κ ν) : Prop := ∀ key v, t.get? key = some v → P v

variable {P : ν → Prop}

theorem all_empty : (empty : Table κ ν).All P := fun _ _ h => nomatch h

/-- Setting a value that is as required keeps all values as required. -/
theorem All.insert (h : t.All P) {v : ν} (hv : P v) (key : κ) : (t.insert key v).All P := by
  intro k w hw
  by_cases hk : k = key
  · subst hk
    rw [get?_insert_self] at hw
    cases hw
    exact hv
  · rw [get?_insert_of_ne _ _ hk] at hw
    exact h k w hw

theorem All.erase (h : t.All P) (key : κ) : (t.erase key).All P := by
  intro k w hw
  rw [get?_erase] at hw
  split at hw
  · cases hw
  · exact h k w hw

/-- Entries that are not looked at may be set. -/
theorem filter_put {l : List (κ × ν)} (hvalue : q (key, value) = false)
    (hold : ∀ v, lookup key l = some v → q (key, v) = false) :
    (put key value l).filter q = l.filter q := by
  induction l with
  | nil => simp [put, hvalue]
  | cons e rest ih =>
    obtain ⟨k, v⟩ := e
    by_cases hk : k = key
    · subst hk
      have hv : q (k, v) = false := hold v (by simp [lookup])
      simp [put, hvalue, hv]
    · have hrest : (put key value rest).filter q = rest.filter q :=
        ih fun w hw => hold w (by simpa [lookup, hk] using hw)
      simp only [put, hk, if_false, List.filter_cons, hrest]

/-- A filter that passes over a new value and over the one that it replaces finds the same entries
as before. -/
theorem filter_entries_insert (hvalue : q (key, value) = false)
    (hold : ∀ v, t.get? key = some v → q (key, v) = false) :
    (t.insert key value).entries.filter q = t.entries.filter q := filter_put hvalue hold

/-- They may be removed as well. -/
theorem filter_entries_erase (hold : ∀ v, t.get? key = some v → q (key, v) = false) :
    (t.erase key).entries.filter q = t.entries.filter q := by
  rw [erase, List.filter_filter]
  refine List.filter_congr fun e he => ?_
  by_cases hk : e.1 = key
  · have hheld : t.get? key = some e.2 := hk ▸ get?_eq_some_iff.mpr he
    have hq : q e = false := by
      have := hold e.2 hheld
      rwa [← hk] at this
    simp [hq]
  · simp [hk]

end ApiExposure.Table
