import ApiExposure.Proofs.Publications.Description

/-!
# What a cascade leaves

The cascade works through the affected APIs one by one, and each step decides
about one API alone. So a cascade leaves of every API what can be told from the
API itself: nothing when its publisher was removed or no profile is left, and
else the API without the profiles of removed functions.
-/

namespace ApiExposure

namespace PublishedApi

/-- What is left of an API when functions are removed. -/
def survivor (removed : List FunctionId) (now : Instant) (a : PublishedApi) :
    Option PublishedApi :=
  if removed.contains a.publisher then none
  else if (a.stripExposers removed now).1.description.profiles.isEmpty then none
  else some (a.stripExposers removed now).1

/-- An API survives that is left with its publisher and a profile. -/
theorem survivor_eq_some_iff {removed : List FunctionId} {now : Instant} {a b : PublishedApi} :
    a.survivor removed now = some b ↔
      a.publisher ∉ removed ∧ (a.stripExposers removed now).1.description.profiles ≠ [] ∧
        b = (a.stripExposers removed now).1 := by
  simp only [survivor, List.contains_eq_mem, decide_eq_true_eq, List.isEmpty_iff]
  split
  · next h => simp [h]
  · next h => split <;> next he => simp [h, he, eq_comm]

/-- What a cascade reports of an API that it drops: the API as it was when its publisher was
removed, and without profiles when these were all that was removed. -/
def casualty (removed : List FunctionId) (now : Instant) (a : PublishedApi) :
    Option PublishedApi :=
  if removed.contains a.publisher then some a
  else if (a.stripExposers removed now).1.description.profiles.isEmpty then
    some (a.stripExposers removed now).1
  else none

/-- An API falls with its publisher as it is, or without a profile once these are stripped. -/
theorem casualty_eq_some_iff {removed : List FunctionId} {now : Instant} {a b : PublishedApi} :
    a.casualty removed now = some b ↔
      a.publisher ∈ removed ∧ b = a ∨
        a.publisher ∉ removed ∧ (a.stripExposers removed now).1.description.profiles = [] ∧
          b = (a.stripExposers removed now).1 := by
  simp only [casualty, List.contains_eq_mem, decide_eq_true_eq, List.isEmpty_iff]
  split
  · next h => simp [h, @eq_comm _ b a]
  · next h => split <;> next he => simp [h, he, eq_comm]

/-- An API is dropped or left, and not both. -/
theorem isSome_casualty (removed : List FunctionId) (now : Instant) (a : PublishedApi) :
    (a.casualty removed now).isSome = (a.survivor removed now).isNone := by
  rw [casualty, survivor]
  split
  · rfl
  · split <;> rfl

/-- The reports about dropped APIs name these. -/
theorem ids_filterMap_casualty (removed : List FunctionId) (now : Instant)
    (apis : List PublishedApi) :
    (apis.filterMap (casualty removed now)).map (·.id) =
      (apis.filter (fun a => (a.survivor removed now).isNone)).map (·.id) := by
  have hid : ∀ a : PublishedApi, (a.casualty removed now).map (·.id) =
      if (a.survivor removed now).isNone then some a.id else none := by
    intro a
    rw [← isSome_casualty]
    cases h : a.casualty removed now with
    | none => rfl
    | some b => rcases casualty_eq_some_iff.mp h with ⟨_, rfl⟩ | ⟨_, _, rfl⟩ <;> rfl
  rw [List.map_filterMap, ← List.filterMap_eq_map, List.filterMap_filter]
  exact List.filterMap_congr fun a _ => hid a

end PublishedApi

namespace Publications

/-- Every API is stored under its own identifier. -/
def Keyed (s : Publications) : Prop := ∀ id a, s.apis.get? id = some a → a.id = id

variable {removed : List FunctionId} {now : Instant}

/-- A stripped API takes the place of the one that it was. -/
theorem get?_replace_survivor {s : Publications} (hs : s.Keyed) {id : ApiId} {a : PublishedApi}
    (ha : s.apis.get? id = some a) (k : ApiId) :
    (s.replace (a.stripExposers removed now).1).apis.get? k =
      if k = id then some (a.stripExposers removed now).1 else s.apis.get? k := by
  have hid : (a.stripExposers removed now).1.id = id := hs id a ha
  simp only [replace, hid]
  by_cases hk : k = id
  · rw [if_pos hk, hk, Table.get?_insert_self]
  · rw [if_neg hk, Table.get?_insert_of_ne _ _ hk]

/-- One step of the cascade decides about one API and leaves the others. -/
theorem get?_invalidateOne {acc : Publications × Cascade} (hacc : acc.1.Keyed) (id k : ApiId) :
    (invalidateOne removed now acc id).1.apis.get? k =
      if k = id then (acc.1.apis.get? id).bind (PublishedApi.survivor removed now)
      else acc.1.apis.get? k := by
  cases ha : acc.1.apis.get? id with
  | none =>
    simp only [invalidateOne, remove, ha, Option.map_none, Option.bind_none]
    by_cases hk : k = id
    · rw [if_pos hk, hk, ha]
    · rw [if_neg hk]
  | some a =>
    simp only [invalidateOne, remove, ha, Option.map_some, Option.bind_some,
      PublishedApi.survivor]
    split
    · exact Table.get?_erase _ _ _
    · split
      · exact Table.get?_erase _ _ _
      · exact get?_replace_survivor hacc ha k

/-- A step of a cascade keeps every API under its identifier. -/
theorem keyed_invalidateOne {acc : Publications × Cascade} (hacc : acc.1.Keyed) (id : ApiId) :
    (invalidateOne removed now acc id).1.Keyed := by
  intro k b hb
  rw [get?_invalidateOne hacc] at hb
  split at hb
  · next hk =>
    obtain ⟨a, ha, hs⟩ := Option.bind_eq_some_iff.mp hb
    obtain ⟨_, _, rfl⟩ := PublishedApi.survivor_eq_some_iff.mp hs
    exact (hacc id a ha).trans hk.symm
  · exact hacc k b hb

/-- One step of the cascade leaves the APIs as they are, drops one or changes one in its place. -/
theorem apis_invalidateOne_cases {acc : Publications × Cascade} (hacc : acc.1.Keyed)
    (id : ApiId) :
    (invalidateOne removed now acc id).1.apis = acc.1.apis ∨
      (invalidateOne removed now acc id).1.apis = acc.1.apis.erase id ∨
      ∃ b, acc.1.apis.contains id = true ∧
        (invalidateOne removed now acc id).1.apis = acc.1.apis.insert id b := by
  cases ha : acc.1.apis.get? id with
  | none =>
    refine .inl ?_
    simp only [invalidateOne, remove, ha, Option.map_none]
  | some a =>
    have hid : (a.stripExposers removed now).1.id = id := hacc id a ha
    simp only [invalidateOne, remove, ha, Option.map_some]
    split
    · exact .inr (.inl rfl)
    · split
      · exact .inr (.inl rfl)
      · exact .inr (.inr ⟨_, by rw [Table.contains, ha]; rfl, by rw [replace, hid]⟩)

/-- What is so of the APIs before a cascade and is kept when one that depends on the functions is
dropped or changed in its place is so afterwards. -/
theorem invalidate_induction {s : Publications} (hs : s.Keyed)
    {P : Table ApiId PublishedApi → Prop} (first : P s.apis)
    (erase : ∀ t a, s.apis.get? a.id = some a → dependsOn removed a = true → P t →
      P (t.erase a.id))
    (insert : ∀ t a b, s.apis.get? a.id = some a → dependsOn removed a = true →
      t.contains a.id = true → P t → P (t.insert a.id b)) :
    P (s.invalidate removed now).1.apis := by
  have hfold : ∀ (affected : List PublishedApi) (acc : Publications × Cascade), acc.1.Keyed →
      (∀ a ∈ affected, s.apis.get? a.id = some a ∧ dependsOn removed a = true) → P acc.1.apis →
      P ((affected.map (·.id)).foldl (invalidateOne removed now) acc).1.apis := by
    intro affected
    induction affected with
    | nil => exact fun _ _ _ hp => hp
    | cons a affected ih =>
      intro acc hacc haffected hp
      rw [List.forall_mem_cons] at haffected
      obtain ⟨⟨ha, hdepends⟩, hrest⟩ := haffected
      refine ih (invalidateOne removed now acc a.id) (keyed_invalidateOne hacc a.id) hrest ?_
      rcases apis_invalidateOne_cases hacc a.id with h | h | ⟨b, hheld, h⟩
      · rwa [h]
      · rw [h]
        exact erase _ a ha hdepends hp
      · rw [h]
        exact insert _ a b ha hdepends hheld hp
  refine hfold _ (s, ⟨[], []⟩) hs (fun a ha => ?_) first
  obtain ⟨hvalue, hdepends⟩ := List.mem_filter.mp ha
  obtain ⟨key, hkey⟩ := Table.mem_values_iff.mp hvalue
  obtain rfl : a.id = key := hs key a hkey
  exact ⟨hkey, hdepends⟩

/-- The steps for different APIs do not disturb each other. -/
theorem get?_foldl_invalidateOne {ids : List ApiId} (hids : ids.Nodup)
    {acc : Publications × Cascade} (hacc : acc.1.Keyed) (k : ApiId) :
    (ids.foldl (invalidateOne removed now) acc).1.apis.get? k =
      if k ∈ ids then (acc.1.apis.get? k).bind (PublishedApi.survivor removed now)
      else acc.1.apis.get? k := by
  induction ids generalizing acc with
  | nil => simp
  | cons id ids ih =>
    rw [List.nodup_cons] at hids
    rw [List.foldl_cons, ih hids.2 (keyed_invalidateOne hacc id), get?_invalidateOne hacc]
    by_cases hk : k = id
    · subst hk
      rw [if_neg hids.1, if_pos rfl, if_pos List.mem_cons_self]
    · simp only [hk, if_false, List.mem_cons, false_or]

/-- One step of the cascade reports what it decided. -/
theorem cascade_invalidateOne {acc : Publications × Cascade} {a : PublishedApi}
    (ha : acc.1.apis.get? a.id = some a) :
    (invalidateOne removed now acc a.id).2.removed =
        acc.2.removed ++ (a.casualty removed now).toList ∧
      (invalidateOne removed now acc a.id).2.updated =
        acc.2.updated ++ (a.survivor removed now).toList := by
  simp only [invalidateOne, remove, ha, Option.map_some, PublishedApi.survivor,
    PublishedApi.casualty]
  split
  · simp
  · split <;> simp

/-- The steps for different APIs report one after the other. -/
theorem cascade_foldl_invalidateOne {apis : List PublishedApi} (hids : (apis.map (·.id)).Nodup)
    {acc : Publications × Cascade} (hacc : acc.1.Keyed)
    (hapis : ∀ a ∈ apis, acc.1.apis.get? a.id = some a) :
    ((apis.map (·.id)).foldl (invalidateOne removed now) acc).2.removed =
        acc.2.removed ++ apis.filterMap (PublishedApi.casualty removed now) ∧
      ((apis.map (·.id)).foldl (invalidateOne removed now) acc).2.updated =
        acc.2.updated ++ apis.filterMap (PublishedApi.survivor removed now) := by
  induction apis generalizing acc with
  | nil => simp
  | cons a apis ih =>
    rw [List.map_cons, List.nodup_cons] at hids
    rw [List.forall_mem_cons] at hapis
    obtain ⟨hremoved, hupdated⟩ := @cascade_invalidateOne removed now acc a hapis.1
    have hrest : ∀ b ∈ apis,
        (invalidateOne removed now acc a.id).1.apis.get? b.id = some b := by
      intro b hb
      have hne : b.id ≠ a.id := fun he => hids.1 (he ▸ List.mem_map.mpr ⟨b, hb, rfl⟩)
      rw [get?_invalidateOne hacc, if_neg hne]
      exact hapis.2 b hb
    obtain ⟨ihremoved, ihupdated⟩ := ih hids.2 (keyed_invalidateOne hacc a.id) hrest
    rw [List.map_cons, List.foldl_cons, ihremoved, ihupdated, hremoved, hupdated,
      List.append_assoc, List.append_assoc, List.filterMap_cons, List.filterMap_cons]
    constructor
    · cases a.casualty removed now <;> rfl
    · cases a.survivor removed now <;> rfl

/-- In a keyed store the APIs have the identifiers that they are stored under. -/
theorem Keyed.ids_eq_keys {s : Publications} (hs : s.Keyed) :
    s.apis.values.map (·.id) = s.apis.keys := by
  rw [Table.values, Table.keys, List.map_map]
  refine List.map_congr_left fun e he => ?_
  exact hs e.1 e.2 (Table.get?_eq_some_iff.mpr he)

/-- So no identifier comes twice among them. -/
theorem nodup_ids {s : Publications} (hs : s.Keyed) : (s.apis.values.map (·.id)).Nodup :=
  hs.ids_eq_keys ▸ s.apis.distinct

/-- An API that depends on no removed function is left as it is. -/
theorem survivor_of_not_dependsOn {a : PublishedApi} (hne : a.description.profiles ≠ [])
    (h : dependsOn removed a = false) : a.survivor removed now = some a := by
  rw [dependsOn, Bool.or_eq_false_iff, List.any_eq_false] at h
  have hself : (a.stripExposers removed now).1 = a :=
    PublishedApi.stripExposers_eq_self fun e he hr => h.2 e he (by simpa using hr)
  refine PublishedApi.survivor_eq_some_iff.mpr ⟨by simpa using h.1, ?_, hself.symm⟩
  rwa [hself]

/-- A cascade leaves of every API what the removal of the functions leaves of it. -/
theorem get?_invalidate {s : Publications} (hs : s.Keyed)
    (hne : ∀ id a, s.apis.get? id = some a → a.description.profiles ≠ []) (k : ApiId) :
    (s.invalidate removed now).1.apis.get? k =
      (s.apis.get? k).bind (PublishedApi.survivor removed now) := by
  have hids : ((s.apis.values.filter (dependsOn removed)).map (·.id)).Nodup :=
    (nodup_ids hs).sublist (List.filter_sublist.map _)
  rw [invalidate, get?_foldl_invalidateOne hids hs]
  split
  · rfl
  · next hk =>
    cases ha : s.apis.get? k with
    | none => rfl
    | some a =>
      refine (survivor_of_not_dependsOn (hne k a ha) ?_).symm
      rw [Bool.eq_false_iff]
      intro hd
      refine hk (List.mem_map.mpr ⟨a, List.mem_filter.mpr ⟨?_, hd⟩, hs k a ha⟩)
      exact Table.mem_values_iff.mpr ⟨k, ha⟩

/-- A cascade reports as dropped the APIs that depend on the functions and of which nothing is
left, each once, and as updated what is left of the others. -/
theorem cascade_invalidate {s : Publications} (hs : s.Keyed) :
    (s.invalidate removed now).2.removed =
        (s.apis.values.filter (dependsOn removed)).filterMap
          (PublishedApi.casualty removed now) ∧
      (s.invalidate removed now).2.updated =
        (s.apis.values.filter (dependsOn removed)).filterMap
          (PublishedApi.survivor removed now) := by
  have hids : ((s.apis.values.filter (dependsOn removed)).map (·.id)).Nodup :=
    (nodup_ids hs).sublist (List.filter_sublist.map _)
  have hstored : ∀ a ∈ s.apis.values.filter (dependsOn removed),
      s.apis.get? a.id = some a := by
    intro a ha
    obtain ⟨key, hkey⟩ := Table.mem_values_iff.mp (List.mem_of_mem_filter ha)
    rwa [hs key a hkey]
  exact @cascade_foldl_invalidateOne removed now _ hids (s, ⟨[], []⟩) hs hstored

end Publications

end ApiExposure
