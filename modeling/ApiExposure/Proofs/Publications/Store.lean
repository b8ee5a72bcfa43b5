import ApiExposure.Proofs.Providers.Index
import ApiExposure.Proofs.Publications.Cascade

/-!
# What the operations do to the store

Each operation of the store is described by what it requires and by what is
stored under every identifier afterwards. It follows that every API stays stored
under its own identifier with a sound description, whoever publishes, patches,
withdraws or goes away.
-/

namespace ApiExposure

/-- A generated identifier is not blank. -/
theorem ApiId.generate_not_blank (suffix : Suffix) :
    Text.isBlank (generate suffix).text = false := by
  rw [generate, Text.isBlank_append, Bool.and_eq_false_iff]
  exact .inl (by decide)

namespace Publications

variable {s t : Publications} {p : Providers} {now : Instant}

/-- A publication passes when it is sound, its functions have their roles and its name is
free. -/
theorem validate_eq_ok_iff {publisher : FunctionId} {d : ApiDescription} :
    s.validate p publisher d = .ok () ↔
      d.Sound ∧ p.roleOf publisher = some .publisher ∧
        (∀ e ∈ d.exposers, p.roleOf e = some .exposer) ∧
        s.names.contains (publisher, d.name) = false := by
  have hfree : s.requireFree publisher d.name = .ok () ↔
      s.names.contains (publisher, d.name) = false := by
    unfold requireFree
    split <;> next h => simp [h]
  simp only [validate, Outcome.andThen_eq_ok_iff, ApiDescription.validate_eq_ok_iff,
    Providers.requirePublisher_eq_ok_iff, Providers.requireExposers_eq_ok_iff, hfree]

/-- A publication that passes is added under an identifier that is not in use. -/
theorem publishAs_eq_ok_iff {id : ApiId} {publisher : FunctionId} {d : ApiDescription}
    {a : PublishedApi} :
    s.publishAs p id publisher d now = .ok (a, t) ↔
      s.validate p publisher d = .ok () ∧ s.apis.get? id = none ∧
        a = ⟨id, publisher, d, now, now⟩ ∧ t = s.add a := by
  rw [publishAs, Outcome.andThen_eq_ok_iff]
  refine and_congr_right fun _ => ?_
  split
  · next h =>
    obtain ⟨b, hb⟩ := Option.isSome_iff_exists.mp h
    simp [hb]
  · next h =>
    have hn : s.apis.get? id = none := by simpa [Table.contains] using h
    simp only [hn, Except.ok.injEq, Prod.mk.injEq, true_and]
    constructor
    · rintro ⟨rfl, rfl⟩
      exact ⟨rfl, rfl⟩
    · rintro ⟨rfl, rfl⟩
      exact ⟨rfl, rfl⟩

/-- A new API is found under its identifier, and the others stay. -/
theorem get?_add (a : PublishedApi) (k : ApiId) :
    (s.add a).apis.get? k = if k = a.id then some a else s.apis.get? k := by
  by_cases hk : k = a.id
  · rw [if_pos hk, hk]
    exact Table.get?_insert_self _ _ _
  · rw [if_neg hk]
    exact Table.get?_insert_of_ne _ _ hk

theorem get_eq_ok_iff {id : ApiId} {a : PublishedApi} :
    s.get id = .ok a ↔ s.apis.get? id = some a := by
  unfold get
  cases s.apis.get? id <;> simp

/-- A publisher finds exactly its own APIs. -/
theorem getFor_eq_ok_iff {publisher : FunctionId} {id : ApiId} {a : PublishedApi} :
    s.getFor publisher id = .ok a ↔ s.apis.get? id = some a ∧ a.publisher = publisher := by
  unfold getFor
  cases s.apis.get? id with
  | none => simp
  | some b =>
    simp only [Option.some.injEq]
    split
    · next h =>
      constructor
      · rintro ⟨⟩
        exact ⟨rfl, h⟩
      · rintro ⟨rfl, _⟩
        rfl
    · next h =>
      constructor
      · rintro ⟨⟩
      · rintro ⟨rfl, hp⟩
        exact absurd hp h

/-- A patch replaces an API of its publisher; the exposers that it brings in are live. -/
theorem of_updateFor_eq_ok {publisher : FunctionId} {id : ApiId} {patch : ApiPatch}
    {b : PublishedApi} (h : s.updateFor p publisher id patch now = .ok (b, t)) :
    ∃ a, s.apis.get? id = some a ∧ a.publisher = publisher ∧ patch.validate = .ok () ∧
      (∀ e ∈ patch.exposers, p.roleOf e = some .exposer) ∧ b = a.apply patch now ∧
      t = s.replace b := by
  obtain ⟨hv, h⟩ := Outcome.andThen_eq_ok_iff.mp h
  obtain ⟨a, ha, h⟩ := Outcome.bind_eq_ok_iff.mp h
  obtain ⟨_, h⟩ := Outcome.andThen_eq_ok_iff.mp h
  obtain ⟨he, h⟩ := Outcome.andThen_eq_ok_iff.mp h
  cases h
  obtain ⟨ha, hp⟩ := getFor_eq_ok_iff.mp ha
  exact ⟨a, ha, hp, hv, Providers.requireExposers_eq_ok_iff.mp he, rfl, rfl⟩

/-- A changed API is found under its identifier, and the others stay. -/
theorem get?_replace (b : PublishedApi) (k : ApiId) :
    (s.replace b).apis.get? k = if k = b.id then some b else s.apis.get? k :=
  get?_add b k

/-- A withdrawal takes out the API with the identifier. -/
theorem of_unpublish_eq_ok {id : ApiId} {a : PublishedApi} (h : s.unpublish id = .ok (a, t)) :
    s.apis.get? id = some a ∧ t.apis = s.apis.erase id := by
  cases ha : s.apis.get? id with
  | none => simp [unpublish, remove, ha] at h
  | some b =>
    simp only [unpublish, remove, ha, Option.map_some, Except.ok.injEq, Prod.mk.injEq] at h
    obtain ⟨rfl, rfl⟩ := h
    exact ⟨rfl, rfl⟩

/-- It fails only when there is none. -/
theorem of_unpublish_eq_error {id : ApiId} {f : Failure} (h : s.unpublish id = .error f) :
    s.apis.get? id = none ∧ f = .notFound (.api id) := by
  cases ha : s.apis.get? id with
  | none =>
    simp only [unpublish, remove, ha, Option.map_none, Except.error.injEq] at h
    exact ⟨rfl, h.symm⟩
  | some b => simp [unpublish, remove, ha] at h

end Publications

namespace PublishedApi

/-- An API is stored as it should be under an identifier. -/
structure StoredAs (a : PublishedApi) (id : ApiId) : Prop where
  /-- The identifier is its own. -/
  own : a.id = id
  /-- The identifier is not blank. -/
  named : Text.isBlank id.text = false
  /-- The description is sound. -/
  sound : a.description.Sound

/-- What a cascade leaves of an API keeps its identifier, publisher and name. -/
theorem StoredAs.survivor {a b : PublishedApi} {id : ApiId} {removed : List FunctionId}
    {now : Instant} (ha : a.StoredAs id) (h : a.survivor removed now = some b) :
    b.StoredAs id := by
  obtain ⟨_, hne, rfl⟩ := survivor_eq_some_iff.mp h
  exact ⟨ha.own, ha.named, stripExposers_sound ha.sound hne⟩

end PublishedApi

namespace Publications

/-- Every API is stored as it should be. -/
def WellFormed (s : Publications) : Prop :=
  ∀ id a, s.apis.get? id = some a → a.StoredAs id

variable {s t : Publications} {p : Providers} {now : Instant}

theorem wellFormed_empty : empty.WellFormed := fun _ _ h => nomatch h

namespace WellFormed

theorem keyed (hs : s.WellFormed) : s.Keyed := fun id a ha => (hs id a ha).own

/-- Of every API a cascade leaves what the removal of the functions leaves of it. -/
theorem get?_invalidate (hs : s.WellFormed) (removed : List FunctionId) (now : Instant)
    (k : ApiId) :
    (s.invalidate removed now).1.apis.get? k =
      (s.apis.get? k).bind (PublishedApi.survivor removed now) :=
  Publications.get?_invalidate hs.keyed (fun id a ha => (hs id a ha).sound.profiles.nonempty) k

/-- A cascade reports as dropped what was stored and is not any more, each once. -/
theorem removed_invalidate (hs : s.WellFormed) (removed : List FunctionId) (now : Instant) :
    ((s.invalidate removed now).2.removed.map (·.id)).Nodup ∧
      ∀ id, id ∈ (s.invalidate removed now).2.removed.map (·.id) ↔
        s.apis.get? id ≠ none ∧ (s.invalidate removed now).1.apis.get? id = none := by
  rw [(cascade_invalidate hs.keyed).1, PublishedApi.ids_filterMap_casualty]
  refine ⟨?_, fun id => ⟨fun hid => ?_, fun ⟨hstored, hnone⟩ => ?_⟩⟩
  · exact (nodup_ids hs.keyed).sublist ((List.filter_sublist.trans List.filter_sublist).map _)
  · obtain ⟨a, ha, rfl⟩ := List.mem_map.mp hid
    obtain ⟨ha, hlost⟩ := List.mem_filter.mp ha
    obtain ⟨key, hkey⟩ := Table.mem_values_iff.mp (List.mem_of_mem_filter ha)
    obtain rfl : a.id = key := hs.keyed key a hkey
    rw [hs.get?_invalidate, hkey]
    exact ⟨by simp, Option.isNone_iff_eq_none.mp hlost⟩
  · obtain ⟨a, ha⟩ := Option.ne_none_iff_exists'.mp hstored
    rw [hs.get?_invalidate, ha, Option.bind_some] at hnone
    have hdepends : dependsOn removed a = true := by
      rw [← Bool.not_eq_false]
      intro hd
      rw [survivor_of_not_dependsOn (hs id a ha).sound.profiles.nonempty hd] at hnone
      cases hnone
    have hvalue : a ∈ s.apis.values := Table.mem_values_iff.mpr ⟨id, ha⟩
    refine List.mem_map.mpr ⟨a, ?_, hs.keyed id a ha⟩
    exact List.mem_filter.mpr ⟨List.mem_filter.mpr ⟨hvalue, hdepends⟩, by rw [hnone]; rfl⟩

/-- It reports as updated only what stays stored. -/
theorem stored_of_updated (hs : s.WellFormed) {removed : List FunctionId} {now : Instant}
    {a : PublishedApi} (h : a ∈ (s.invalidate removed now).2.updated) :
    (s.invalidate removed now).1.apis.get? a.id = some a := by
  rw [(cascade_invalidate hs.keyed).2] at h
  obtain ⟨b, hb, hsurvivor⟩ := List.mem_filterMap.mp h
  obtain ⟨key, hkey⟩ := Table.mem_values_iff.mp (List.mem_of_mem_filter hb)
  have hid : a.id = key := ((hs key b hkey).survivor hsurvivor).own
  rw [hid, hs.get?_invalidate, hkey, Option.bind_some, hsurvivor]

/-- Setting an API under its own identifier keeps a store well-formed. -/
theorem set (hs : s.WellFormed) {b : PublishedApi} (hb : b.StoredAs b.id)
    (ht : ∀ k, t.apis.get? k = if k = b.id then some b else s.apis.get? k) : t.WellFormed := by
  intro k a ha
  rw [ht] at ha
  split at ha
  · next hk =>
    cases ha
    rwa [hk]
  · exact hs k a ha

/-- What is entered has passed its checks, so the store stays well-formed. -/
theorem publishAs (hs : s.WellFormed) {id : ApiId} (hid : Text.isBlank id.text = false)
    {publisher : FunctionId} {d : ApiDescription} {a : PublishedApi}
    (h : s.publishAs p id publisher d now = .ok (a, t)) : t.WellFormed := by
  obtain ⟨hv, _, rfl, rfl⟩ := publishAs_eq_ok_iff.mp h
  exact hs.set ⟨rfl, hid, (validate_eq_ok_iff.mp hv).1⟩ (get?_add _)

/-- A patched API is sound again, so the store stays well-formed. -/
theorem updateFor (hs : s.WellFormed) {publisher : FunctionId} {id : ApiId} {patch : ApiPatch}
    {b : PublishedApi} (h : s.updateFor p publisher id patch now = .ok (b, t)) :
    t.WellFormed := by
  obtain ⟨a, ha, _, hv, _, rfl, rfl⟩ := of_updateFor_eq_ok h
  have hid : (a.apply patch now).id = id := (hs id a ha).own
  refine hs.set ⟨rfl, ?_, PublishedApi.apply_sound now (hs id a ha).sound hv⟩ (get?_replace _)
  rw [hid]
  exact (hs id a ha).named

/-- Taking an API out keeps the others sound. -/
theorem unpublish (hs : s.WellFormed) {id : ApiId} {a : PublishedApi}
    (h : s.unpublish id = .ok (a, t)) : t.WellFormed := by
  intro k b hb
  rw [(of_unpublish_eq_ok h).2, Table.get?_erase] at hb
  split at hb
  · cases hb
  · exact hs k b hb

/-- What a cascade leaves is sound: stripping leaves a profile or drops the API. -/
theorem invalidate (hs : s.WellFormed) (removed : List FunctionId) (now : Instant) :
    (s.invalidate removed now).1.WellFormed := by
  intro k b hb
  rw [hs.get?_invalidate] at hb
  obtain ⟨a, ha, hsurvivor⟩ := Option.bind_eq_some_iff.mp hb
  exact (hs k a ha).survivor hsurvivor

end WellFormed

end Publications

end ApiExposure
