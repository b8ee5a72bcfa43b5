import ApiExposure.Proofs.Publications.Removal

/-!
# Names of published APIs

The store keeps an index of names beside its APIs. No operation reads the index
off the APIs: a publication adds to both, a withdrawal takes from both, a patch
and a cascade change an API in its place. What makes the two agree is that no
change in place reaches publisher or name. So a publisher has at most one API
under a name, a name that it has is refused to it, and one that it had is free as
soon as the API is gone, for whatever reason.

None of this rests on fresh identifiers. That a grant carries the name of its API
does: an identifier must not stand for one API after another.
-/

namespace ApiExposure

namespace PublishedApi

variable {a b : PublishedApi} {now : Instant}

/-- What a cascade leaves of an API keeps its identifier, publisher and name. -/
theorem survivor_keeps {removed : List FunctionId} (h : a.survivor removed now = some b) :
    b.id = a.id ∧ b.publisher = a.publisher ∧ b.name = a.name := by
  obtain ⟨_, _, rfl⟩ := survivor_eq_some_iff.mp h
  exact ⟨rfl, rfl, rfl⟩

end PublishedApi

namespace Publications

/-- The index of names has exactly the stored APIs, by publisher and name. -/
structure Indexed (s : Publications) : Prop where
  /-- Every API is stored under its own identifier. -/
  keyed : s.Keyed
  /-- A publisher has an API under a name exactly when it is stored with both. -/
  names : ∀ publisher name id, s.names.get? (publisher, name) = some id ↔
    ∃ a, s.apis.get? id = some a ∧ a.publisher = publisher ∧ a.name = name

variable {s t : Publications} {p : Providers} {now : Instant} {id : ApiId} {a b : PublishedApi}

theorem indexed_empty : empty.Indexed where
  keyed := fun _ _ h => nomatch h
  names := fun _ _ _ => ⟨fun h => (nomatch h), fun ⟨_, h, _⟩ => nomatch h⟩

namespace Indexed

/-- A stored API is in the index. -/
theorem get?_names (hs : s.Indexed) (ha : s.apis.get? id = some a) :
    s.names.get? (a.publisher, a.name) = some id :=
  (hs.names a.publisher a.name id).mpr ⟨a, ha, rfl, rfl⟩

/-- No two stored APIs share publisher and name. -/
theorem key_unique (hs : s.Indexed) {key : ApiId} (ha : s.apis.get? id = some a)
    (hb : s.apis.get? key = some b) (hpublisher : a.publisher = b.publisher)
    (hname : a.name = b.name) : id = key := by
  have hfirst : s.names.get? (a.publisher, a.name) = some id := hs.get?_names ha
  have hsecond : s.names.get? (b.publisher, b.name) = some key := hs.get?_names hb
  rw [hpublisher, hname, hsecond] at hfirst
  exact (Option.some.inj hfirst).symm

/-- A name is free for a publisher when no stored API has both. -/
theorem contains_eq_false_iff (hs : s.Indexed) {publisher : FunctionId} {name : String} :
    s.names.contains (publisher, name) = false ↔
      ∀ key b, s.apis.get? key = some b → b.publisher = publisher → b.name ≠ name := by
  rw [Table.contains, ← Bool.not_eq_true, Option.isSome_iff_exists, not_exists]
  constructor
  · intro hfree key b hb hpublisher hname
    exact hfree key ((hs.names publisher name key).mpr ⟨b, hb, hpublisher, hname⟩)
  · intro hnone key hkey
    obtain ⟨b, hb, hpublisher, hname⟩ := (hs.names publisher name key).mp hkey
    exact hnone key b hb hpublisher hname

/-- A publication under an identifier that is not in use and a name that is free enters both. -/
theorem add (hs : s.Indexed) (hid : s.apis.get? a.id = none)
    (hfree : s.names.contains (a.publisher, a.name) = false) : (s.add a).Indexed where
  keyed := by
    intro key b hb
    rw [get?_add] at hb
    split at hb
    · next hkey =>
      cases hb
      exact hkey.symm
    · exact hs.keyed key b hb
  names := by
    intro publisher name key
    rw [get?_add]
    by_cases hentry : (publisher, name) = (a.publisher, a.name)
    · have hget : (s.add a).names.get? (publisher, name) = some a.id := by
        rw [hentry]
        exact Table.get?_insert_self _ _ _
      obtain ⟨rfl, rfl⟩ := Prod.mk.inj hentry
      rw [hget, Option.some.injEq]
      constructor
      · rintro rfl
        exact ⟨a, if_pos rfl, rfl, rfl⟩
      · rintro ⟨b, hb, hpublisher, hname⟩
        split at hb
        · next hkey => exact hkey.symm
        · exact absurd hname (hs.contains_eq_false_iff.mp hfree key b hb hpublisher)
    · have hget : (s.add a).names.get? (publisher, name) = s.names.get? (publisher, name) :=
        Table.get?_insert_of_ne _ _ hentry
      rw [hget, hs.names]
      constructor
      · rintro ⟨b, hb, hpublisher, hname⟩
        have hkey : key ≠ a.id := by
          rintro rfl
          rw [hid] at hb
          cases hb
        exact ⟨b, (if_neg hkey).trans hb, hpublisher, hname⟩
      · rintro ⟨b, hb, hpublisher, hname⟩
        split at hb
        · cases hb
          exact absurd (Prod.ext hpublisher.symm hname.symm) hentry
        · exact ⟨b, hb, hpublisher, hname⟩

/-- What is removed goes from both. -/
theorem remove (hs : s.Indexed) (ha : s.apis.get? id = some a) :
    Indexed ⟨s.apis.erase id, s.names.erase (a.publisher, a.name)⟩ where
  keyed := by
    intro key b hb
    rw [Table.get?_erase] at hb
    split at hb
    · cases hb
    · exact hs.keyed key b hb
  names := by
    intro publisher name key
    rw [Table.get?_erase, Table.get?_erase]
    constructor
    · intro hkey
      split at hkey
      · cases hkey
      · next hentry =>
        obtain ⟨b, hb, rfl, rfl⟩ := (hs.names publisher name key).mp hkey
        have hne : key ≠ id := by
          rintro rfl
          cases ha.symm.trans hb
          exact hentry rfl
        exact ⟨b, (if_neg hne).trans hb, rfl, rfl⟩
    · rintro ⟨b, hb, rfl, rfl⟩
      split at hb
      · cases hb
      · next hne =>
        have hentry : (b.publisher, b.name) ≠ (a.publisher, a.name) := by
          intro he
          obtain ⟨hpublisher, hname⟩ := Prod.mk.inj he
          exact hne (hs.key_unique hb ha hpublisher hname)
        rw [if_neg hentry]
        exact hs.get?_names hb

/-- A change in place that reaches neither publisher nor name leaves the index right. -/
theorem replace (hs : s.Indexed) (ha : s.apis.get? b.id = some a)
    (hpublisher : b.publisher = a.publisher) (hname : b.name = a.name) :
    (s.replace b).Indexed where
  keyed := by
    intro key c hc
    rw [get?_replace] at hc
    split at hc
    · next hkey =>
      cases hc
      exact hkey.symm
    · exact hs.keyed key c hc
  names := by
    intro publisher name key
    change s.names.get? (publisher, name) = some key ↔ _
    rw [hs.names, get?_replace]
    by_cases hkey : key = b.id
    · rw [if_pos hkey, hkey, ha]
      simp only [Option.some.injEq, exists_eq_left', hpublisher, hname]
    · rw [if_neg hkey]

/-- One step of a cascade removes an API or changes it in its place. -/
theorem invalidateOne {acc : Publications × Cascade} (hacc : acc.1.Indexed)
    (removed : List FunctionId) (now : Instant) (id : ApiId) :
    (Publications.invalidateOne removed now acc id).1.Indexed := by
  cases ha : acc.1.apis.get? id with
  | none =>
    simp only [Publications.invalidateOne, Publications.remove, ha, Option.map_none]
    exact hacc
  | some a =>
    simp only [Publications.invalidateOne, Publications.remove, ha, Option.map_some]
    split
    · exact hacc.remove ha
    · split
      · exact hacc.remove ha
      · have hid : (a.stripExposers removed now).1.id = id := hacc.keyed id a ha
        exact hacc.replace (a := a) (by rw [hid, ha]) rfl rfl

/-- A cascade keeps the index, as it drops the names of the APIs that it drops. -/
theorem invalidate (hs : s.Indexed) (removed : List FunctionId) (now : Instant) :
    (s.invalidate removed now).1.Indexed := by
  have hfold : ∀ (ids : List ApiId) (acc : Publications × Cascade), acc.1.Indexed →
      (ids.foldl (Publications.invalidateOne removed now) acc).1.Indexed := by
    intro ids
    induction ids with
    | nil => exact fun _ hacc => hacc
    | cons id ids ih => exact fun acc hacc => ih _ (hacc.invalidateOne removed now id)
  exact hfold _ (s, ⟨[], []⟩) hs

end Indexed

/-- A withdrawal takes an API and its name. -/
theorem unpublish_eq_ok_iff :
    s.unpublish id = .ok (a, t) ↔ s.apis.get? id = some a ∧
      t = ⟨s.apis.erase id, s.names.erase (a.publisher, a.name)⟩ := by
  cases ha : s.apis.get? id with
  | none => simp [unpublish, remove, ha]
  | some b =>
    simp only [unpublish, remove, ha, Option.map_some, Except.ok.injEq, Prod.mk.injEq,
      Option.some.injEq]
    constructor
    · rintro ⟨rfl, rfl⟩
      exact ⟨rfl, rfl⟩
    · rintro ⟨rfl, rfl⟩
      exact ⟨rfl, rfl⟩

/-- A patch replaces the API that was looked up by one of the same identifier, publisher and
name. -/
theorem of_patch_eq_ok {held : Outcome PublishedApi} {patch : ApiPatch}
    (h : s.patch p held patch now = .ok (b, t)) :
    ∃ a, held = .ok a ∧ b = a.apply patch now ∧ t = s.replace b := by
  obtain ⟨_, h⟩ := Outcome.andThen_eq_ok_iff.mp h
  obtain ⟨a, ha, h⟩ := Outcome.bind_eq_ok_iff.mp h
  obtain ⟨_, h⟩ := Outcome.andThen_eq_ok_iff.mp h
  obtain ⟨_, h⟩ := Outcome.andThen_eq_ok_iff.mp h
  cases h
  exact ⟨a, ha, rfl, rfl⟩

/-- One operation that changes the store. -/
inductive Step (s : Publications) : Publications → Prop
  /-- An API is published. -/
  | published {p : Providers} {id : ApiId} {publisher : FunctionId} {d : ApiDescription}
      {now : Instant} {a : PublishedApi} {t : Publications}
      (h : s.publishAs p id publisher d now = .ok (a, t)) : Step s t
  /-- An API is patched, whoever its publisher is. -/
  | updated {p : Providers} {id : ApiId} {patch : ApiPatch} {now : Instant} {a : PublishedApi}
      {t : Publications} (h : s.update p id patch now = .ok (a, t)) : Step s t
  /-- An API of a publisher is patched. -/
  | updatedFor {p : Providers} {publisher : FunctionId} {id : ApiId} {patch : ApiPatch}
      {now : Instant} {a : PublishedApi} {t : Publications}
      (h : s.updateFor p publisher id patch now = .ok (a, t)) : Step s t
  /-- An API is withdrawn. -/
  | unpublished {id : ApiId} {a : PublishedApi} {t : Publications}
      (h : s.unpublish id = .ok (a, t)) : Step s t
  /-- A cascade goes through the store. -/
  | invalidated (removed : List FunctionId) (now : Instant) :
      Step s (s.invalidate removed now).1

/-- An operation adds a new API, changes one in its place, takes one out or is a cascade. -/
theorem Step.cases (hs : s.Keyed) (h : s.Step t) :
    (∃ a, s.apis.get? a.id = none ∧ s.names.contains (a.publisher, a.name) = false ∧
        t = s.add a) ∨
      (∃ a b, s.apis.get? b.id = some a ∧ b.publisher = a.publisher ∧ b.name = a.name ∧
        t = s.replace b) ∨
      (∃ id a, s.apis.get? id = some a ∧
        t = ⟨s.apis.erase id, s.names.erase (a.publisher, a.name)⟩) ∨
      ∃ removed now, t = (s.invalidate removed now).1 := by
  have hpatched : ∀ (key : ApiId) (a : PublishedApi) (q : ApiPatch) (now : Instant),
      s.apis.get? key = some a → s.apis.get? (a.apply q now).id = some a := by
    intro key a q now ha
    have hid : (a.apply q now).id = key := hs key a ha
    rw [hid, ha]
  cases h with
  | published h =>
    obtain ⟨hv, hid, rfl, rfl⟩ := publishAs_eq_ok_iff.mp h
    exact .inl ⟨_, hid, (validate_eq_ok_iff.mp hv).2.2.2, rfl⟩
  | updated h =>
    obtain ⟨a, ha, rfl, rfl⟩ := of_patch_eq_ok h
    exact .inr (.inl ⟨a, _, hpatched _ a _ _ (get_eq_ok_iff.mp ha), rfl, rfl, rfl⟩)
  | updatedFor h =>
    obtain ⟨a, ha, rfl, rfl⟩ := of_patch_eq_ok h
    exact .inr (.inl ⟨a, _, hpatched _ a _ _ (getFor_eq_ok_iff.mp ha).1, rfl, rfl, rfl⟩)
  | unpublished h =>
    obtain ⟨ha, rfl⟩ := unpublish_eq_ok_iff.mp h
    exact .inr (.inr (.inl ⟨_, _, ha, rfl⟩))
  | invalidated removed now => exact .inr (.inr (.inr ⟨removed, now, rfl⟩))

/-- A store that operations lead to from the empty one. -/
inductive Reachable : Publications → Prop
  /-- At first there is no API. -/
  | empty : Reachable .empty
  /-- An operation leads on. -/
  | step {s t : Publications} (hs : Reachable s) (h : s.Step t) : Reachable t

/-- A description passes all checks of a publication but that of its name. -/
structure Publishable (p : Providers) (publisher : FunctionId) (d : ApiDescription) : Prop where
  /-- The description is sound. -/
  sound : d.Sound
  /-- The publisher publishes. -/
  publisher : p.roleOf publisher = some .publisher
  /-- The exposers expose. -/
  exposers : ∀ e ∈ d.exposers, p.roleOf e = some .exposer

/-- Such a publication is decided by its name first and by its identifier next. -/
theorem Publishable.publishAs {publisher : FunctionId} {d : ApiDescription}
    (h : Publishable p publisher d) (s : Publications) (id : ApiId) (now : Instant) :
    s.publishAs p id publisher d now =
      if s.names.contains (publisher, d.name) then
        .error (.conflict (.nameTaken d.name publisher))
      else if s.apis.contains id then .error (.conflict (.apiIdTaken id))
      else .ok (⟨id, publisher, d, now, now⟩, s.add ⟨id, publisher, d, now, now⟩) := by
  have hd : d.validate = .ok () := ApiDescription.validate_eq_ok_iff.mpr h.sound
  have hpublisher : p.requirePublisher publisher = .ok () :=
    Providers.requirePublisher_eq_ok_iff.mpr h.publisher
  have hexposers : p.requireExposers d.exposers = .ok () :=
    Providers.requireExposers_eq_ok_iff.mpr h.exposers
  rw [Publications.publishAs, validate, hd, hpublisher, hexposers, requireFree]
  split <;> rfl

/-- The names in a store are exact: the index has what is stored, and publications go by it. -/
structure ExactNames (s : Publications) : Prop where
  /-- A publisher has an API under a name in the index exactly when it is stored with both. -/
  index : ∀ publisher name id, s.names.get? (publisher, name) = some id ↔
    ∃ a, s.apis.get? id = some a ∧ a.publisher = publisher ∧ a.name = name
  /-- No two stored APIs share publisher and name. -/
  distinct : ∀ id key a b, s.apis.get? id = some a → s.apis.get? key = some b →
    a.publisher = b.publisher → a.name = b.name → id = key
  /-- A name of a stored API is refused to its publisher. -/
  taken : ∀ id a, s.apis.get? id = some a → ∀ p new d now, d.name = a.name →
    (∀ r, s.publishAs p new a.publisher d now ≠ .ok r) ∧
      (Publishable p a.publisher d → s.publishAs p new a.publisher d now =
        .error (.conflict (.nameTaken a.name a.publisher)))
  /-- When an operation removes an API, its publisher can publish the name again. -/
  freed : ∀ t id a, s.Step t → s.apis.get? id = some a → t.apis.get? id = none →
    ∀ p new d now, d.name = a.name → Publishable p a.publisher d → t.apis.get? new = none →
      ∃ b u, t.publishAs p new a.publisher d now = .ok (b, u) ∧ b.publisher = a.publisher ∧
        b.name = a.name ∧ u.apis.get? new = some b

namespace Indexed

/-- Every operation keeps the index right. -/
theorem step (hs : s.Indexed) (h : s.Step t) : t.Indexed := by
  rcases h.cases hs.keyed with ⟨a, hid, hfree, rfl⟩ | ⟨a, b, ha, hpublisher, hname, rfl⟩ |
    ⟨id, a, ha, rfl⟩ | ⟨removed, now, rfl⟩
  · exact hs.add hid hfree
  · exact hs.replace ha hpublisher hname
  · exact hs.remove ha
  · exact hs.invalidate removed now

/-- After an operation an API has the publisher and the name that it had before, or it is new and
its name was free. -/
theorem origin (hs : s.Indexed) (h : s.Step t) (hb : t.apis.get? id = some b) :
    (∃ a, s.apis.get? id = some a ∧ a.publisher = b.publisher ∧ a.name = b.name) ∨
      s.apis.get? id = none ∧ s.names.contains (b.publisher, b.name) = false := by
  rcases h.cases hs.keyed with ⟨a, hnew, hfree, rfl⟩ | ⟨a, c, ha, hpublisher, hname, rfl⟩ |
    ⟨key, a, _, rfl⟩ | ⟨removed, now, rfl⟩
  · rw [get?_add] at hb
    split at hb
    · next hid =>
      cases hb
      exact .inr ⟨hid ▸ hnew, hfree⟩
    · exact .inl ⟨b, hb, rfl, rfl⟩
  · rw [get?_replace] at hb
    split at hb
    · next hid =>
      cases hb
      exact .inl ⟨a, hid ▸ ha, hpublisher.symm, hname.symm⟩
    · exact .inl ⟨b, hb, rfl, rfl⟩
  · rw [Table.get?_erase] at hb
    split at hb
    · cases hb
    · exact .inl ⟨b, hb, rfl, rfl⟩
  · have hids : ((s.apis.values.filter (dependsOn removed)).map (·.id)).Nodup :=
      (nodup_ids hs.keyed).sublist (List.filter_sublist.map _)
    rw [Publications.invalidate, get?_foldl_invalidateOne hids hs.keyed] at hb
    split at hb
    · obtain ⟨a, ha, hsurvivor⟩ := Option.bind_eq_some_iff.mp hb
      obtain ⟨_, hpublisher, hname⟩ := PublishedApi.survivor_keeps hsurvivor
      exact .inl ⟨a, ha, hpublisher.symm, hname.symm⟩
    · exact .inl ⟨b, hb, rfl, rfl⟩

/-- While an API is stored its name stays. -/
theorem name_stays (hs : s.Indexed) (h : s.Step t) (ha : s.apis.get? id = some a)
    (hb : t.apis.get? id = some b) : a.name = b.name := by
  rcases hs.origin h hb with ⟨c, hc, _, hname⟩ | ⟨hnew, _⟩
  · obtain rfl : a = c := Option.some.inj (ha.symm.trans hc)
    exact hname
  · rw [hnew] at ha
    cases ha

/-- An operation that removes an API frees its name for its publisher. -/
theorem free_of_removed (hs : s.Indexed) (h : s.Step t) (ha : s.apis.get? id = some a)
    (hnone : t.apis.get? id = none) : t.names.contains (a.publisher, a.name) = false := by
  refine (hs.step h).contains_eq_false_iff.mpr fun key b hb hpublisher hname => ?_
  rcases hs.origin h hb with ⟨c, hc, hcpublisher, hcname⟩ | ⟨_, hfree⟩
  · have hkey : key = id :=
      hs.key_unique hc ha (hcpublisher.trans hpublisher) (hcname.trans hname)
    rw [hkey, hnone] at hb
    cases hb
  · exact hs.contains_eq_false_iff.mp hfree id a ha hpublisher.symm hname.symm

/-- A name of a stored API is not free for its publisher. -/
theorem contains_of_stored (hs : s.Indexed) (ha : s.apis.get? id = some a) :
    s.names.contains (a.publisher, a.name) = true := by
  rw [Table.contains, hs.get?_names ha]
  rfl

/-- With the index right, names are exact. -/
theorem exactNames (hs : s.Indexed) : s.ExactNames where
  index := hs.names
  distinct := fun _ _ _ _ ha hb hpublisher hname => hs.key_unique ha hb hpublisher hname
  taken := by
    intro id a ha p new d now hname
    have htaken : s.names.contains (a.publisher, d.name) = true :=
      hname ▸ hs.contains_of_stored ha
    constructor
    · rintro ⟨b, u⟩ hb
      obtain ⟨hv, _⟩ := publishAs_eq_ok_iff.mp hb
      have hfree := (validate_eq_ok_iff.mp hv).2.2.2
      rw [htaken] at hfree
      cases hfree
    · intro hd
      rw [hd.publishAs, if_pos htaken, hname]
  freed := by
    intro t id a h ha hnone p new d now hname hd hnew
    have hfree : t.names.contains (a.publisher, d.name) = false :=
      hname ▸ hs.free_of_removed h ha hnone
    have habsent : t.apis.contains new = false := Table.contains_eq_false_iff.mpr hnew
    refine ⟨⟨new, a.publisher, d, now, now⟩, t.add ⟨new, a.publisher, d, now, now⟩, ?_, rfl,
      hname, ?_⟩
    · rw [hd.publishAs, hfree, habsent]
      rfl
    · rw [get?_add, if_pos rfl]

end Indexed

/-- The index is right in every store that operations lead to. -/
theorem Reachable.indexed (hs : s.Reachable) : s.Indexed := by
  induction hs with
  | empty => exact indexed_empty
  | step _ h ih => exact ih.step h

end Publications

/-- A command leaves the store or takes effect on it by one operation. -/
theorem Effect.store_step {o : Occasion} {command : Command} {c d : Core}
    {r : Outcome command.Result} (h : Effect o command c r d) :
    d.store = c.store ∨ c.store.Step d.store := by
  cases h with
  | removed _ => exact .inr (.invalidated _ _)
  | published h => exact .inr (.published h)
  | patched h => exact .inr (.updatedFor h)
  | withdrawn h => exact .inr (.unpublished h)
  | _ => exact .inl rfl

namespace System

variable {s t u : System} {m : Option Move}

/-- So does whatever may be seen to happen. -/
theorem Passes.store_step (hs : s.Seen) (h : s.Passes m u) :
    u.core.store = s.core.store ∨ s.core.store.Step u.core.store := by
  cases h with
  | move h =>
    rcases (step_cases hs.tracked_and_wellFormed.1 h).2 with ⟨_, _, _, he, _⟩ | ⟨hcore, _⟩
    · exact he.store_step
    · exact .inl (congrArg Core.store hcore)
  | deregistered _ => exact .inl rfl
  | invalidated functions now => exact .inr (.invalidated functions now)

/-- Operations lead to every store that may be seen. -/
theorem Seen.reachable (hs : s.Seen) : s.core.store.Reachable := by
  have hpass : ∀ {t u : System} {m : Option Move}, t.Seen → t.core.store.Reachable →
      t.Passes m u → u.core.store.Reachable := by
    intro t u m ht hreachable h
    rcases h.store_step ht with hstore | hstep
    · exact hstore ▸ hreachable
    · exact hreachable.step hstep
  induction hs with
  | fresh => exact .empty
  | step hs h ih => exact hpass hs ih (.move h)
  | deregistered hs h ih => exact hpass hs ih (.deregistered h)
  | invalidated hs functions now ih => exact hpass hs ih (.invalidated functions now)

/-- What may be seen to happen gives an invoker grants for stored APIs only, under the names of
these. -/
theorem Passes.holds_named (hs : s.Seen) (h : s.Passes m u) {invoker : InvokerId} {g : Grant}
    (hg : u.core.invokers.Holds invoker g) :
    s.core.invokers.Holds invoker g ∨
      ∃ a, s.core.store.apis.get? g.api = some a ∧ g.apiName = a.name := by
  obtain ⟨htracked, hc⟩ := hs.tracked_and_wellFormed
  cases h with
  | move h =>
    rcases (step_cases htracked h).2 with ⟨j, r, _, he, _⟩ | ⟨hcore, _⟩
    · exact he.gainsOnly_named hc invoker g hg
    · exact .inl (hcore ▸ hg)
  | deregistered _ => exact .inl hg
  | invalidated _ _ => exact .inl hg

/-- Every grant that is held is for a spent identifier, and it has the name of the API that is
stored there. -/
def GrantsNamed (s : System) : Prop :=
  ∀ invoker g, s.core.invokers.Holds invoker g →
    s.Spent g.api ∧ ∀ a, s.core.store.apis.get? g.api = some a → g.apiName = a.name

/-- Grants keep the names of their APIs. A grant was held before the passage, or it was gained for a
stored API, and has the right name either way. -/
theorem GrantsNamed.pass (hseen : s.Seen) (ho : s.Orderly) (hspent : s.StoreSpent)
    (hs : s.GrantsNamed) (hfresh : ∀ n ∈ m, s.Admits n) (h : s.Passes m u) : u.GrantsNamed := by
  intro invoker g hg
  have hbefore : s.Spent g.api ∧ ∀ a, s.core.store.apis.get? g.api = some a →
      g.apiName = a.name := by
    rcases h.holds_named hseen hg with hheld | ⟨a, ha, hname⟩
    · exact hs invoker g hheld
    · refine ⟨hspent g.api a ha, fun b hb => ?_⟩
      obtain rfl : a = b := Option.some.inj (ha.symm.trans hb)
      exact hname
  obtain ⟨hissued, hnamed⟩ := hbefore
  refine ⟨hissued.pass h, fun b hb => ?_⟩
  cases hstored : s.core.store.apis.get? g.api with
  | none =>
    have hgone : u.Gone g.api := Gone.pass hseen ho ⟨hissued, hstored⟩ hfresh h
    rw [hgone.2] at hb
    cases hb
  | some a =>
    rcases h.store_step hseen with hsame | hstep
    · rw [hsame] at hb
      exact hnamed b hb
    · have hindexed : s.core.store.Indexed := hseen.reachable.indexed
      have hname : a.name = b.name := hindexed.name_stays hstep hstored hb
      exact (hnamed a hstored).trans hname

/-- In every state that fresh identifiers lead to, the grants that are held have the names of
their APIs. -/
theorem Precedes.grantsNamed (hu : fresh.Precedes u) : u.GrantsNamed := by
  have hfirst : fresh.StoreSpent ∧ fresh.GrantsNamed :=
    ⟨fun _ _ ha => (nomatch ha), fun _ _ ⟨_, hi, _⟩ => (nomatch hi)⟩
  refine (hu.invariant (P := fun v => v.StoreSpent ∧ v.GrantsNamed) .fresh orderly_fresh hfirst
    fun t m v ht ho ⟨hspent, hnamed⟩ hfresh hpass => ?_).2
  exact ⟨hspent.pass ht hpass, hnamed.pass ht ho hspent hfresh hpass⟩

/-- In every store that operations lead to, and so in every state that may be seen, names are
exact. With fresh identifiers a grant whose API is stored has the name of that API. -/
theorem name_index_exact :
    (∀ s : Publications, s.Reachable → s.ExactNames) ∧
      (∀ u : System, u.Seen → u.core.store.Reachable) ∧
        ∀ u : System, fresh.Precedes u → ∀ invoker g a, u.core.invokers.Holds invoker g →
          u.core.store.apis.get? g.api = some a → g.apiName = a.name :=
  ⟨fun _ hs => hs.indexed.exactNames, fun _ hu => hu.reachable,
    fun _ hu invoker g a hg ha => (hu.grantsNamed invoker g hg).2 a ha⟩

/-- The name of the sample API is refused to its publisher while the API is stored and free once it
is withdrawn; a grant for it has that name. -/
theorem name_index_exact_sample :
    ∃ (u : System) (a : PublishedApi) (store : Publications), fresh.Precedes u ∧
      u.core.store.apis.get? (.generate "b") = some a ∧
      u.core.store.names.get? (samplePublisher, "maps") = some (.generate "b") ∧
      u.core.invokers.Holds (.generate "c")
        ⟨.generate "b", .generate .exposer "aaa", "maps", "v1"⟩ ∧ "maps" = a.name ∧
      u.core.store.publishAs u.core.providers (.generate "e") samplePublisher sampleApi default =
        .error (.conflict (.nameTaken "maps" samplePublisher)) ∧
      u.core.store.unpublish (.generate "b") = .ok (a, store) ∧
      ∃ b after, store.publishAs u.core.providers (.generate "e") samplePublisher sampleApi
        default = .ok (b, after) ∧ b.name = "maps" := by
  have hrun : (fresh.run sampleGranting).bind (fun u =>
      (u.core.store.apis.get? (.generate "b")).bind (fun a =>
        (u.core.invokers.table.get? (.generate "c")).map (fun i =>
          (a.publisher, a.name, i.grants, u.core.providers.roleOf samplePublisher,
            u.core.providers.roleOf (.generate .exposer "aaa"),
            (u.core.store.apis.get? (.generate "e")).isNone)))) =
      some (samplePublisher, "maps", [⟨.generate "b", .generate .exposer "aaa", "maps", "v1"⟩],
        some .publisher, some .exposer, true) := rfl
  obtain ⟨u, hu, hrun⟩ := Option.bind_eq_some_iff.mp hrun
  obtain ⟨a, ha, hrun⟩ := Option.bind_eq_some_iff.mp hrun
  obtain ⟨i, hi, hrun⟩ := Option.map_eq_some_iff.mp hrun
  simp only [Prod.mk.injEq] at hrun
  obtain ⟨hpublisher, hname, hgrants, hpublishes, hexposes, hnew⟩ := hrun
  have hprecedes : fresh.Precedes u :=
    precedes_of_run (show FreshIds ([] ++ sampleGranting) from freshIds_republication.left.left)
      rfl hu
  have hpublishable : Publications.Publishable u.core.providers a.publisher sampleApi := by
    refine ⟨ApiDescription.validate_eq_ok_iff.mp (by decide), hpublisher ▸ hpublishes, ?_⟩
    intro e he
    rw [List.mem_singleton.mp he]
    exact hexposes
  have hholds : u.core.invokers.Holds (.generate "c")
      ⟨.generate "b", .generate .exposer "aaa", "maps", "v1"⟩ :=
    ⟨i, hi, hgrants ▸ List.mem_singleton_self _⟩
  obtain ⟨hexact, hreachable, hnamed⟩ := name_index_exact
  have hnames := hexact _ (hreachable u (hprecedes.seen .fresh))
  have hwithdrawn := Publications.unpublish_eq_ok_iff.mpr ⟨ha, rfl⟩
  have habsent : u.core.store.apis.get? (.generate "e") = none := Option.isNone_iff_eq_none.mp hnew
  obtain ⟨b, after, hb, _, hbname, _⟩ := hnames.freed _ _ a (.unpublished hwithdrawn) ha
    (by rw [Table.get?_erase, if_pos rfl]) u.core.providers (.generate "e") sampleApi default
    hname.symm hpublishable (by rw [Table.get?_erase, habsent]; split <;> rfl)
  have hrefused := (hnames.taken _ a ha u.core.providers (.generate "e") sampleApi default
    hname.symm).2 hpublishable
  rw [hpublisher, hname] at hrefused
  refine ⟨u, a, _, hprecedes, ha, ?_, hholds, hnamed u hprecedes _ _ a hholds ha, hrefused,
    hwithdrawn, b, after, ?_, hbname.trans hname⟩
  · exact (hnames.index _ _ _).mpr ⟨a, ha, hpublisher, hname⟩
  · rw [← hpublisher]
    exact hb

end System

end ApiExposure
