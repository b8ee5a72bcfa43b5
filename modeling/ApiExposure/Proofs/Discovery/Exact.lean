import ApiExposure.Proofs.Authorization.Order
import ApiExposure.Proofs.Discovery.Criteria
import ApiExposure.Proofs.Publications.Order

/-!
# What discovery finds

What an invoker may find is said here API by API: the API is stored and satisfies
the criteria, its publisher is live, and of its profiles those are shown that
satisfy the criteria, whose exposers are live and for which a grant is held; there
has to be one. Discovery finds exactly these APIs, each once and in the order of
publication over the whole run. This holds in every state that may be seen, also
while a domain is out of the registry of providers and its APIs are still stored.
-/

namespace ApiExposure

namespace Core

/-- A profile of an API is shown to the holder of grants. -/
structure Shows (c : Core) (grants : List Grant) (criteria : Criteria) (a : PublishedApi)
    (p : Profile) : Prop where
  /-- It satisfies the criteria. -/
  fits : criteria.FitsProfile p
  /-- Its function is a live exposer. -/
  live : c.providers.roleOf p.exposer = some .exposer
  /-- A grant is held for the API on this function. -/
  granted : ∃ g ∈ grants, g.api = a.id ∧ g.exposer = p.exposer

/-- An API is disclosed to the holder of grants. -/
structure Discloses (c : Core) (grants : List Grant) (criteria : Criteria) (id : ApiId)
    (a : PublishedApi) : Prop where
  /-- It is in the store. -/
  stored : c.store.apis.get? id = some a
  /-- It satisfies the criteria. -/
  fits : criteria.FitsApi a
  /-- Its publisher is a live publisher. -/
  publisher : c.providers.roleOf a.publisher = some .publisher
  /-- One of its profiles is shown. -/
  profile : ∃ p ∈ a.description.profiles, c.Shows grants criteria a p

variable {c : Core} {grants : List Grant} {criteria : Criteria}

/-- The test for a profile that is shown, as a condition. -/
theorem isVisible_iff {a : PublishedApi} {p : Profile} :
    c.isVisible grants criteria a p = true ↔ c.Shows grants criteria a p := by
  simp only [isVisible, Bool.and_eq_true, Criteria.matchesProfile_iff, beq_iff_eq, List.any_eq_true]
  exact ⟨fun ⟨⟨hfits, hlive⟩, hgranted⟩ => ⟨hfits, hlive, hgranted⟩,
    fun ⟨hfits, hlive, hgranted⟩ => ⟨⟨hfits, hlive⟩, hgranted⟩⟩

instance (a : PublishedApi) (p : Profile) : Decidable (c.Shows grants criteria a p) :=
  decidable_of_iff _ isVisible_iff

/-- An API with the profiles that are shown, in the order in which they are stored. -/
def shown (c : Core) (grants : List Grant) (criteria : Criteria) (a : PublishedApi) :
    PublishedApi :=
  { a with description := { a.description with
      profiles := a.description.profiles.filter (fun p => c.Shows grants criteria a p) } }

/-- The holder of grants finds exactly the APIs that are disclosed, each once with the profiles
that are shown, in a given order of all APIs. -/
structure Discovers (c : Core) (order : List ApiId) (grants : List Grant) (criteria : Criteria)
    (found : List PublishedApi) : Prop where
  /-- What is disclosed is found as it is shown, and nothing else. -/
  exact : ∀ b, b ∈ found ↔
    ∃ id a, c.Discloses grants criteria id a ∧ b = c.shown grants criteria a
  /-- It is found in order. -/
  inOrder : (found.map (·.id)).Sublist order
  /-- Nothing is found twice. -/
  once : (found.map (·.id)).Nodup

/-- An API is viewed when its publisher is registered as one and a profile of it is shown. -/
theorem view?_eq_some_iff {a b : PublishedApi} :
    c.view? grants criteria a = some b ↔
      c.providers.roleOf a.publisher = some .publisher ∧
        (∃ p ∈ a.description.profiles, c.Shows grants criteria a p) ∧
        b = c.shown grants criteria a := by
  have hvisible : a.description.profiles.filter (c.isVisible grants criteria a) =
      a.description.profiles.filter (fun p => c.Shows grants criteria a p) := by
    refine List.filter_congr fun p _ => ?_
    rw [Bool.eq_iff_iff, isVisible_iff, decide_eq_true_iff]
  have hnil : a.description.profiles.filter (fun p => c.Shows grants criteria a p) = [] ↔
      ¬ ∃ p ∈ a.description.profiles, c.Shows grants criteria a p := by
    simp [List.filter_eq_nil_iff]
  rw [view?, hvisible, shown]
  split
  · next hpublisher =>
    split
    · next h => simp [hpublisher, hnil.mp h]
    · next p ps h =>
      have hsome : ∃ p ∈ a.description.profiles, c.Shows grants criteria a p := by
        by_contra hnone
        rw [hnil.mpr hnone] at h
        cases h
      simp [hpublisher, hsome, h, eq_comm]
  · next hpublisher => simp [hpublisher]

/-- What the holder of grants finds. -/
def found (c : Core) (grants : List Grant) (criteria : Criteria) : List PublishedApi :=
  (c.store.query criteria).filterMap (c.view? grants criteria)

/-- An onboarded invoker finds what its grants let it find. -/
theorem discover_eq_found {id : InvokerId} {i : InvokerIdentity}
    (hi : c.invokers.table.get? id = some i) (criteria : Criteria) :
    c.discover id criteria = .ok (c.found i.grants criteria) := by
  rw [discover, hi]
  rfl

/-- It finds exactly what is disclosed. -/
theorem mem_found_iff (hc : c.store.WellFormed) {b : PublishedApi} :
    b ∈ c.found grants criteria ↔
      ∃ id a, c.Discloses grants criteria id a ∧ b = c.shown grants criteria a := by
  simp only [found, Publications.query, List.mem_filterMap, List.mem_filter,
    Table.mem_values_iff, view?_eq_some_iff, Criteria.selects, Bool.and_eq_true]
  constructor
  · rintro ⟨a, ⟨⟨id, ha⟩, hfits, _⟩, hpublisher, hprofile, hb⟩
    exact ⟨id, a, ⟨ha, (Criteria.matchesApi_iff (hc id a ha).sound).mp hfits, hpublisher,
      hprofile⟩, hb⟩
  · rintro ⟨id, a, h, hb⟩
    have hfits := (Criteria.matchesApi_iff (hc id a h.stored).sound).mpr h.fits
    obtain ⟨p, hp, hshows⟩ := h.profile
    have hmatches : a.description.profiles.any criteria.matchesProfile = true :=
      List.any_eq_true.mpr ⟨p, hp, Criteria.matchesProfile_iff.mpr hshows.fits⟩
    exact ⟨a, ⟨⟨id, h.stored⟩, hfits, hmatches⟩, h.publisher, ⟨p, hp, hshows⟩, hb⟩

/-- It finds it in the order of the store. -/
theorem found_sublist_keys (hc : c.store.WellFormed) (grants : List Grant)
    (criteria : Criteria) :
    ((c.found grants criteria).map (·.id)).Sublist c.store.apis.keys := by
  have hids : ∀ l : List PublishedApi,
      ((l.filterMap (c.view? grants criteria)).map (·.id)).Sublist (l.map (·.id)) := by
    intro l
    induction l with
    | nil => exact List.Sublist.refl _
    | cons a as ih =>
      cases hb : c.view? grants criteria a with
      | none =>
        rw [List.filterMap_cons_none hb]
        exact ih.cons _
      | some b =>
        obtain ⟨_, _, rfl⟩ := view?_eq_some_iff.mp hb
        rw [List.filterMap_cons_some hb]
        exact ih.cons_cons _
  rw [← hc.keyed.ids_eq_keys]
  exact (hids _).trans (List.filter_sublist.map _)

end Core

namespace System

/-- In every state that may be seen, discovery turns away whoever is not onboarded and nobody
else, and an onboarded invoker finds exactly what is disclosed to it, in the order of
publication. -/
theorem discover_exact {s : System} {order : List ApiId} (h : s.SeenAfter order)
    (id : InvokerId) (criteria : Criteria) :
    (∀ f, s.core.discover id criteria = .error f ↔
        s.core.invokers.table.get? id = none ∧ f = .denied .unknownInvoker) ∧
      ∀ i, s.core.invokers.table.get? id = some i →
        ∃ found, s.core.discover id criteria = .ok found ∧
          s.core.Discovers order i.grants criteria found := by
  refine ⟨fun f => Core.discover_eq_error_iff, fun i hi => ?_⟩
  have hc := h.seen.tracked_and_wellFormed.2
  obtain ⟨hnodup, hkeys⟩ := h.keys_sublist
  have horder := (Core.found_sublist_keys hc i.grants criteria).trans hkeys
  exact ⟨_, Core.discover_eq_found hi criteria,
    fun _ => Core.mem_found_iff hc, horder, hnodup.sublist horder⟩

/-- After both publishers have published and the invoker is onboarded, the API that was published
first is patched. -/
def patchedSchedule : List Move := sharedSchedule ++ [
  .start 4 (.updateApi (.generate .publisher "aa") (.generate "b") { category := some "maps" })
    (.lettered 'e' default)]

/-- The patched API is still found first. -/
theorem discover_exact_sample :
    ∃ s order i found, SeenAfter s order ∧
      s.core.invokers.table.get? (.generate "d") = some i ∧
      s.core.discover (.generate "d") {} = .ok found ∧
      s.core.Discovers order i.grants {} found ∧
      found.map (fun a => (a.id, a.description.category)) =
        [(.generate "b", some "maps"), (.generate "c", none)] := by
  have hrun : (fresh.run patchedSchedule).bind (fun s =>
      (s.core.invokers.table.get? (.generate "d")).map (fun i =>
        (s.core.discover (.generate "d") {}).map (fun found =>
          found.map (fun a => (a.id, a.description.category))))) =
      some (.ok [(.generate "b", some "maps"), (.generate "c", none)]) := rfl
  obtain ⟨s, hs, h⟩ := Option.bind_eq_some_iff.mp hrun
  obtain ⟨i, hi, h⟩ := Option.map_eq_some_iff.mp h
  obtain ⟨order, horder⟩ := (seen_run hs).exists_order
  obtain ⟨found, hfound, hexact⟩ := (discover_exact horder (.generate "d") {}).2 i hi
  rw [hfound] at h
  exact ⟨s, order, i, found, horder, hi, hfound, hexact, Except.ok.inj h⟩

end System

end ApiExposure
