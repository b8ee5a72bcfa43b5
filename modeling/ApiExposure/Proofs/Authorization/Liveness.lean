import ApiExposure.Core.Authorization
import ApiExposure.Proofs.Publications.Store

/-!
# Live grants

A grant is live for a call when it covers the call and the API that it names is
still in the store with the name, the exposer and the version, and publisher and
exposer still have their roles. The search through exposures finds the first
grant of this kind, and the exposure found is that of its own API even when
several APIs of one name are exposed by the function.
-/

namespace ApiExposure

namespace PublishedApi

/-- In a sound description a version is found by its name. -/
theorem version?_eq_some_iff {a : PublishedApi} (ha : a.description.Sound) {name : String}
    {v : ApiVersion} : a.version? name = some v ↔ v ∈ a.description.versions ∧ v.name = name := by
  have hfound : ∀ w, a.version? name = some w → w ∈ a.description.versions ∧ w.name = name :=
    fun w hw => ⟨List.mem_of_find?_eq_some hw, by simpa using List.find?_some hw⟩
  refine ⟨hfound v, fun ⟨hv, hn⟩ => ?_⟩
  have hsome : (a.version? name).isSome := List.find?_isSome.mpr ⟨v, hv, by simpa using hn⟩
  obtain ⟨w, hw⟩ := Option.isSome_iff_exists.mp hsome
  have heq : w = v := List.inj_on_of_nodup_map ha.versions.distinct (hfound w hw).1 hv
    ((hfound w hw).2.trans hn.symm)
  rw [hw, heq]

/-- A function exposes an API when a profile is for it. -/
theorem exposedBy_iff {a : PublishedApi} {exposer : FunctionId} :
    a.exposedBy exposer = true ↔ exposer ∈ a.description.exposers := by
  simp only [exposedBy, profile?, List.find?_isSome, beq_iff_eq, ApiDescription.mem_exposers]

end PublishedApi

namespace Core

/-- A stored API makes a call possible with one of its versions. -/
structure Exposes (c : Core) (call : Call) (id : ApiId) (a : PublishedApi) (v : ApiVersion) :
    Prop where
  /-- The API is still in the store. -/
  stored : c.store.apis.get? id = some a
  /-- It has the name. -/
  name : a.name = call.apiName
  /-- It has a profile of the exposer. -/
  exposed : call.exposer ∈ a.description.exposers
  /-- It has the version. -/
  listed : v ∈ a.description.versions
  /-- This is the version of the call. -/
  version : v.name = call.version
  /-- Its publisher still publishes. -/
  publisher : c.providers.roleOf a.publisher = some .publisher
  /-- The exposer still exposes. -/
  exposer : c.providers.roleOf call.exposer = some .exposer

/-- A grant covers a call and is live through its API and one of the versions. -/
structure LiveFor (c : Core) (call : Call) (g : Grant) (a : PublishedApi) (v : ApiVersion) : Prop
    extends c.Exposes call g.api a v where
  /-- The grant is for the exposer, the name and the version of the call. -/
  covers : g.exposer = call.exposer ∧ g.apiName = call.apiName ∧ g.version = call.version

/-- A grant is live for a call. -/
def HasLive (c : Core) (call : Call) (g : Grant) : Prop := ∃ a v, c.LiveFor call g a v

/-- The first grant of a list that is live for a call. -/
structure FirstLive (c : Core) (call : Call) (grants : List Grant) (g : Grant) (a : PublishedApi)
    (v : ApiVersion) : Prop where
  /-- It is live. -/
  live : c.LiveFor call g a v
  /-- No grant before it is. -/
  first : ∃ before after, grants = before ++ g :: after ∧ ∀ h ∈ before, ¬ c.HasLive call h

variable {c : Core} {call : Call}

/-- An identifier stands for at most one API with the version of a call. -/
theorem Exposes.unique (hc : c.store.WellFormed) {id : ApiId} {a b : PublishedApi}
    {v w : ApiVersion} (ha : c.Exposes call id a v) (hb : c.Exposes call id b w) :
    a = b ∧ v = w := by
  obtain rfl : a = b := Option.some.inj (ha.stored.symm.trans hb.stored)
  have hdistinct := (hc id a ha.stored).sound.versions.distinct
  exact ⟨rfl, List.inj_on_of_nodup_map hdistinct ha.listed hb.listed
    (ha.version.trans hb.version.symm)⟩

/-- The exposures considered for a call are those of APIs that make it possible. -/
theorem mem_liveExposures_iff (hc : c.store.WellFormed) {e : Exposure} :
    e ∈ c.liveExposures call ↔
      ∃ id a v, c.Exposes call id a v ∧ e = ⟨id, a.publisher, v.expiry⟩ := by
  unfold liveExposures
  split
  · next hexposer =>
    simp only [Publications.exposures, List.mem_filter, List.mem_filterMap,
      Table.mem_values_iff, Publications.exposure?, beq_iff_eq]
    constructor
    · rintro ⟨⟨a, ⟨id, ha⟩, he⟩, hpublisher⟩
      split at he
      · next hname =>
        obtain ⟨v, hv, rfl⟩ := Option.map_eq_some_iff.mp he
        have hstored := hc id a ha
        obtain ⟨hlisted, hversion⟩ := (PublishedApi.version?_eq_some_iff hstored.sound).mp hv
        refine ⟨id, a, v, ⟨ha, hname.1, PublishedApi.exposedBy_iff.mp hname.2, hlisted, hversion,
          hpublisher, hexposer⟩, ?_⟩
        rw [hstored.own]
      · cases he
    · rintro ⟨id, a, v, h, rfl⟩
      have hstored := hc id a h.stored
      have hv := (PublishedApi.version?_eq_some_iff hstored.sound).mpr ⟨h.listed, h.version⟩
      refine ⟨⟨a, ⟨id, h.stored⟩, ?_⟩, h.publisher⟩
      rw [if_pos ⟨h.name, PublishedApi.exposedBy_iff.mpr h.exposed⟩, hv, Option.map_some,
        hstored.own]
  · next hexposer =>
    constructor
    · rintro ⟨⟩
    · rintro ⟨_, _, _, h, _⟩
      exact absurd h.exposer hexposer

/-- Among them the one of an API is found by the identifier. -/
theorem find?_liveExposures_eq_some_iff (hc : c.store.WellFormed) {id : ApiId} {e : Exposure} :
    (c.liveExposures call).find? (fun e => e.api == id) = some e ↔
      ∃ a v, c.Exposes call id a v ∧ e = ⟨id, a.publisher, v.expiry⟩ := by
  have hfound : ∀ e, (c.liveExposures call).find? (fun e => e.api == id) = some e →
      ∃ a v, c.Exposes call id a v ∧ e = ⟨id, a.publisher, v.expiry⟩ := by
    intro e he
    have hmem := List.mem_of_find?_eq_some he
    have hid : e.api = id := by simpa using List.find?_some he
    obtain ⟨_, a, v, h, rfl⟩ := (mem_liveExposures_iff hc).mp hmem
    obtain rfl := hid
    exact ⟨a, v, h, rfl⟩
  refine ⟨hfound e, ?_⟩
  rintro ⟨a, v, h, rfl⟩
  have hsome : ((c.liveExposures call).find? (fun e => e.api == id)).isSome :=
    List.find?_isSome.mpr
      ⟨_, (mem_liveExposures_iff hc).mpr ⟨id, a, v, h, rfl⟩, beq_self_eq_true id⟩
  obtain ⟨e, he⟩ := Option.isSome_iff_exists.mp hsome
  obtain ⟨b, w, hb, rfl⟩ := hfound e he
  obtain ⟨rfl, rfl⟩ := h.unique hc hb
  exact he

/-- The exposure through which a grant is live for a call. -/
def liveExposure? (c : Core) (call : Call) (g : Grant) : Option Exposure :=
  if g.covers call then (c.liveExposures call).find? (fun e => e.api == g.api) else none

/-- A live exposure is found exactly for a grant that is live, with the publisher and the expiry of
what it is for. -/
theorem liveExposure?_eq_some_iff (hc : c.store.WellFormed) {g : Grant} {e : Exposure} :
    c.liveExposure? call g = some e ↔
      ∃ a v, c.LiveFor call g a v ∧ e = ⟨g.api, a.publisher, v.expiry⟩ := by
  have hcovers : g.covers call = true ↔
      g.exposer = call.exposer ∧ g.apiName = call.apiName ∧ g.version = call.version := by
    simp [Grant.covers, and_assoc]
  unfold liveExposure?
  split
  · next h =>
    rw [find?_liveExposures_eq_some_iff hc]
    constructor
    · rintro ⟨a, v, hexposes, he⟩
      exact ⟨a, v, ⟨hexposes, hcovers.mp h⟩, he⟩
    · rintro ⟨a, v, hlive, he⟩
      exact ⟨a, v, hlive.toExposes, he⟩
  · next h =>
    constructor
    · rintro ⟨⟩
    · rintro ⟨a, v, hlive, _⟩
      exact absurd (hcovers.mpr hlive.covers) h

/-- None is found exactly for a grant that is not live. -/
theorem liveExposure?_eq_none_iff (hc : c.store.WellFormed) {g : Grant} :
    c.liveExposure? call g = none ↔ ¬ c.HasLive call g := by
  rw [Option.eq_none_iff_forall_ne_some]
  constructor
  · rintro h ⟨a, v, hlive⟩
    exact h _ ((liveExposure?_eq_some_iff hc).mpr ⟨a, v, hlive, rfl⟩)
  · intro h e he
    obtain ⟨a, v, hlive, _⟩ := (liveExposure?_eq_some_iff hc).mp he
    exact h ⟨a, v, hlive⟩

/-- The search goes through the grants one by one. -/
theorem granted?_eq_findSome? (grants : List Grant) :
    granted? grants (c.liveExposures call) call = grants.findSome? (c.liveExposure? call) := by
  induction grants with
  | nil => rfl
  | cons g gs ih =>
    rw [granted?] at ih ⊢
    rw [List.filter_cons, List.findSome?_cons, liveExposure?]
    cases g.covers call with
    | true => simp only [if_true, List.findSome?_cons, ih]
    | false => simpa only [Bool.false_eq_true, if_false] using ih

/-- What the search finds belongs to the first live grant. -/
theorem granted?_eq_some_iff (hc : c.store.WellFormed) {grants : List Grant} {e : Exposure} :
    granted? grants (c.liveExposures call) call = some e ↔
      ∃ g a v, c.FirstLive call grants g a v ∧ e = ⟨g.api, a.publisher, v.expiry⟩ := by
  rw [granted?_eq_findSome?, List.findSome?_eq_some_iff]
  constructor
  · rintro ⟨before, g, after, hgrants, hg, hbefore⟩
    obtain ⟨a, v, hlive, he⟩ := (liveExposure?_eq_some_iff hc).mp hg
    refine ⟨g, a, v, ⟨hlive, before, after, hgrants, fun h hh => ?_⟩, he⟩
    exact (liveExposure?_eq_none_iff hc).mp (hbefore h hh)
  · rintro ⟨g, a, v, ⟨hlive, before, after, hgrants, hbefore⟩, he⟩
    refine ⟨before, g, after, hgrants, (liveExposure?_eq_some_iff hc).mpr ⟨a, v, hlive, he⟩, ?_⟩
    exact fun h hh => (liveExposure?_eq_none_iff hc).mpr (hbefore h hh)

/-- It finds nothing when no grant is live. -/
theorem granted?_eq_none_iff (hc : c.store.WellFormed) {grants : List Grant} :
    granted? grants (c.liveExposures call) call = none ↔ ∀ g ∈ grants, ¬ c.HasLive call g := by
  rw [granted?_eq_findSome?, List.findSome?_eq_none_iff]
  exact forall₂_congr fun g _ => liveExposure?_eq_none_iff hc

end Core

end ApiExposure
