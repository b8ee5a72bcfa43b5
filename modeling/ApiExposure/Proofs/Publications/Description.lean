import Mathlib.Data.List.Nodup
import ApiExposure.Registry.Publications

/-!
# What a checked description is like

The checks of a description read off one profile or version after the other.
Together they say: a name that is not blank, at least one profile, profiles of
distinct exposers and versions of distinct names, none of them blank. A patch
that passed its checks keeps a description so, and so does the removal of
profiles as long as one is left.
-/

namespace ApiExposure

/-- Profiles of distinct exposers, none of them blank. -/
structure Profile.AllSound (ps : List Profile) : Prop where
  /-- There is a profile. -/
  nonempty : ps ≠ []
  /-- No exposer is blank. -/
  named : ∀ p ∈ ps, Text.isBlank p.exposer.text = false
  /-- No exposer comes twice. -/
  distinct : (ps.map (·.exposer)).Nodup

/-- Versions of distinct names, none of them blank. -/
structure ApiVersion.AllSound (vs : List ApiVersion) : Prop where
  /-- No name is blank. -/
  named : ∀ v ∈ vs, Text.isBlank v.name = false
  /-- No name comes twice. -/
  distinct : (vs.map (·.name)).Nodup

namespace ApiDescription

/-- What a description has to be like. -/
structure Sound (d : ApiDescription) : Prop where
  /-- The name is not blank. -/
  named : Text.isBlank d.name = false
  /-- The profiles are in order. -/
  profiles : Profile.AllSound d.profiles
  /-- The versions are in order. -/
  versions : ApiVersion.AllSound d.versions

/-- The exposers of a description are those of its profiles. -/
theorem mem_exposers {d : ApiDescription} {e : FunctionId} :
    e ∈ d.exposers ↔ ∃ p ∈ d.profiles, p.exposer = e := List.mem_map

/-- The exposers pass with some already seen when none is blank, none was seen and none comes
twice. -/
theorem checkExposers_eq_ok_iff {ps : List Profile} {seen : List FunctionId} :
    checkExposers ps seen = .ok () ↔
      (∀ p ∈ ps, Text.isBlank p.exposer.text = false ∧ p.exposer ∉ seen) ∧
        (ps.map (·.exposer)).Nodup := by
  induction ps generalizing seen with
  | nil => simp [checkExposers]
  | cons p ps ih =>
    simp only [checkExposers, Outcome.andThen_eq_ok_iff, require_eq_ok_iff, ih,
      List.forall_mem_cons, List.map_cons, List.nodup_cons, List.mem_map, not_exists, not_and]
    constructor
    · rintro ⟨hb, hs, hps, hnodup⟩
      have hp : Text.isBlank p.exposer.text = false ∧ p.exposer ∉ seen := by
        simpa using And.intro hb hs
      refine ⟨⟨hp, fun q hq => ⟨(hps q hq).1, fun hm => ?_⟩⟩, ?_, hnodup⟩
      · exact (hps q hq).2 (List.mem_cons_of_mem _ hm)
      · exact fun q hq he => (hps q hq).2 (he ▸ List.mem_cons_self)
    · rintro ⟨⟨⟨hb, hs⟩, hps⟩, hne, hnodup⟩
      refine ⟨by simpa using hb, by simpa using hs, fun q hq => ⟨(hps q hq).1, ?_⟩, hnodup⟩
      rw [List.mem_cons, not_or]
      exact ⟨hne q hq, (hps q hq).2⟩

/-- The same for versions and their names. -/
theorem checkVersions_eq_ok_iff {vs : List ApiVersion} {seen : List String} :
    checkVersions vs seen = .ok () ↔
      (∀ v ∈ vs, Text.isBlank v.name = false ∧ v.name ∉ seen) ∧ (vs.map (·.name)).Nodup := by
  induction vs generalizing seen with
  | nil => simp [checkVersions]
  | cons v vs ih =>
    simp only [checkVersions, Outcome.andThen_eq_ok_iff, require_eq_ok_iff, ih,
      List.forall_mem_cons, List.map_cons, List.nodup_cons, List.mem_map, not_exists, not_and]
    constructor
    · rintro ⟨hb, hs, hvs, hnodup⟩
      have hv : Text.isBlank v.name = false ∧ v.name ∉ seen := by
        simpa using And.intro hb hs
      refine ⟨⟨hv, fun w hw => ⟨(hvs w hw).1, fun hm => ?_⟩⟩, ?_, hnodup⟩
      · exact (hvs w hw).2 (List.mem_cons_of_mem _ hm)
      · exact fun w hw he => (hvs w hw).2 (he ▸ List.mem_cons_self)
    · rintro ⟨⟨⟨hb, hs⟩, hvs⟩, hne, hnodup⟩
      refine ⟨by simpa using hb, by simpa using hs, fun w hw => ⟨(hvs w hw).1, ?_⟩, hnodup⟩
      rw [List.mem_cons, not_or]
      exact ⟨hne w hw, (hvs w hw).2⟩

/-- The check of profiles passes exactly the sound ones. -/
theorem checkProfiles_eq_ok_iff {ps : List Profile} :
    checkProfiles ps = .ok () ↔ Profile.AllSound ps := by
  simp only [checkProfiles, Outcome.andThen_eq_ok_iff, require_eq_ok_iff,
    checkExposers_eq_ok_iff]
  constructor
  · rintro ⟨hne, hps, hnodup⟩
    exact ⟨by simpa using hne, fun p hp => (hps p hp).1, hnodup⟩
  · rintro ⟨hne, hnamed, hnodup⟩
    exact ⟨by simpa using hne, fun p hp => ⟨hnamed p hp, List.not_mem_nil⟩, hnodup⟩

/-- The check of versions passes exactly the sound ones, when none were seen before. -/
theorem checkVersions_nil_eq_ok_iff {vs : List ApiVersion} :
    checkVersions vs [] = .ok () ↔ ApiVersion.AllSound vs := by
  rw [checkVersions_eq_ok_iff]
  exact ⟨fun h => ⟨fun v hv => (h.1 v hv).1, h.2⟩,
    fun h => ⟨fun v hv => ⟨h.named v hv, List.not_mem_nil⟩, h.distinct⟩⟩

/-- A description passes exactly when it is sound. -/
theorem validate_eq_ok_iff {d : ApiDescription} : d.validate = .ok () ↔ d.Sound := by
  simp only [validate, Outcome.andThen_eq_ok_iff, require_eq_ok_iff, checkProfiles_eq_ok_iff,
    checkVersions_nil_eq_ok_iff]
  constructor
  · rintro ⟨hname, hprofiles, hversions⟩
    exact ⟨by simpa using hname, hprofiles, hversions⟩
  · rintro ⟨hname, hprofiles, hversions⟩
    exact ⟨by simpa using hname, hprofiles, hversions⟩

end ApiDescription

namespace ApiPatch

/-- The lists that a checked patch brings are in order. -/
theorem lists_sound_of_validate {p : ApiPatch} (h : p.validate = .ok ()) :
    (∀ ps, p.profiles = some ps → Profile.AllSound ps) ∧
      ∀ vs, p.versions = some vs → ApiVersion.AllSound vs := by
  constructor
  · intro ps hp
    simp only [validate, hp, Outcome.andThen_eq_ok_iff] at h
    exact ApiDescription.checkProfiles_eq_ok_iff.mp h.2.1
  · intro vs hv
    have hvs : ApiDescription.checkVersions vs [] = .ok () := by
      cases hp : p.profiles <;> simp only [validate, hp, hv, Outcome.andThen_eq_ok_iff] at h
      · exact h.2.2
      · exact h.2.2
    exact ApiDescription.checkVersions_nil_eq_ok_iff.mp hvs

end ApiPatch

namespace PublishedApi

variable {a : PublishedApi}

/-- A checked patch keeps a description sound. -/
theorem apply_sound {p : ApiPatch} (now : Instant) (ha : a.description.Sound)
    (hp : p.validate = .ok ()) : (a.apply p now).description.Sound := by
  obtain ⟨hps, hvs⟩ := ApiPatch.lists_sound_of_validate hp
  refine ⟨ha.named, ?_, ?_⟩
  · change Profile.AllSound (p.profiles.getD a.description.profiles)
    cases h : p.profiles with
    | none => exact ha.profiles
    | some ps => exact hps ps h
  · change ApiVersion.AllSound (p.versions.getD a.description.versions)
    cases h : p.versions with
    | none => exact ha.versions
    | some vs => exact hvs vs h

/-- After a patch an API has the exposers of the patch, or those it had. -/
theorem mem_exposers_apply {p : ApiPatch} {now : Instant} {e : FunctionId}
    (he : e ∈ (a.apply p now).description.exposers) :
    e ∈ p.exposers ∨ e ∈ a.description.exposers := by
  change e ∈ (p.profiles.getD a.description.profiles).map (·.exposer) at he
  cases h : p.profiles with
  | none =>
    rw [h] at he
    exact .inr he
  | some ps =>
    rw [h] at he
    refine .inl ?_
    rw [ApiPatch.exposers, h]
    exact he

/-- Stripping leaves exactly the exposers that were not removed. -/
theorem mem_exposers_stripExposers {removed : List FunctionId} {now : Instant} {e : FunctionId} :
    e ∈ (a.stripExposers removed now).1.description.exposers ↔
      e ∈ a.description.exposers ∧ e ∉ removed := by
  simp only [ApiDescription.mem_exposers, stripExposers, List.mem_filter, Bool.not_eq_true',
    List.contains_eq_mem, decide_eq_false_iff_not]
  constructor
  · rintro ⟨p, ⟨hp, hr⟩, rfl⟩
    exact ⟨⟨p, hp, rfl⟩, hr⟩
  · rintro ⟨⟨p, hp, rfl⟩, hr⟩
    exact ⟨p, ⟨hp, hr⟩, rfl⟩

/-- Stripping keeps a description sound as long as a profile is left. -/
theorem stripExposers_sound {removed : List FunctionId} {now : Instant}
    (ha : a.description.Sound)
    (hne : (a.stripExposers removed now).1.description.profiles ≠ []) :
    (a.stripExposers removed now).1.description.Sound where
  named := ha.named
  versions := ha.versions
  profiles :=
    { nonempty := hne
      named := fun p hp => ha.profiles.named p (List.mem_of_mem_filter hp)
      distinct := ha.profiles.distinct.sublist (List.filter_sublist.map _) }

/-- An API that no removed function exposes stays as it is. -/
theorem stripExposers_eq_self {removed : List FunctionId} {now : Instant}
    (h : ∀ e ∈ a.description.exposers, e ∉ removed) : (a.stripExposers removed now).1 = a := by
  have hkept : a.description.profiles.filter (fun p => !removed.contains p.exposer) =
      a.description.profiles := by
    refine List.filter_eq_self.mpr fun p hp => ?_
    simpa using h p.exposer (ApiDescription.mem_exposers.mpr ⟨p, hp, rfl⟩)
  simp only [stripExposers, hkept, Nat.sub_self, gt_iff_lt, Nat.lt_irrefl, if_false]

end PublishedApi

end ApiExposure
