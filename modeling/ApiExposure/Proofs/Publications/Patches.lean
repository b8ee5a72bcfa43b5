import ApiExposure.Proofs.Publications.Removal
import ApiExposure.Proofs.Registry.Table
import ApiExposure.Proofs.WriteBack.Repeats

/-!
# What a patch does to an API

A patch of an API is looked at on its own, then the API is looked up for its
publisher, and then the two are compared. What comes of a patch that is admitted
is said field by field. As lists are replaced as a whole, patches compose like
overlays: the second one wins where both provide a field. Whether a patch is
admitted does not depend on what it changes, so a patch can be repeated, and two
patches that are applied one after the other can be applied as one.
-/

namespace ApiExposure

namespace ApiPatch

/-- A patch with the fields of another one where that one provides them. -/
def overriddenBy (p q : ApiPatch) : ApiPatch where
  name := q.name.or p.name
  description := q.description.or p.description
  profiles := q.profiles.or p.profiles
  versions := q.versions.or p.versions
  features := q.features.or p.features
  apiFeatures := q.apiFeatures.or p.apiFeatures
  category := q.category.or p.category
  framework := q.framework.or p.framework

/-- What a patch provides is in order. -/
structure Sound (p : ApiPatch) : Prop where
  /-- The name is not blank. -/
  named : ∀ name, p.name = some name → Text.isBlank name = false
  /-- The profiles are in order. -/
  profiles : ∀ ps, p.profiles = some ps → Profile.AllSound ps
  /-- The versions are in order. -/
  versions : ∀ vs, p.versions = some vs → ApiVersion.AllSound vs

variable {p q : ApiPatch}

/-- A patch passes exactly when what it provides is in order. -/
theorem validate_eq_ok_iff : p.validate = .ok () ↔ p.Sound := by
  constructor
  · intro h
    obtain ⟨hprofiles, hversions⟩ := lists_sound_of_validate h
    refine ⟨fun name hname => ?_, hprofiles, hversions⟩
    have hnamed := require_eq_ok_iff.mp (Outcome.andThen_eq_ok_iff.mp h).1
    simpa [hname] using hnamed
  · intro h
    have hname : require (!p.name.any Text.isBlank) .blankApiName = .ok () := by
      refine require_eq_ok_iff.mpr ?_
      cases hname : p.name with
      | none => rfl
      | some name => simp [h.named name hname]
    refine Outcome.andThen_eq_ok_iff.mpr ⟨hname, ?_⟩
    have hprofiles ps (hps : p.profiles = some ps) : ApiDescription.checkProfiles ps = .ok () :=
      ApiDescription.checkProfiles_eq_ok_iff.mpr (h.profiles ps hps)
    have hversions vs (hvs : p.versions = some vs) : ApiDescription.checkVersions vs [] = .ok () :=
      ApiDescription.checkVersions_nil_eq_ok_iff.mpr (h.versions vs hvs)
    cases hps : p.profiles <;> cases hvs : p.versions
    · rfl
    · exact hversions _ hvs
    · exact Outcome.andThen_eq_ok_iff.mpr ⟨hprofiles _ hps, rfl⟩
    · exact Outcome.andThen_eq_ok_iff.mpr ⟨hprofiles _ hps, hversions _ hvs⟩

/-- Patches that are in order are so together. -/
theorem Sound.overriddenBy (hp : p.Sound) (hq : q.Sound) : (p.overriddenBy q).Sound where
  named name h := (Option.or_eq_some_iff.mp h).elim (hq.named name) fun h => hp.named name h.2
  profiles ps h := (Option.or_eq_some_iff.mp h).elim (hq.profiles ps) fun h => hp.profiles ps h.2
  versions vs h := (Option.or_eq_some_iff.mp h).elim (hq.versions vs) fun h => hp.versions vs h.2

end ApiPatch

namespace PublishedApi

variable {a b : PublishedApi} {p q : ApiPatch} {now later : Instant}

/-- One API is another one after a patch: what the patch provides is new, and the rest is as it was
but for the time of the last change. -/
structure PatchedTo (a : PublishedApi) (p : ApiPatch) (now : Instant) (b : PublishedApi) :
    Prop where
  /-- The identifier stays. -/
  id : b.id = a.id
  /-- The publisher stays. -/
  publisher : b.publisher = a.publisher
  /-- The name stays. -/
  name : b.description.name = a.description.name
  /-- The text is the given one, if there is one. -/
  description : b.description.description = p.description.or a.description.description
  /-- The profiles are the given ones, if there are any. -/
  profiles : b.description.profiles = p.profiles.getD a.description.profiles
  /-- The versions are the given ones, if there are any. -/
  versions : b.description.versions = p.versions.getD a.description.versions
  /-- The features are the given ones, if there are any. -/
  features : b.description.features = p.features.or a.description.features
  /-- So are those of the API itself. -/
  apiFeatures : b.description.apiFeatures = p.apiFeatures.or a.description.apiFeatures
  /-- The category is the given one, if there is one. -/
  category : b.description.category = p.category.or a.description.category
  /-- So is the framework. -/
  framework : b.description.framework = p.framework.or a.description.framework
  /-- The time of the publication stays. -/
  publishedAt : b.publishedAt = a.publishedAt
  /-- The time of the last change is set. -/
  updatedAt : b.updatedAt = now

/-- A patch that is applied has replaced what it brings and nothing else. -/
theorem patchedTo_apply (a : PublishedApi) (p : ApiPatch) (now : Instant) :
    a.PatchedTo p now (a.apply p now) :=
  ⟨rfl, rfl, rfl, rfl, rfl, rfl, rfl, rfl, rfl, rfl, rfl, rfl⟩

/-- Patches that follow one another are one patch. -/
theorem apply_apply (a : PublishedApi) (p q : ApiPatch) (now later : Instant) :
    (a.apply p now).apply q later = a.apply (p.overriddenBy q) later := by
  simp only [apply, ApiPatch.overriddenBy, Option.or_assoc, Option.getD_or]

/-- A patch that is applied again sets the time. -/
theorem apply_apply_self (a : PublishedApi) (p : ApiPatch) (now later : Instant) :
    (a.apply p now).apply p later = { a.apply p now with updatedAt := later } := by
  simp only [apply_apply, ApiPatch.overriddenBy, Option.or_self]
  rfl

/-- A patch may be checked against the name of an API. -/
theorem checkRename_eq_ok_iff :
    a.checkRename p = .ok () ↔ ∀ name, p.name = some name → name = a.name := by
  unfold checkRename
  cases p.name with
  | none => simp
  | some name => simp [require_eq_ok_iff]

end PublishedApi

namespace Core

/-- A patch of an API is admitted: it is in order, and it is for the API of the publisher. -/
structure AdmitsPatch (c : Core) (publisher : FunctionId) (id : ApiId) (p : ApiPatch)
    (a : PublishedApi) : Prop where
  /-- What the patch provides is in order. -/
  sound : p.Sound
  /-- The API is stored. -/
  stored : c.store.apis.get? id = some a
  /-- It is an API of the publisher. -/
  publisher : a.publisher = publisher
  /-- The name is at most repeated. -/
  name : ∀ name, p.name = some name → name = a.name
  /-- The exposers are registered as such. -/
  exposers : ∀ ps, p.profiles = some ps → ∀ profile ∈ ps,
    c.providers.roleOf profile.exposer = some .exposer

/-- A patch of an API succeeds: it leaves a state, makes the API known as it is afterwards and
returns it. -/
def AppliesPatch (c : Core) (publisher : FunctionId) (id : ApiId) (p : ApiPatch) (now : Instant)
    (b : PublishedApi) (after : Core) : Prop :=
  c.updateApi publisher id p now =
    .announce after (.ofApi .apiUpdated b) (fun found => .done found (.ok b))

/-- Nothing is changed but one API in its place. -/
structure ChangesApi (c : Core) (id : ApiId) (b : PublishedApi) (after : Core) : Prop where
  /-- The API is stored as it is. -/
  stored : after.store.apis.get? id = some b
  /-- All APIs are in their places, and the others are as they were. -/
  apis : after.store.apis.entries =
    c.store.apis.entries.map (fun e => if e.1 = id then (id, b) else e)
  /-- Nothing else is changed. -/
  rest : after = { c with store := { c.store with apis := after.store.apis } }

/-- The core with an API patched. -/
def patchApi (c : Core) (id : ApiId) (p : ApiPatch) (now : Instant) : Core :=
  { c with store := { c.store with apis := c.store.apis.modify id (·.apply p now) } }

variable {c after : Core} {publisher : FunctionId} {id : ApiId} {p q : ApiPatch}
  {a b : PublishedApi} {now : Instant}

/-- The exposers of a patch are those of the profiles that it provides. -/
theorem forall_exposers_iff {P : FunctionId → Prop} :
    (∀ e ∈ p.exposers, P e) ↔ ∀ ps, p.profiles = some ps → ∀ profile ∈ ps, P profile.exposer := by
  rw [ApiPatch.exposers]
  cases p.profiles <;> simp

/-- The store applies the patches that are admitted. -/
theorem updateFor_eq_ok_iff {t : Publications} :
    c.store.updateFor c.providers publisher id p now = .ok (b, t) ↔
      ∃ a, c.AdmitsPatch publisher id p a ∧ b = a.apply p now ∧ t = c.store.replace b := by
  constructor
  · intro h
    obtain ⟨hsound, h⟩ := Outcome.andThen_eq_ok_iff.mp h
    obtain ⟨a, ha, h⟩ := Outcome.bind_eq_ok_iff.mp h
    obtain ⟨hname, h⟩ := Outcome.andThen_eq_ok_iff.mp h
    obtain ⟨hexposers, h⟩ := Outcome.andThen_eq_ok_iff.mp h
    cases h
    obtain ⟨ha, hpublisher⟩ := Publications.getFor_eq_ok_iff.mp ha
    exact ⟨a, ⟨ApiPatch.validate_eq_ok_iff.mp hsound, ha, hpublisher,
      PublishedApi.checkRename_eq_ok_iff.mp hname,
      forall_exposers_iff.mp (Providers.requireExposers_eq_ok_iff.mp hexposers)⟩, rfl, rfl⟩
  · rintro ⟨a, ha, rfl, rfl⟩
    exact Outcome.andThen_eq_ok_iff.mpr ⟨ApiPatch.validate_eq_ok_iff.mpr ha.sound,
      Outcome.bind_eq_ok_iff.mpr ⟨a, Publications.getFor_eq_ok_iff.mpr ⟨ha.stored, ha.publisher⟩,
        Outcome.andThen_eq_ok_iff.mpr ⟨PublishedApi.checkRename_eq_ok_iff.mpr ha.name,
          Outcome.andThen_eq_ok_iff.mpr ⟨Providers.requireExposers_eq_ok_iff.mpr
            (forall_exposers_iff.mpr ha.exposers), rfl⟩⟩⟩⟩

/-- A patch that is not admitted fails and changes nothing. -/
theorem updateApi_of_not_admits (h : ¬ ∃ a, c.AdmitsPatch publisher id p a) (now : Instant) :
    ∃ f, c.updateApi publisher id p now = .done c (.error f) := by
  unfold updateApi
  cases hu : c.store.updateFor c.providers publisher id p now with
  | error f => exact ⟨f, rfl⟩
  | ok r =>
    obtain ⟨a, ha, _⟩ := updateFor_eq_ok_iff.mp hu
    exact absurd ⟨a, ha⟩ h

/-- Putting a patched API in its place is patching it there. -/
theorem AdmitsPatch.replace_eq (hc : c.store.WellFormed) (ha : c.AdmitsPatch publisher id p a)
    (now : Instant) :
    { c with store := c.store.replace (a.apply p now) } = c.patchApi id p now := by
  have hid : (a.apply p now).id = id := (hc id a ha.stored).own
  rw [Publications.replace, hid, Table.insert_eq_modify ha.stored (·.apply p now), patchApi]

/-- A patch succeeds exactly when it is admitted, and then the API is patched in its place. -/
theorem appliesPatch_iff (hc : c.store.WellFormed) :
    c.AppliesPatch publisher id p now b after ↔
      ∃ a, c.AdmitsPatch publisher id p a ∧ b = a.apply p now ∧ after = c.patchApi id p now := by
  unfold AppliesPatch updateApi
  constructor
  · intro h
    cases hu : c.store.updateFor c.providers publisher id p now with
    | error f =>
      rw [hu] at h
      cases h
    | ok r =>
      rw [hu] at h
      obtain ⟨held, store⟩ := r
      injection h with hstate _ hresume
      injection congrFun hresume c with _ hresult
      obtain rfl : held = b := Except.ok.inj hresult
      obtain ⟨a, ha, rfl, rfl⟩ := updateFor_eq_ok_iff.mp hu
      exact ⟨a, ha, rfl, hstate.symm.trans (ha.replace_eq hc now)⟩
  · rintro ⟨a, ha, rfl, rfl⟩
    rw [updateFor_eq_ok_iff.mpr ⟨a, ha, rfl, rfl⟩]
    dsimp only
    rw [ha.replace_eq hc]

/-- An API that is patched is changed in its place. -/
theorem changesApi_patchApi (ha : c.store.apis.get? id = some a) (p : ApiPatch) (now : Instant) :
    c.ChangesApi id (a.apply p now) (c.patchApi id p now) where
  stored := Table.get?_modify_self ha _
  apis := by
    rw [patchApi, ← Table.insert_eq_modify ha, Table.entries_insert_of_get? ha]
  rest := rfl

/-- A patch leaves the store well-formed, -/
theorem AdmitsPatch.wellFormed (hc : c.store.WellFormed) (ha : c.AdmitsPatch publisher id p a)
    (now : Instant) : (c.patchApi id p now).store.WellFormed := by
  rw [← ha.replace_eq hc]
  exact hc.updateFor (updateFor_eq_ok_iff.mpr ⟨a, ha, rfl, rfl⟩)

/-- and the same patches are admitted after it as before. -/
theorem admitsPatch_patchApi_iff (ha : c.store.apis.get? id = some a) :
    (c.patchApi id q now).AdmitsPatch publisher id p (a.apply q now) ↔
      c.AdmitsPatch publisher id p a :=
  ⟨fun h => ⟨h.sound, ha, h.publisher, h.name, h.exposers⟩,
    fun h => ⟨h.sound, Table.get?_modify_self ha _, h.publisher, h.name, h.exposers⟩⟩

/-- Patches that are admitted are admitted as one. -/
theorem AdmitsPatch.overriddenBy (hp : c.AdmitsPatch publisher id p a)
    (hq : c.AdmitsPatch publisher id q a) :
    c.AdmitsPatch publisher id (p.overriddenBy q) a where
  sound := hp.sound.overriddenBy hq.sound
  stored := hp.stored
  publisher := hp.publisher
  name name h := (Option.or_eq_some_iff.mp h).elim (hq.name name) fun h => hp.name name h.2
  exposers ps h :=
    (Option.or_eq_some_iff.mp h).elim (hq.exposers ps) fun h => hp.exposers ps h.2

/-- Two patches leave what they leave as one. -/
theorem patchApi_patchApi (c : Core) (id : ApiId) (p q : ApiPatch) (now later : Instant) :
    (c.patchApi id p now).patchApi id q later = c.patchApi id (p.overriddenBy q) later := by
  simp only [patchApi, Table.modify_modify, PublishedApi.apply_apply]

/-- The time of a patch shows only in the time of the last change. -/
theorem touchApi_patchApi (c : Core) (id : ApiId) (p : ApiPatch) (now later : Instant) :
    (c.patchApi id p now).touchApi id later = c.patchApi id p later := by
  simp only [patchApi, touchApi, Table.modify_modify]
  rfl

end Core

namespace System

variable {s : System}

/-- Patches of APIs are exact. In every state that may be seen, a patch succeeds exactly when it is
admitted, and it changes nothing when it fails. When it succeeds, the API that was stored has
exactly the fields that the patch provides and the time set, in its place; it is what is returned,
and nothing else is changed. The same patch can be applied again and changes the time only. And when
another patch can be applied afterwards, then the one with the fields of both can be applied at
once, with the same end but for the time. -/
theorem api_patch_exact (hs : s.Seen) (publisher : FunctionId) (id : ApiId) (p : ApiPatch)
    (now : Instant) :
    ((∃ b after, s.core.AppliesPatch publisher id p now b after) ↔
      ∃ a, s.core.AdmitsPatch publisher id p a) ∧
    ((¬ ∃ a, s.core.AdmitsPatch publisher id p a) →
      ∃ f, s.core.updateApi publisher id p now = .done s.core (.error f)) ∧
    ∀ b after, s.core.AppliesPatch publisher id p now b after →
      (∃ a, s.core.store.apis.get? id = some a ∧ a.PatchedTo p now b) ∧
      s.core.ChangesApi id b after ∧
      (∀ later, after.AppliesPatch publisher id p later { b with updatedAt := later }
        (after.touchApi id later)) ∧
      ∀ q later e last, after.AppliesPatch publisher id q later e last → ∀ once,
        s.core.AppliesPatch publisher id (p.overriddenBy q) once { e with updatedAt := once }
          (last.touchApi id once) := by
  have hc : s.core.store.WellFormed := hs.tracked_and_wellFormed.2
  refine ⟨⟨?_, ?_⟩, fun hnot => Core.updateApi_of_not_admits hnot now, ?_⟩
  · rintro ⟨b, after, h⟩
    obtain ⟨a, ha, _⟩ := (Core.appliesPatch_iff hc).mp h
    exact ⟨a, ha⟩
  · rintro ⟨a, ha⟩
    exact ⟨_, _, (Core.appliesPatch_iff hc).mpr ⟨a, ha, rfl, rfl⟩⟩
  · intro b after h
    obtain ⟨a, ha, rfl, rfl⟩ := (Core.appliesPatch_iff hc).mp h
    have hc' := ha.wellFormed hc now
    refine ⟨⟨a, ha.stored, a.patchedTo_apply p now⟩, Core.changesApi_patchApi ha.stored p now,
      fun later => ?_, fun q later e last h' once => ?_⟩
    · refine (Core.appliesPatch_iff hc').mpr
        ⟨_, (Core.admitsPatch_patchApi_iff ha.stored).mpr ha, ?_, ?_⟩
      · exact (a.apply_apply_self p now later).symm
      · rw [Core.touchApi_patchApi, Core.patchApi_patchApi]
        simp only [ApiPatch.overriddenBy, Option.or_self]
    · obtain ⟨a', ha', rfl, rfl⟩ := (Core.appliesPatch_iff hc').mp h'
      obtain rfl : a.apply p now = a' :=
        Option.some.inj ((Table.get?_modify_self ha.stored _).symm.trans ha'.stored)
      have hq : s.core.AdmitsPatch publisher id q a :=
        (Core.admitsPatch_patchApi_iff ha.stored).mp ha'
      refine (Core.appliesPatch_iff hc).mpr ⟨a, ha.overriddenBy hq, ?_, ?_⟩
      · rw [PublishedApi.apply_apply]
        rfl
      · rw [Core.patchApi_patchApi, Core.touchApi_patchApi]

/-- A patch that gives an API a text. -/
def describingPatch : ApiPatch := { description := some "streets" }

/-- A patch that gives it another one and a category. -/
def filingPatch : ApiPatch := { description := some "roads", category := some "travel" }

/-- A patch that gives it another name. -/
def renamingPatch : ApiPatch := { name := some "roads" }

/-- The sample API can be described and filed, also by one patch, but not renamed. -/
theorem api_patch_exact_sample :
    ∃ (s : System) (b e : PublishedApi) (after last : Core), s.Seen ∧
      s.core.AppliesPatch samplePublisher (.generate "b") describingPatch default b after ∧
      b.description.description = some "streets" ∧
      after.AppliesPatch samplePublisher (.generate "b") filingPatch default e last ∧
      s.core.AppliesPatch samplePublisher (.generate "b")
        ⟨none, some "roads", none, none, none, none, some "travel", none⟩ default
        { e with updatedAt := default } (last.touchApi (.generate "b") default) ∧
      ∃ f, s.core.updateApi samplePublisher (.generate "b") renamingPatch default =
        .done s.core (.error f) := by
  have hrun : (fresh.run sampleSchedule).bind (fun s =>
      (s.core.store.apis.get? (.generate "b")).map (fun a => (a.publisher, a.name))) =
      some (samplePublisher, "maps") := rfl
  obtain ⟨s, hs, hrun⟩ := Option.bind_eq_some_iff.mp hrun
  obtain ⟨a, ha, hheld⟩ := Option.map_eq_some_iff.mp hrun
  obtain ⟨hpublisher, hname⟩ := Prod.mk.inj hheld
  have hseen := seen_run hs
  have hadmits (p : ApiPatch) (hn : p.name = none) (hp : p.profiles = none)
      (hv : p.versions = none) : s.core.AdmitsPatch samplePublisher (.generate "b") p a :=
    ⟨⟨by simp [hn], by simp [hp], by simp [hv]⟩, ha, hpublisher, by simp [hn], by simp [hp]⟩
  have hdescribing := hadmits describingPatch rfl rfl rfl
  obtain ⟨hiff, _, hexact⟩ :=
    api_patch_exact hseen samplePublisher (.generate "b") describingPatch default
  obtain ⟨b, after, happlies⟩ := hiff.mpr ⟨a, hdescribing⟩
  obtain ⟨⟨a', _, hpatched⟩, _, _, hcomposed⟩ := hexact b after happlies
  have hfiled : ∃ e last,
      after.AppliesPatch samplePublisher (.generate "b") filingPatch default e last := by
    have hc := hseen.tracked_and_wellFormed.2
    obtain ⟨a', ha', _, rfl⟩ := (Core.appliesPatch_iff hc).mp happlies
    exact ⟨_, _, (Core.appliesPatch_iff (ha'.wellFormed hc default)).mpr
      ⟨_, (Core.admitsPatch_patchApi_iff ha).mpr (hadmits filingPatch rfl rfl rfl), rfl, rfl⟩⟩
  obtain ⟨e, last, hfiled⟩ := hfiled
  have hrenaming : ¬ ∃ a, s.core.AdmitsPatch samplePublisher (.generate "b") renamingPatch a := by
    rintro ⟨held, hheld⟩
    obtain rfl : a = held := Option.some.inj (ha.symm.trans hheld.stored)
    exact absurd ((hheld.name "roads" rfl).trans hname) (by decide)
  exact ⟨s, b, e, after, last, hseen, happlies, hpatched.description, hfiled,
    hcomposed filingPatch default e last hfiled default,
    (api_patch_exact hseen samplePublisher (.generate "b") renamingPatch default).2.1 hrenaming⟩

end System

end ApiExposure
