import ApiExposure.Proofs.Discovery.Exact

/-!
# What is allowed is found

The check of a call and discovery look for live grants in ways of their own: one
goes from the exposures of a name and version to the grants, the other from the
stored APIs to the profiles that grants are held for. Whatever the check allows,
discovery shows: the API of the grant that decides is found with the profile of
the exposer, by criteria that name what the call names or less. The converse does
not hold, since discovery knows neither revocations nor expiries.
-/

namespace ApiExposure

namespace Criteria

/-- What a call names, as criteria. -/
def ofCall (call : Call) : Criteria where
  name := call.apiName
  version := call.version
  exposer := call.exposer

/-- Criteria ask for nothing but what a call names. -/
structure Within (c : Criteria) (call : Call) : Prop where
  /-- The name is that of the call. -/
  name : ∀ n ∈ c.name, n = call.apiName
  /-- So is the version. -/
  version : ∀ n ∈ c.version, n = call.version
  /-- So is the exposing function. -/
  exposer : ∀ e ∈ c.exposer, e = call.exposer
  /-- No other field is set. -/
  rest : c = { name := c.name, version := c.version, exposer := c.exposer }

/-- Criteria that say nothing leave room for every call. -/
theorem within_empty (call : Call) : ({} : Criteria).Within call :=
  ⟨fun _ h => (nomatch h), fun _ h => (nomatch h), fun _ h => (nomatch h), rfl⟩

/-- The criteria of a call leave room for that call. -/
theorem within_ofCall (call : Call) : (ofCall call).Within call :=
  ⟨fun _ h => (Option.mem_some.mp h).symm, fun _ h => (Option.mem_some.mp h).symm,
    fun _ h => (Option.mem_some.mp h).symm, rfl⟩

namespace Within

variable {c : Criteria} {call : Call}

/-- They are satisfied by an API with the name and the version. -/
theorem fitsApi (h : c.Within call) {a : PublishedApi} (hname : a.name = call.apiName)
    {v : ApiVersion} (hv : v ∈ a.description.versions) (hversion : v.name = call.version) :
    c.FitsApi a := by
  obtain ⟨hn, hw, _, hrest⟩ := h
  have hcommType : c.commType = none := by rw [hrest]
  have hcategory : c.category = none := by rw [hrest]
  have hfeatures : c.features = none := by rw [hrest]
  have hapiFeatures : c.apiFeatures = none := by rw [hrest]
  refine ⟨fun n hn' => hname.trans (hn n hn').symm, ?_, fun n hn' => ?_, ?_, ?_, ?_⟩
  · simp [hcategory]
  · exact ⟨v, hv, hversion.trans (hw n hn').symm, by simp [hcommType]⟩
  · simp [hcommType]
  · simp [hfeatures, Provides]
  · simp [hapiFeatures, Provides]

/-- They are satisfied by a profile of the exposing function. -/
theorem fitsProfile (h : c.Within call) {p : Profile} (hp : p.exposer = call.exposer) :
    c.FitsProfile p := by
  obtain ⟨_, _, he, hrest⟩ := h
  have hprotocol : c.protocol = none := by rw [hrest]
  have hformat : c.dataFormat = none := by rw [hrest]
  have hlocation : c.location = none := by rw [hrest]
  refine ⟨fun e he' => hp.trans (he e he').symm, ?_, ?_, ?_⟩
  · simp [hprotocol]
  · simp [hformat]
  · simp [hlocation]

end Within

end Criteria

namespace Core

/-- By criteria the invoker of a call finds an API of the name that lists the version and has a
profile of the exposer. -/
def Finds (c : Core) (call : Call) (criteria : Criteria) : Prop :=
  ∃ found, c.discover call.invoker criteria = .ok found ∧ ∃ b ∈ found, b.name = call.apiName ∧
    (∃ v ∈ b.description.versions, v.name = call.version) ∧ call.exposer ∈ b.description.exposers

variable {c : Core} {call : Call} {grants : List Grant} {criteria : Criteria}

/-- The API of a held grant that is live for a call is disclosed, and of its profiles that of the
exposer is shown. -/
theorem LiveFor.discloses (hcriteria : criteria.Within call) {g : Grant} (hg : g ∈ grants)
    {a : PublishedApi} {v : ApiVersion} (hid : a.id = g.api) (h : c.LiveFor call g a v) :
    c.Discloses grants criteria g.api a ∧
      call.exposer ∈ (c.shown grants criteria a).description.exposers := by
  obtain ⟨p, hp, hexposer⟩ := ApiDescription.mem_exposers.mp h.exposed
  have hshows : c.Shows grants criteria a p := by
    refine ⟨hcriteria.fitsProfile hexposer, ?_, g, hg, hid.symm, ?_⟩
    · rw [hexposer]
      exact h.exposer
    · rw [hexposer]
      exact h.covers.1
  refine ⟨⟨h.stored, hcriteria.fitsApi h.name h.listed h.version, h.publisher, p, hp, hshows⟩, ?_⟩
  have hshown : p ∈ (c.shown grants criteria a).description.profiles :=
    List.mem_filter.mpr ⟨hp, decide_eq_true hshows⟩
  exact ApiDescription.mem_exposers.mpr ⟨p, hshown, hexposer⟩

/-- What the check allows is found by criteria that ask for nothing but what the call names. -/
theorem finds_of_allow (hc : c.store.WellFormed) {now : Instant}
    (h : c.check call now = .ok .allow) (hcriteria : criteria.Within call) :
    c.Finds call criteria := by
  have hb : call.hasBlank = false := by
    by_contra hb
    rw [check_of_hasBlank (by simpa using hb)] at h
    cases h
  obtain ⟨d, hd, hdue⟩ := exists_due hc hb now
  obtain rfl : d = .allow := Except.ok.inj (hd.symm.trans h)
  cases hdue with
  | @allow i g a v hi hfirst _ _ =>
    have hid : a.id = g.api := (hc g.api a hfirst.live.stored).own
    obtain ⟨hdiscloses, hexposer⟩ := hfirst.live.discloses hcriteria hfirst.mem hid
    exact ⟨_, discover_eq_found hi criteria, c.shown i.grants criteria a,
      (mem_found_iff hc).mpr ⟨g.api, a, hdiscloses, rfl⟩, hfirst.live.name,
      ⟨v, hfirst.live.listed, hfirst.live.version⟩, hexposer⟩

end Core

namespace System

/-- In every state that may be seen, authorization is never wider than discovery: the invoker of
a call that is allowed at any time finds an API for it, without criteria and by the name, version
and exposer of the call. -/
theorem allowed_is_found {s : System} (hs : s.Seen) {call : Call} {now : Instant}
    (h : s.core.check call now = .ok .allow) :
    s.core.Finds call {} ∧ s.core.Finds call (.ofCall call) :=
  have hc := hs.tracked_and_wellFormed.2
  ⟨Core.finds_of_allow hc h (Criteria.within_empty call),
    Core.finds_of_allow hc h (Criteria.within_ofCall call)⟩

/-- The sample call is allowed, and what it is for is found. -/
theorem allowed_is_found_sample :
    ∃ s, Seen s ∧ s.core.check sampleCall default = .ok .allow ∧
      s.core.Finds sampleCall {} ∧ s.core.Finds sampleCall (.ofCall sampleCall) := by
  have hcheck : (fresh.run sampleGranting).map (fun s => s.core.check sampleCall default) =
      some (.ok .allow) := rfl
  obtain ⟨s, hs, hallow⟩ := Option.map_eq_some_iff.mp hcheck
  exact ⟨s, seen_run hs, hallow, allowed_is_found (seen_run hs) hallow⟩

end System

end ApiExposure
