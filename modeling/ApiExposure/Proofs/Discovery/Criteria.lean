import ApiExposure.Proofs.Authorization.Liveness

/-!
# What criteria ask for

What it takes to satisfy criteria is said here field by field: a field that is
set has to be met, and one that is not set asks for nothing. A version and a kind
of communication that are both set have to be met by one version. The matching
of an API is exact when no version name comes twice, as in the store; that of a
profile always is.
-/

namespace ApiExposure

namespace Criteria

/-- What is advertised provides the features asked for. Where nothing is advertised, only a
request for no feature at all is met. -/
def Provides (advertised requested : Option Features) : Prop :=
  ∀ r ∈ requested, (∀ a ∈ advertised, a.covers r = true) ∧ (advertised = none → r.isEmpty = true)

/-- An API satisfies what criteria ask of the API as a whole. -/
structure FitsApi (c : Criteria) (a : PublishedApi) : Prop where
  /-- It has the name. -/
  name : ∀ n ∈ c.name, a.name = n
  /-- It is of the category. -/
  category : ∀ k ∈ c.category, a.description.category = some k
  /-- It has the version, and this version communicates as asked. -/
  version : ∀ n ∈ c.version,
    ∃ v ∈ a.description.versions, v.name = n ∧ ∀ t ∈ c.commType, v.supports t = true
  /-- Some version communicates as asked. -/
  commType : ∀ t ∈ c.commType, ∃ v ∈ a.description.versions, v.supports t = true
  /-- It has the features. -/
  features : Provides a.description.features c.features
  /-- It has the features of the API itself. -/
  apiFeatures : Provides a.description.apiFeatures c.apiFeatures

/-- A profile satisfies what criteria ask of one profile. -/
structure FitsProfile (c : Criteria) (p : Profile) : Prop where
  /-- It is of the exposing function. -/
  exposer : ∀ e ∈ c.exposer, p.exposer = e
  /-- It speaks the protocol. -/
  protocol : ∀ q ∈ c.protocol, p.protocol = some q
  /-- It uses the data format. -/
  dataFormat : ∀ f ∈ c.dataFormat, p.dataFormat = some f
  /-- It has a location that agrees with the example. -/
  location : ∀ l ∈ c.location, ∃ k ∈ p.location, k.satisfies l = true

variable {c : Criteria} {a : PublishedApi}

/-- The test of features asks whether what is advertised provides those asked for. -/
theorem coversRequest_iff {advertised requested : Option Features} :
    coversRequest advertised requested = true ↔ Provides advertised requested := by
  cases advertised <;> cases requested <;> simp [coversRequest, Provides]

/-- A version matches when the one asked for communicates as asked, or any one does where none
is asked for. -/
theorem matchesVersion_iff (ha : a.description.Sound) :
    c.matchesVersion a = true ↔
      (∀ n ∈ c.version,
        ∃ v ∈ a.description.versions, v.name = n ∧ ∀ t ∈ c.commType, v.supports t = true) ∧
      ∀ t ∈ c.commType, ∃ v ∈ a.description.versions, v.supports t = true := by
  unfold matchesVersion
  cases hn : c.version with
  | none => cases c.commType <;> simp
  | some n =>
    simp only [Option.any_eq_true, PublishedApi.version?_eq_some_iff ha, Option.all_eq_true,
      Option.mem_some_iff, forall_eq']
    constructor
    · rintro ⟨v, ⟨hv, hname⟩, hsupports⟩
      exact ⟨⟨v, hv, hname, hsupports⟩, fun t ht => ⟨v, hv, hsupports t ht⟩⟩
    · rintro ⟨⟨v, hv, hname, hsupports⟩, _⟩
      exact ⟨v, ⟨hv, hname⟩, hsupports⟩

/-- An API with a sound description matches criteria exactly when it satisfies them. -/
theorem matchesApi_iff (ha : a.description.Sound) : c.matchesApi a = true ↔ c.FitsApi a := by
  simp only [matchesApi, Bool.and_eq_true, matchesVersion_iff ha, coversRequest_iff,
    Option.all_eq_true, beq_iff_eq]
  constructor
  · rintro ⟨⟨⟨⟨hname, hcategory⟩, hversion, hcommType⟩, hfeatures⟩, hapiFeatures⟩
    exact ⟨fun n hn => (hname n hn).symm, hcategory, hversion, hcommType, hfeatures, hapiFeatures⟩
  · rintro ⟨hname, hcategory, hversion, hcommType, hfeatures, hapiFeatures⟩
    exact ⟨⟨⟨⟨fun n hn => (hname n hn).symm, hcategory⟩, hversion, hcommType⟩, hfeatures⟩,
      hapiFeatures⟩

/-- A profile matches criteria exactly when it satisfies them. -/
theorem matchesProfile_iff {p : Profile} : c.matchesProfile p = true ↔ c.FitsProfile p := by
  simp only [matchesProfile, Bool.and_eq_true, Option.all_eq_true, Option.any_eq_true,
    beq_iff_eq]
  constructor
  · rintro ⟨⟨⟨hexposer, hprotocol⟩, hformat⟩, hlocation⟩
    exact ⟨fun e he => (hexposer e he).symm, hprotocol, hformat, hlocation⟩
  · rintro ⟨hexposer, hprotocol, hformat, hlocation⟩
    exact ⟨⟨⟨fun e he => (hexposer e he).symm, hprotocol⟩, hformat⟩, hlocation⟩

instance (p : Profile) : Decidable (c.FitsProfile p) := decidable_of_iff _ matchesProfile_iff

end Criteria

end ApiExposure
