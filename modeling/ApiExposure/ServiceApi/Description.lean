import ApiExposure.Features
import ApiExposure.Grant
import ApiExposure.ServiceApi.Profile
import ApiExposure.ServiceApi.Version

/-!
# Published APIs

A publisher submits a description; once accepted it is kept as a published API
with an identifier and its publisher. A patch replaces the fields that it
provides and can repeat the name of the API but never change it. Descriptions
and patches are checked in the same way: a name that is not blank, profiles of
distinct exposers, versions of distinct names.
-/

namespace ApiExposure

/-- What a publisher says about an API. -/
structure ApiDescription where
  /-- Name of the API. -/
  name : String
  /-- Free text. -/
  description : Option String := none
  /-- Profiles of exposing functions. -/
  profiles : List Profile := []
  /-- Versions. -/
  versions : List ApiVersion := []
  /-- Features supported. -/
  features : Option Features := none
  /-- Features of the API itself. -/
  apiFeatures : Option Features := none
  /-- Category. -/
  category : Option String := none
  /-- Framework that the API belongs to. -/
  framework : Option String := none
  deriving Inhabited

namespace ApiDescription

/-- The fields in JSON. -/
def record : Record ApiDescription :=
  ApiDescription.mk <$> .required "apiName" .text <*> .optional "description" .text
    <*> .withDefault "aefProfiles" (.list Profile.decode) []
    <*> .withDefault "versions" (.list ApiVersion.decode) []
    <*> .optional "supportedFeatures" Features.decode
    <*> .optional "apiSuppFeats" Features.decode
    <*> .optional "serviceAPICategory" .text <*> .optional "ccfId" .text

/-- Reads a description from JSON. -/
def decode : Decoder ApiDescription := record.decode

/-- The members of the JSON form. -/
def members (d : ApiDescription) : List (List (String × Json)) := [
  Json.member "apiName" (.str d.name),
  Json.optionalMember "description" .str d.description,
  Json.member "aefProfiles" (.ofList Profile.toJson d.profiles),
  Json.member "versions" (.ofList ApiVersion.toJson d.versions),
  Json.optionalMember "supportedFeatures" Features.toJson d.features,
  Json.optionalMember "apiSuppFeats" Features.toJson d.apiFeatures,
  Json.optionalMember "serviceAPICategory" .str d.category,
  Json.optionalMember "ccfId" .str d.framework]

/-- The JSON form. -/
def toJson (d : ApiDescription) : Json := .ofGroups d.members

instance : JsonForm ApiDescription := ⟨decode, toJson⟩

/-- Checks that no exposer is blank or comes twice. -/
def checkExposers : List Profile → List FunctionId → Outcome Unit
  | [], _ => .ok ()
  | p :: ps, seen => do
    require (!Text.isBlank p.exposer.text) .blankExposer
    require (!seen.contains p.exposer) (.repeatedExposer p.exposer)
    checkExposers ps (p.exposer :: seen)

/-- Checks profiles: at least one, of distinct exposers. -/
def checkProfiles (ps : List Profile) : Outcome Unit := do
  require (!ps.isEmpty) .noProfile
  checkExposers ps []

/-- Checks that no version name is blank or comes twice. -/
def checkVersions : List ApiVersion → List String → Outcome Unit
  | [], _ => .ok ()
  | v :: vs, seen => do
    require (!Text.isBlank v.name) .blankVersion
    require (!seen.contains v.name) (.repeatedVersion v.name)
    checkVersions vs (v.name :: seen)

/-- Checks that need no registry. -/
def validate (d : ApiDescription) : Outcome Unit := do
  require (!Text.isBlank d.name) .blankApiName
  checkProfiles d.profiles
  checkVersions d.versions []

/-- The exposing functions. -/
def exposers (d : ApiDescription) : List FunctionId := d.profiles.map (·.exposer)

end ApiDescription

/-- A partial change of a published API; lists are replaced as a whole. -/
structure ApiPatch where
  /-- The name, which may only repeat the one held. -/
  name : Option String := none
  /-- New free text. -/
  description : Option String := none
  /-- New profiles. -/
  profiles : Option (List Profile) := none
  /-- New versions. -/
  versions : Option (List ApiVersion) := none
  /-- New features. -/
  features : Option Features := none
  /-- New features of the API itself. -/
  apiFeatures : Option Features := none
  /-- New category. -/
  category : Option String := none
  /-- New framework. -/
  framework : Option String := none
  deriving Inhabited

namespace ApiPatch

/-- The fields in JSON. -/
def record : Record ApiPatch :=
  ApiPatch.mk <$> .optional "apiName" .text <*> .optional "description" .text
    <*> .optional "aefProfiles" (.list Profile.decode)
    <*> .optional "versions" (.list ApiVersion.decode)
    <*> .optional "supportedFeatures" Features.decode
    <*> .optional "apiSuppFeats" Features.decode
    <*> .optional "serviceAPICategory" .text <*> .optional "ccfId" .text

/-- Reads a patch from JSON. -/
def decode : Decoder ApiPatch := record.decode

/-- The JSON form. -/
def toJson (p : ApiPatch) : Json :=
  .ofGroups [
    Json.optionalMember "apiName" .str p.name,
    Json.optionalMember "description" .str p.description,
    Json.optionalMember "aefProfiles" (Json.ofList Profile.toJson) p.profiles,
    Json.optionalMember "versions" (Json.ofList ApiVersion.toJson) p.versions,
    Json.optionalMember "supportedFeatures" Features.toJson p.features,
    Json.optionalMember "apiSuppFeats" Features.toJson p.apiFeatures,
    Json.optionalMember "serviceAPICategory" .str p.category,
    Json.optionalMember "ccfId" .str p.framework]

instance : JsonForm ApiPatch := ⟨decode, toJson⟩

/-- Checks what the patch provides. -/
def validate (p : ApiPatch) : Outcome Unit := do
  require (!p.name.any Text.isBlank) .blankApiName
  match p.profiles with
  | some ps => ApiDescription.checkProfiles ps
  | none => .ok ()
  match p.versions with
  | some vs => ApiDescription.checkVersions vs []
  | none => .ok ()

/-- The exposing functions that the patch brings in. -/
def exposers (p : ApiPatch) : List FunctionId := (p.profiles.getD []).map (·.exposer)

end ApiPatch

/-- An API in the store. -/
structure PublishedApi where
  /-- Identifier of the API. -/
  id : ApiId
  /-- The publishing function, which owns the API. -/
  publisher : FunctionId
  /-- What the publisher says about it. -/
  description : ApiDescription
  /-- When it was published. -/
  publishedAt : Instant
  /-- When it was last changed. -/
  updatedAt : Instant
  deriving Inhabited

namespace PublishedApi

/-- The fields in JSON that stand beside those of the description. -/
def ownRecord : Record (ApiId × FunctionId × Instant × Instant) :=
  (fun id publisher publishedAt updatedAt => (id, publisher, publishedAt, updatedAt))
    <$> .required "apiId" ApiId.decode <*> .required "apfId" FunctionId.decode
    <*> .required "publishedAt" .instant <*> .required "updatedAt" .instant

/-- Reads a published API from JSON. -/
def decode : Decoder PublishedApi :=
  Record.decodeFlattened
    (fun (id, publisher, publishedAt, updatedAt) description =>
      ⟨id, publisher, description, publishedAt, updatedAt⟩)
    ownRecord ApiDescription.record

/-- The JSON form: one object with the members of the description. -/
def toJson (a : PublishedApi) : Json :=
  .ofGroups ([
    Json.member "apiId" a.id.toJson,
    Json.member "apfId" a.publisher.toJson,
    Json.member "publishedAt" a.publishedAt.toJson,
    Json.member "updatedAt" a.updatedAt.toJson] ++ a.description.members)

instance : JsonForm PublishedApi := ⟨decode, toJson⟩

/-- Name of the API. -/
def name (a : PublishedApi) : String := a.description.name

/-- The profile of an exposing function. -/
def profile? (a : PublishedApi) (exposer : FunctionId) : Option Profile :=
  a.description.profiles.find? (fun p => p.exposer == exposer)

/-- The version of a name. -/
def version? (a : PublishedApi) (name : String) : Option ApiVersion :=
  a.description.versions.find? (fun v => v.name == name)

/-- Whether a function exposes the API. -/
def exposedBy (a : PublishedApi) (exposer : FunctionId) : Bool := (a.profile? exposer).isSome

/-- Refuses a patch that would rename the API. -/
def checkRename (a : PublishedApi) (p : ApiPatch) : Outcome Unit :=
  match p.name with
  | some name => require (name == a.name) (.rename a.id a.name name)
  | none => .ok ()

/-- Applies a patch that has been checked. -/
def apply (a : PublishedApi) (p : ApiPatch) (now : Instant) : PublishedApi :=
  { a with
    description := { a.description with
      description := p.description.or a.description.description
      profiles := p.profiles.getD a.description.profiles
      versions := p.versions.getD a.description.versions
      features := p.features.or a.description.features
      apiFeatures := p.apiFeatures.or a.description.apiFeatures
      category := p.category.or a.description.category
      framework := p.framework.or a.description.framework }
    updatedAt := now }

/-- Drops the profiles of removed functions and counts them. An API without such a profile
stays as it is. -/
def stripExposers (a : PublishedApi) (removed : List FunctionId) (now : Instant) :
    PublishedApi × Nat :=
  let left := a.description.profiles.filter (fun p => !removed.contains p.exposer)
  let stripped := a.description.profiles.length - left.length
  ({ a with
      description := { a.description with profiles := left }
      updatedAt := if stripped > 0 then now else a.updatedAt }, stripped)

/-- Every grant for the API: profiles first, versions second. -/
def grantable (a : PublishedApi) : List Grant :=
  a.description.profiles.flatMap (fun p =>
    a.description.versions.map (fun v => ⟨a.id, p.exposer, a.name, v.name⟩))

/-- A grant is on the list exactly when exposer and version are, under the API's own
identifier and name. -/
theorem mem_grantable {a : PublishedApi} {g : Grant} :
    g ∈ a.grantable ↔ g.api = a.id ∧ g.apiName = a.name ∧
      (∃ p ∈ a.description.profiles, p.exposer = g.exposer) ∧
      ∃ v ∈ a.description.versions, v.name = g.version := by
  rcases g with ⟨i, e, n, v⟩
  simp only [grantable, List.mem_flatMap, List.mem_map, Grant.mk.injEq]
  constructor
  · rintro ⟨p, hp, w, hw, rfl, rfl, rfl, rfl⟩
    exact ⟨rfl, rfl, ⟨p, hp, rfl⟩, ⟨w, hw, rfl⟩⟩
  · rintro ⟨rfl, rfl, ⟨p, hp, rfl⟩, ⟨w, hw, rfl⟩⟩
    exact ⟨p, hp, w, hw, rfl, rfl, rfl, rfl⟩

end PublishedApi

end ApiExposure
