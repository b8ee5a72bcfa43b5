import ApiExposure.ServiceApi.Description

/-!
# Discovery criteria

Criteria narrow a search for APIs; an unset one matches everything. Those about
the API as a whole are its name, category, versions and features. Those about a
profile have to hold together for one profile.
-/

namespace ApiExposure

/-- What a search asks for. -/
structure Criteria where
  /-- Name of the API. -/
  name : Option String := none
  /-- Name of a version. -/
  version : Option String := none
  /-- How a version communicates. -/
  commType : Option CommType := none
  /-- Protocol of a profile. -/
  protocol : Option Protocol := none
  /-- Exposing function of a profile. -/
  exposer : Option FunctionId := none
  /-- Data format of a profile. -/
  dataFormat : Option DataFormat := none
  /-- Category of the API. -/
  category : Option String := none
  /-- Location of a profile, by example. -/
  location : Option Location := none
  /-- Features supported. -/
  features : Option Features := none
  /-- Features of the API itself. -/
  apiFeatures : Option Features := none
  deriving Inhabited

namespace Criteria

/-- The fields in JSON. -/
def record : Record Criteria :=
  Criteria.mk <$> .optional "api-name" .text <*> .optional "api-version" .text
    <*> .optional "comm-type" CommType.decode <*> .optional "protocol" Protocol.decode
    <*> .optional "aef-id" FunctionId.decode <*> .optional "data-format" DataFormat.decode
    <*> .optional "api-cat" .text <*> .optional "preferred-aef-loc" Location.decode
    <*> .optional "supported-features" Features.decode
    <*> .optional "api-supported-features" Features.decode

/-- Reads criteria from JSON. -/
def decode : Decoder Criteria := record.decode

/-- The JSON form. -/
def toJson (c : Criteria) : Json :=
  .ofGroups [
    Json.optionalMember "api-name" .str c.name,
    Json.optionalMember "api-version" .str c.version,
    Json.optionalMember "comm-type" CommType.toJson c.commType,
    Json.optionalMember "protocol" Protocol.toJson c.protocol,
    Json.optionalMember "aef-id" FunctionId.toJson c.exposer,
    Json.optionalMember "data-format" DataFormat.toJson c.dataFormat,
    Json.optionalMember "api-cat" .str c.category,
    Json.optionalMember "preferred-aef-loc" Location.toJson c.location,
    Json.optionalMember "supported-features" Features.toJson c.features,
    Json.optionalMember "api-supported-features" Features.toJson c.apiFeatures]

instance : JsonForm Criteria := ⟨decode, toJson⟩

/-- Whether the features asked for are advertised. Who advertises no mask covers only a
request for nothing. -/
def coversRequest (advertised requested : Option Features) : Bool :=
  match advertised, requested with
  | _, none => true
  | some a, some r => a.covers r
  | none, some r => r.isEmpty

/-- Whether a version of the asked name and kind of communication is there. -/
def matchesVersion (c : Criteria) (a : PublishedApi) : Bool :=
  match c.version, c.commType with
  | some name, commType =>
    (a.version? name).any (fun v => commType.all (fun t => v.supports t))
  | none, some commType => a.description.versions.any (·.supports commType)
  | none, none => true

/-- Criteria about the API as a whole. -/
def matchesApi (c : Criteria) (a : PublishedApi) : Bool :=
  c.name.all (· == a.name)
    && c.category.all (fun category => a.description.category == some category)
    && c.matchesVersion a
    && coversRequest a.description.features c.features
    && coversRequest a.description.apiFeatures c.apiFeatures

/-- Criteria about one profile. -/
def matchesProfile (c : Criteria) (p : Profile) : Bool :=
  c.exposer.all (· == p.exposer)
    && c.protocol.all (fun protocol => p.protocol == some protocol)
    && c.dataFormat.all (fun format => p.dataFormat == some format)
    && c.location.all (fun preferred => p.location.any (·.satisfies preferred))

/-- Whether an API matches as a whole and in at least one profile. -/
def selects (c : Criteria) (a : PublishedApi) : Bool :=
  c.matchesApi a && a.description.profiles.any c.matchesProfile

end Criteria

end ApiExposure
