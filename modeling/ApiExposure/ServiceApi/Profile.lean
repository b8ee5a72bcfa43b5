import ApiExposure.Identifier
import ApiExposure.ServiceApi.Choices

/-!
# Profiles of exposing functions

A profile binds an API to one exposing function. Its location may be searched
for by example: every field that the example sets has to be there and equal.
-/

namespace ApiExposure

/-- Where an exposing function is. -/
structure Location where
  /-- Data centre. -/
  dataCentre : Option String := none
  /-- Civic address, any JSON. -/
  civicAddress : Option Json := none
  /-- Geographic area, any JSON. -/
  geoArea : Option Json := none
  deriving Inhabited

namespace Location

/-- The fields in JSON. -/
def record : Record Location :=
  Location.mk <$> .optional "dcId" .text <*> .optional "civicAddr" .json
    <*> .optional "geoArea" .json

/-- Reads a location from JSON. -/
def decode : Decoder Location := record.decode

/-- The JSON form. -/
def toJson (l : Location) : Json :=
  .ofGroups [
    Json.optionalMember "dcId" .str l.dataCentre,
    Json.optionalMember "civicAddr" id l.civicAddress,
    Json.optionalMember "geoArea" id l.geoArea]

instance : JsonForm Location := ⟨decode, toJson⟩

/-- Whether a wanted field is there and equal. A field that is not wanted always agrees. -/
def agrees {α : Type} [BEq α] (held wanted : Option α) : Bool :=
  match held, wanted with
  | _, none => true
  | some h, some w => h == w
  | none, some _ => false

/-- Whether every field of the preferred location is there and equal. -/
def satisfies (held preferred : Location) : Bool :=
  agrees held.dataCentre preferred.dataCentre && agrees held.civicAddress preferred.civicAddress
    && agrees held.geoArea preferred.geoArea

end Location

/-- How one exposing function exposes an API. -/
structure Profile where
  /-- The exposing function. -/
  exposer : FunctionId
  /-- Where it is. -/
  location : Option Location := none
  /-- Protocol it speaks. -/
  protocol : Option Protocol := none
  /-- Data format it uses. -/
  dataFormat : Option DataFormat := none
  /-- Security methods it offers. -/
  securityMethods : List SecurityMethod := []
  /-- Its domain name. -/
  domainName : Option String := none
  deriving Inhabited

namespace Profile

/-- The fields in JSON. -/
def record : Record Profile :=
  Profile.mk <$> .required "aefId" FunctionId.decode
    <*> .optional "aefLocation" Location.decode <*> .optional "protocol" Protocol.decode
    <*> .optional "dataFormat" DataFormat.decode
    <*> .withDefault "securityMethods" (.list SecurityMethod.decode) []
    <*> .optional "domainName" .text

/-- Reads a profile from JSON. -/
def decode : Decoder Profile := record.decode

/-- The JSON form. -/
def toJson (p : Profile) : Json :=
  .ofGroups [
    Json.member "aefId" p.exposer.toJson,
    Json.optionalMember "aefLocation" Location.toJson p.location,
    Json.optionalMember "protocol" Protocol.toJson p.protocol,
    Json.optionalMember "dataFormat" DataFormat.toJson p.dataFormat,
    Json.listMember "securityMethods" SecurityMethod.toJson p.securityMethods,
    Json.optionalMember "domainName" .str p.domainName]

instance : JsonForm Profile := ⟨decode, toJson⟩

end Profile

end ApiExposure
