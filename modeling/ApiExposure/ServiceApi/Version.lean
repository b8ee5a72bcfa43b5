import ApiExposure.Provider
import ApiExposure.ServiceApi.Choices

/-!
# Versions of an API

A version lists the resources and custom operations that it exposes. It may
expire; until the instant of its expiry has passed it is in force.
-/

namespace ApiExposure

/-- A resource of a version. -/
structure Resource where
  /-- Name of the resource. -/
  name : String
  /-- How it communicates. -/
  commType : CommType
  /-- Where it is. -/
  uri : String
  /-- Name of a custom operation on it. -/
  customOperation : Option String
  /-- Methods it supports. -/
  operations : List Operation
  /-- Free text. -/
  description : Option String
  deriving DecidableEq, Repr, Inhabited

namespace Resource

/-- The fields in JSON. -/
def record : Record Resource :=
  Resource.mk <$> .required "resourceName" .text <*> .required "commType" CommType.decode
    <*> .required "uri" .text <*> .optional "custOpName" .text
    <*> .withDefault "operations" (.list Operation.decode) [] <*> .optional "description" .text

/-- Reads a resource from JSON. -/
def decode : Decoder Resource := record.decode

/-- The JSON form. -/
def toJson (r : Resource) : Json :=
  .ofGroups [
    Json.member "resourceName" (.str r.name),
    Json.member "commType" r.commType.toJson,
    Json.member "uri" (.str r.uri),
    Json.optionalMember "custOpName" .str r.customOperation,
    Json.listMember "operations" Operation.toJson r.operations,
    Json.optionalMember "description" .str r.description]

instance : JsonForm Resource := ⟨decode, toJson⟩

end Resource

/-- A custom operation of a version. -/
structure CustomOperation where
  /-- Name of the operation. -/
  name : String
  /-- How it communicates. -/
  commType : CommType
  /-- Methods it supports. -/
  operations : List Operation
  /-- Free text. -/
  description : Option String
  deriving DecidableEq, Repr, Inhabited

namespace CustomOperation

/-- The fields in JSON. -/
def record : Record CustomOperation :=
  CustomOperation.mk <$> .required "custOpName" .text <*> .required "commType" CommType.decode
    <*> .withDefault "operations" (.list Operation.decode) [] <*> .optional "description" .text

/-- Reads a custom operation from JSON. -/
def decode : Decoder CustomOperation := record.decode

/-- The JSON form. -/
def toJson (o : CustomOperation) : Json :=
  .ofGroups [
    Json.member "custOpName" (.str o.name),
    Json.member "commType" o.commType.toJson,
    Json.listMember "operations" Operation.toJson o.operations,
    Json.optionalMember "description" .str o.description]

instance : JsonForm CustomOperation := ⟨decode, toJson⟩

end CustomOperation

/-- A version of an API. -/
structure ApiVersion where
  /-- Name of the version. -/
  name : String
  /-- When the version expires. -/
  expiry : Option Instant := none
  /-- Resources it exposes. -/
  resources : List Resource := []
  /-- Custom operations it exposes. -/
  customOperations : List CustomOperation := []
  deriving DecidableEq, Repr, Inhabited

namespace ApiVersion

/-- The fields in JSON. -/
def record : Record ApiVersion :=
  ApiVersion.mk <$> .required "apiVersion" .text <*> .optional "expiry" .instant
    <*> .withDefault "resources" (.list Resource.decode) []
    <*> .withDefault "custOperations" (.list CustomOperation.decode) []

/-- Reads a version from JSON. -/
def decode : Decoder ApiVersion := record.decode

/-- The JSON form. -/
def toJson (v : ApiVersion) : Json :=
  .ofGroups [
    Json.member "apiVersion" (.str v.name),
    Json.optionalMember "expiry" Instant.toJson v.expiry,
    Json.listMember "resources" Resource.toJson v.resources,
    Json.listMember "custOperations" CustomOperation.toJson v.customOperations]

instance : JsonForm ApiVersion := ⟨decode, toJson⟩

/-- Whether an instant of expiry has passed. Without one nothing expires. -/
def hasPassed (expiry : Option Instant) (now : Instant) : Bool := expiry.any (·.before now)

/-- Whether the version has expired. -/
def isExpired (v : ApiVersion) (now : Instant) : Bool := hasPassed v.expiry now

/-- Whether a resource or custom operation communicates in the given way. -/
def supports (v : ApiVersion) (commType : CommType) : Bool :=
  v.resources.any (fun r => r.commType == commType)
    || v.customOperations.any (fun o => o.commType == commType)

end ApiVersion

end ApiExposure
