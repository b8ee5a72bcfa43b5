import ApiExposure.Failure
import ApiExposure.Text.Blank

/-!
# Grants and calls

A grant lets an invoker call one version of an API on one exposing function. A
call names the invoker, the exposer, the API and the version, but not the
identifier of the API; grants for several APIs can cover the same call.
-/

namespace ApiExposure

/-- A call, the unit of authorization and revocation. -/
structure Call where
  /-- Who calls. -/
  invoker : InvokerId
  /-- Which exposing function is called. -/
  exposer : FunctionId
  /-- Name of the API. -/
  apiName : String
  /-- Name of the version. -/
  version : String
  deriving DecidableEq, Repr, Inhabited

namespace Call

/-- The fields in JSON. -/
def record : Record Call :=
  Call.mk <$> .required "apiInvokerId" InvokerId.decode <*> .required "aefId" FunctionId.decode
    <*> .required "apiName" .text <*> .required "apiVersion" .text

/-- Reads a call from JSON. -/
def decode : Decoder Call := record.decode

/-- The JSON form. -/
def toJson (c : Call) : Json :=
  .ofGroups [
    Json.member "apiInvokerId" c.invoker.toJson,
    Json.member "aefId" c.exposer.toJson,
    Json.member "apiName" (.str c.apiName),
    Json.member "apiVersion" (.str c.version)]

instance : JsonForm Call := ⟨decode, toJson⟩

/-- Whether a field is blank. -/
def hasBlank (c : Call) : Bool :=
  Text.isBlank c.invoker.text || Text.isBlank c.exposer.text || Text.isBlank c.apiName
    || Text.isBlank c.version

/-- No field may be blank. -/
def validate (c : Call) : Outcome Unit := require (!c.hasBlank) .incompleteCall

end Call

/-- An API version on an exposing function that an invoker may call. -/
structure Grant where
  /-- The API. -/
  api : ApiId
  /-- The exposing function. -/
  exposer : FunctionId
  /-- Name of the API. -/
  apiName : String
  /-- Name of the version. -/
  version : String
  deriving DecidableEq, Repr, Inhabited

namespace Grant

/-- The fields in JSON. -/
def record : Record Grant :=
  Grant.mk <$> .required "apiId" ApiId.decode <*> .required "aefId" FunctionId.decode
    <*> .required "apiName" .text <*> .required "apiVersion" .text

/-- Reads a grant from JSON. -/
def decode : Decoder Grant := record.decode

/-- The JSON form. -/
def toJson (g : Grant) : Json :=
  .ofGroups [
    Json.member "apiId" g.api.toJson,
    Json.member "aefId" g.exposer.toJson,
    Json.member "apiName" (.str g.apiName),
    Json.member "apiVersion" (.str g.version)]

instance : JsonForm Grant := ⟨decode, toJson⟩

/-- Whether a field is blank. -/
def hasBlank (g : Grant) : Bool :=
  Text.isBlank g.api.text || Text.isBlank g.exposer.text || Text.isBlank g.apiName
    || Text.isBlank g.version

/-- No field may be blank. -/
def validate (g : Grant) : Outcome Unit := require (!g.hasBlank) .incompleteGrant

/-- The call that the grant allows its invoker. -/
def call (g : Grant) (invoker : InvokerId) : Call :=
  ⟨invoker, g.exposer, g.apiName, g.version⟩

/-- Whether the grant is for a call. -/
def covers (g : Grant) (c : Call) : Bool :=
  g.exposer == c.exposer && g.apiName == c.apiName && g.version == c.version

/-- A grant covers a call exactly when it allows that call to the call's invoker. -/
theorem covers_iff {g : Grant} {c : Call} : g.covers c = true ↔ g.call c.invoker = c := by
  rcases c with ⟨i, e, n, v⟩
  simp [covers, call, and_assoc]

end Grant

/-- Which grants of an invoker a bulk revocation is about. -/
structure RevocationScope where
  /-- Grants on this exposing function. -/
  exposer : Option FunctionId := none
  /-- Grants for these APIs. -/
  apis : List ApiId := []
  deriving DecidableEq, Repr, Inhabited

namespace RevocationScope

/-- The fields in JSON. -/
def record : Record RevocationScope :=
  RevocationScope.mk <$> .optional "aefId" FunctionId.decode
    <*> .withDefault "apiIds" (.list ApiId.decode) []

/-- Reads a scope from JSON. -/
def decode : Decoder RevocationScope := record.decode

/-- The JSON form. -/
def toJson (s : RevocationScope) : Json :=
  .ofGroups [
    Json.optionalMember "aefId" FunctionId.toJson s.exposer,
    Json.member "apiIds" (.ofList ApiId.toJson s.apis)]

instance : JsonForm RevocationScope := ⟨decode, toJson⟩

/-- Whether the scope selects nothing. -/
def isEmpty (s : RevocationScope) : Bool := s.exposer.isNone && s.apis.isEmpty

/-- Whether a grant is within the scope. -/
def matchesGrant (s : RevocationScope) (g : Grant) : Bool :=
  s.exposer == some g.exposer || s.apis.contains g.api

end RevocationScope

end ApiExposure
