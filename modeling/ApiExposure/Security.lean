import ApiExposure.Features
import ApiExposure.Grant
import ApiExposure.ServiceApi.Choices

/-!
# Security contexts

A trusted invoker lists, for each API or interface that it intends to call, the
security methods it prefers. For each entry one method is selected: the first
preferred one on offer, else the first one on offer. An interface overrides
what the profiles of the API offer, and an interface that lists no method
accepts whatever is preferred first.
-/

namespace ApiExposure

/-- Address of one interface of an exposing function. -/
structure InterfaceDescription where
  /-- Version 4 address. -/
  ipv4 : Option String := none
  /-- Version 6 address. -/
  ipv6 : Option String := none
  /-- Port. -/
  port : Option Nat := none
  /-- Methods the interface supports. -/
  securityMethods : List SecurityMethod := []
  deriving DecidableEq, Repr, Inhabited

namespace InterfaceDescription

/-- The fields in JSON. -/
def record : Record InterfaceDescription :=
  InterfaceDescription.mk <$> .optional "ipv4Addr" .text <*> .optional "ipv6Addr" .text
    <*> .optional "port" (.natUpTo 65535)
    <*> .withDefault "securityMethods" (.list SecurityMethod.decode) []

/-- Reads an interface from JSON. -/
def decode : Decoder InterfaceDescription := record.decode

/-- The JSON form. -/
def toJson (i : InterfaceDescription) : Json :=
  .ofGroups [
    Json.optionalMember "ipv4Addr" .str i.ipv4,
    Json.optionalMember "ipv6Addr" .str i.ipv6,
    Json.optionalMember "port" (fun n : Nat => .int n) i.port,
    Json.listMember "securityMethods" SecurityMethod.toJson i.securityMethods]

instance : JsonForm InterfaceDescription := ⟨decode, toJson⟩

end InterfaceDescription

/-- Negotiation for one API or interface. -/
structure SecurityEntry where
  /-- The API. -/
  api : Option ApiId := none
  /-- The exposing function. -/
  exposer : Option FunctionId := none
  /-- The interface, if it is addressed directly. -/
  interface : Option InterfaceDescription := none
  /-- Methods in the order of preference. -/
  preferred : List SecurityMethod := []
  /-- The method selected. -/
  selected : Option SecurityMethod := none
  /-- Credentials for authentication. -/
  authentication : Option String := none
  /-- Credentials for authorization. -/
  authorization : Option String := none
  deriving DecidableEq, Repr, Inhabited

namespace SecurityEntry

/-- The fields in JSON. -/
def record : Record SecurityEntry :=
  SecurityEntry.mk <$> .optional "apiId" ApiId.decode <*> .optional "aefId" FunctionId.decode
    <*> .optional "interfaceDetails" InterfaceDescription.decode
    <*> .withDefault "prefSecurityMethods" (.list SecurityMethod.decode) []
    <*> .optional "selSecurityMethod" SecurityMethod.decode
    <*> .optional "authenticationInfo" .text <*> .optional "authorizationInfo" .text

/-- Reads an entry from JSON. -/
def decode : Decoder SecurityEntry := record.decode

/-- The JSON form. -/
def toJson (e : SecurityEntry) : Json :=
  .ofGroups [
    Json.optionalMember "apiId" ApiId.toJson e.api,
    Json.optionalMember "aefId" FunctionId.toJson e.exposer,
    Json.optionalMember "interfaceDetails" InterfaceDescription.toJson e.interface,
    Json.member "prefSecurityMethods" (.ofList SecurityMethod.toJson e.preferred),
    Json.optionalMember "selSecurityMethod" SecurityMethod.toJson e.selected,
    Json.optionalMember "authenticationInfo" .str e.authentication,
    Json.optionalMember "authorizationInfo" .str e.authorization]

instance : JsonForm SecurityEntry := ⟨decode, toJson⟩

/-- An entry needs a preference and something to be about. -/
def validate (e : SecurityEntry) : Outcome Unit := do
  require (!e.preferred.isEmpty) .noPreference
  require (e.interface.isSome || e.api.isSome) .noTarget

/-- The methods on offer: those of the interface if there is one, else those given. -/
def offered (e : SecurityEntry) (profileMethods : List SecurityMethod) : List SecurityMethod :=
  match e.interface with
  | some interface => interface.securityMethods
  | none => profileMethods

/-- The method that the entry settles on. -/
def choose? (e : SecurityEntry) (profileMethods : List SecurityMethod) : Option SecurityMethod :=
  let offered := e.offered profileMethods
  ((e.preferred.find? (offered.contains ·)).or offered.head?).or
    (if e.interface.isSome then e.preferred.head? else none)

/-- Selects a method; fails when nothing is on offer. -/
def negotiate (e : SecurityEntry) (profileMethods : List SecurityMethod) :
    Outcome SecurityEntry :=
  match e.choose? profileMethods with
  | some method => .ok { e with selected := some method }
  | none => .error (.invalid (.noCommonMethod e.api))

/-- Whether a bulk revocation removes the entry. -/
def revokedBy (e : SecurityEntry) (scope : RevocationScope) : Bool :=
  (scope.exposer.isSome && scope.exposer == e.exposer)
    || e.api.any (fun api => scope.apis.contains api)

/-- The entry without the credentials that were not asked for. -/
def redacted (e : SecurityEntry) (authentication authorization : Bool) : SecurityEntry :=
  { e with
    authentication := if authentication then e.authentication else none
    authorization := if authorization then e.authorization else none }

end SecurityEntry

/-- The security context of an invoker. -/
structure SecurityContext where
  /-- Entries in the order given. -/
  entries : List SecurityEntry
  /-- Where notifications go. -/
  destination : String
  /-- Features supported. -/
  features : Option Features := none
  deriving DecidableEq, Repr, Inhabited

namespace SecurityContext

/-- The fields in JSON. -/
def record : Record SecurityContext :=
  SecurityContext.mk <$> .required "securityInfo" (.list SecurityEntry.decode)
    <*> .required "notificationDestination" .text
    <*> .optional "supportedFeatures" Features.decode

/-- Reads a context from JSON. -/
def decode : Decoder SecurityContext := record.decode

/-- The JSON form. -/
def toJson (c : SecurityContext) : Json :=
  .ofGroups [
    Json.member "securityInfo" (.ofList SecurityEntry.toJson c.entries),
    Json.member "notificationDestination" (.str c.destination),
    Json.optionalMember "supportedFeatures" Features.toJson c.features]

instance : JsonForm SecurityContext := ⟨decode, toJson⟩

/-- Checks the destination and every entry, of which there has to be one. -/
def validate (c : SecurityContext) : Outcome Unit := do
  require (!Text.isBlank c.destination) .missingDestination
  requireUrl c.destination
  require (!c.entries.isEmpty) .noSecurityEntry
  c.entries.forM SecurityEntry.validate

/-- The APIs of the entries without interface. -/
def profileApis (c : SecurityContext) : List ApiId :=
  (c.entries.filter (fun e => e.interface.isNone)).filterMap (·.api)

/-- The context without the credentials that were not asked for. -/
def redacted (c : SecurityContext) (authentication authorization : Bool) : SecurityContext :=
  { c with entries := c.entries.map (·.redacted authentication authorization) }

/-- The context without the entries that a bulk revocation removes. -/
def revoke (c : SecurityContext) (scope : RevocationScope) : SecurityContext :=
  { c with entries := c.entries.filter (fun e => !e.revokedBy scope) }

/-- How many entries a bulk revocation removes. -/
def countRevoked (c : SecurityContext) (scope : RevocationScope) : Nat :=
  c.entries.countP (·.revokedBy scope)

end SecurityContext

end ApiExposure
