import ApiExposure.Failure
import ApiExposure.Text.Blank
import ApiExposure.Time.Instant

/-!
# Provider domains and their functions

A provider registers a domain with functions that publish, expose or manage
APIs. Registrations and patches share one kind of entry for functions: with an
identifier it changes a function, without one it describes a new function.
-/

namespace ApiExposure

/-- Reads an instant from JSON. -/
def Decoder.instant : Decoder Instant := Decoder.parsed Instant.read?

/-- The JSON form of an instant. -/
def Instant.toJson (t : Instant) : Json := .str t.text

instance : JsonForm Instant := ⟨Decoder.instant, Instant.toJson⟩

/-- Credentials of a function; only the presence of the key is checked. -/
structure RegistrationInfo where
  /-- Public key. -/
  publicKey : String
  /-- Certificate. -/
  certificate : Option String := none
  deriving DecidableEq, Repr, Inhabited

namespace RegistrationInfo

/-- The fields in JSON. -/
def record : Record RegistrationInfo :=
  RegistrationInfo.mk <$> .required "apiProvPubKey" .text <*> .optional "apiProvCert" .text

/-- Reads credentials from JSON. -/
def decode : Decoder RegistrationInfo := record.decode

/-- The JSON form. -/
def toJson (r : RegistrationInfo) : Json :=
  .ofGroups [
    Json.member "apiProvPubKey" (.str r.publicKey),
    Json.optionalMember "apiProvCert" .str r.certificate]

instance : JsonForm RegistrationInfo := ⟨decode, toJson⟩

/-- The key must not be blank. -/
def validate (r : RegistrationInfo) : Outcome Unit :=
  require (!Text.isBlank r.publicKey) .missingFunctionKey

end RegistrationInfo

/-- A registered function. -/
structure ProviderFunction where
  /-- Identifier of the function. -/
  id : FunctionId
  /-- What the function does. -/
  role : Role
  /-- Free text. -/
  info : Option String
  /-- Credentials. -/
  registration : RegistrationInfo
  deriving DecidableEq, Repr, Inhabited

namespace ProviderFunction

/-- The fields in JSON. -/
def record : Record ProviderFunction :=
  ProviderFunction.mk <$> .required "apiProvFuncId" FunctionId.decode
    <*> .required "apiProvFuncRole" Role.decode <*> .optional "apiProvFuncInfo" .text
    <*> .required "regInfo" RegistrationInfo.decode

/-- Reads a function from JSON. -/
def decode : Decoder ProviderFunction := record.decode

/-- The JSON form. -/
def toJson (f : ProviderFunction) : Json :=
  .ofGroups [
    Json.member "apiProvFuncId" f.id.toJson,
    Json.member "apiProvFuncRole" f.role.toJson,
    Json.optionalMember "apiProvFuncInfo" .str f.info,
    Json.member "regInfo" f.registration.toJson]

instance : JsonForm ProviderFunction := ⟨decode, toJson⟩

end ProviderFunction

/-- A registered domain. -/
structure ProviderDomain where
  /-- Identifier of the domain. -/
  id : DomainId
  /-- Free text. -/
  info : Option String
  /-- Credential of the domain. -/
  credential : String
  /-- Functions in the order of registration. -/
  functions : List ProviderFunction
  /-- When the domain was registered. -/
  registeredAt : Instant
  /-- When the domain was last changed. -/
  updatedAt : Instant
  deriving DecidableEq, Repr, Inhabited

namespace ProviderDomain

/-- The fields in JSON. -/
def record : Record ProviderDomain :=
  ProviderDomain.mk <$> .required "apiProvDomId" DomainId.decode
    <*> .optional "apiProvDomInfo" .text <*> .required "regSec" .text
    <*> .required "apiProvFuncs" (.list ProviderFunction.decode)
    <*> .required "registeredAt" .instant <*> .required "updatedAt" .instant

/-- Reads a domain from JSON. -/
def decode : Decoder ProviderDomain := record.decode

/-- The JSON form. -/
def toJson (d : ProviderDomain) : Json :=
  .ofGroups [
    Json.member "apiProvDomId" d.id.toJson,
    Json.optionalMember "apiProvDomInfo" .str d.info,
    Json.member "regSec" (.str d.credential),
    Json.member "apiProvFuncs" (.ofList ProviderFunction.toJson d.functions),
    Json.member "registeredAt" d.registeredAt.toJson,
    Json.member "updatedAt" d.updatedAt.toJson]

instance : JsonForm ProviderDomain := ⟨decode, toJson⟩

/-- The function of the domain with an identifier. -/
def function? (d : ProviderDomain) (id : FunctionId) : Option ProviderFunction :=
  d.functions.find? (fun f => f.id == id)

/-- Identifiers of all functions. -/
def functionIds (d : ProviderDomain) : List FunctionId := d.functions.map (·.id)

/-- Identifiers of the functions with a role. -/
def functionsWithRole (d : ProviderDomain) (role : Role) : List FunctionId :=
  (d.functions.filter (fun f => f.role == role)).map (·.id)

end ProviderDomain

/-- A function in a registration or patch. -/
structure FunctionEntry where
  /-- The function to change; a registration takes no notice of it. -/
  id : Option FunctionId := none
  /-- Role of the function. -/
  role : Option Role := none
  /-- Free text. -/
  info : Option String := none
  /-- Credentials. -/
  registration : Option RegistrationInfo := none
  deriving DecidableEq, Repr, Inhabited

namespace FunctionEntry

/-- The fields in JSON. -/
def record : Record FunctionEntry :=
  FunctionEntry.mk <$> .optional "apiProvFuncId" FunctionId.decode
    <*> .optional "apiProvFuncRole" Role.decode <*> .optional "apiProvFuncInfo" .text
    <*> .optional "regInfo" RegistrationInfo.decode

/-- Reads an entry from JSON. -/
def decode : Decoder FunctionEntry := record.decode

/-- The JSON form. -/
def toJson (e : FunctionEntry) : Json :=
  .ofGroups [
    Json.optionalMember "apiProvFuncId" FunctionId.toJson e.id,
    Json.optionalMember "apiProvFuncRole" Role.toJson e.role,
    Json.optionalMember "apiProvFuncInfo" .str e.info,
    Json.optionalMember "regInfo" RegistrationInfo.toJson e.registration]

instance : JsonForm FunctionEntry := ⟨decode, toJson⟩

/-- Role and credentials of an entry that describes a new function. -/
def newFunction (e : FunctionEntry) : Outcome (Role × RegistrationInfo) :=
  match e.role, e.registration with
  | none, _ => .error (.invalid .missingRole)
  | some _, none => .error (.invalid .missingRegistration)
  | some role, some registration => do
    registration.validate
    .ok (role, registration)

/-- Checks an entry that describes a new function. -/
def validate (e : FunctionEntry) : Outcome Unit := e.newFunction.map (fun _ => ())

/-- The function that an entry describes, under an identifier chosen for its role. -/
def build (e : FunctionEntry) (id : Role → FunctionId) : Outcome ProviderFunction := do
  let (role, registration) ← e.newFunction
  .ok ⟨id role, role, e.info, registration⟩

/-- An entry describes a new function exactly when it has a role and a key that is not blank. -/
theorem newFunction_eq_ok_iff {e : FunctionEntry} {role : Role} {info : RegistrationInfo} :
    e.newFunction = .ok (role, info) ↔
      e.role = some role ∧ e.registration = some info ∧ Text.isBlank info.publicKey = false := by
  unfold newFunction
  split
  · next h => simp [h]
  · next h => simp [h]
  · next r i hr hi =>
    simp only [hr, hi, Option.some.injEq, RegistrationInfo.validate, require]
    cases hb : Text.isBlank i.publicKey
    · simp only [Bool.not_false, if_true, bind, Except.bind, Except.ok.injEq, Prod.mk.injEq]
      constructor
      · rintro ⟨rfl, rfl⟩; exact ⟨rfl, rfl, hb⟩
      · rintro ⟨rfl, rfl, _⟩; exact ⟨rfl, rfl⟩
    · simp only [Bool.not_true, Bool.false_eq_true, if_false, bind, Except.bind, reduceCtorEq,
        false_iff, not_and, Bool.not_eq_false]
      rintro rfl rfl
      exact hb

end FunctionEntry

/-- The request to register a domain. -/
structure DomainRegistration where
  /-- Free text. -/
  info : Option String := none
  /-- Credential of the domain. -/
  credential : String := ""
  /-- Functions to register. -/
  functions : List FunctionEntry := []
  deriving DecidableEq, Repr, Inhabited

namespace DomainRegistration

/-- The fields in JSON. -/
def record : Record DomainRegistration :=
  DomainRegistration.mk <$> .optional "apiProvDomInfo" .text <*> .withDefault "regSec" .text ""
    <*> .withDefault "apiProvFuncs" (.list FunctionEntry.decode) []

/-- Reads a registration from JSON. -/
def decode : Decoder DomainRegistration := record.decode

/-- The JSON form. -/
def toJson (r : DomainRegistration) : Json :=
  .ofGroups [
    Json.optionalMember "apiProvDomInfo" .str r.info,
    Json.member "regSec" (.str r.credential),
    Json.member "apiProvFuncs" (.ofList FunctionEntry.toJson r.functions)]

instance : JsonForm DomainRegistration := ⟨decode, toJson⟩

/-- Checks the credential and every function. -/
def validate (r : DomainRegistration) : Outcome Unit := do
  require (!Text.isBlank r.credential) .missingCredential
  r.functions.forM FunctionEntry.validate

end DomainRegistration

/-- A partial change of a domain; it never removes a function. -/
structure DomainPatch where
  /-- New free text. -/
  info : Option String := none
  /-- New credential. -/
  credential : Option String := none
  /-- Functions to change or to add. -/
  functions : List FunctionEntry := []
  deriving DecidableEq, Repr, Inhabited

namespace DomainPatch

/-- The fields in JSON. -/
def record : Record DomainPatch :=
  DomainPatch.mk <$> .optional "apiProvDomInfo" .text <*> .optional "regSec" .text
    <*> .withDefault "apiProvFuncs" (.list FunctionEntry.decode) []

/-- Reads a patch from JSON. -/
def decode : Decoder DomainPatch := record.decode

/-- The JSON form. -/
def toJson (p : DomainPatch) : Json :=
  .ofGroups [
    Json.optionalMember "apiProvDomInfo" .str p.info,
    Json.optionalMember "regSec" .str p.credential,
    Json.member "apiProvFuncs" (.ofList FunctionEntry.toJson p.functions)]

instance : JsonForm DomainPatch := ⟨decode, toJson⟩

end DomainPatch

/-- What a function identifier stands for. -/
structure ResolvedFunction where
  /-- Domain of the function. -/
  domain : DomainId
  /-- Role of the function. -/
  role : Role
  deriving DecidableEq, Repr, Inhabited

namespace ResolvedFunction

/-- The fields in JSON. -/
def record : Record ResolvedFunction :=
  ResolvedFunction.mk <$> .required "domainId" DomainId.decode <*> .required "role" Role.decode

/-- Reads a resolved function from JSON. -/
def decode : Decoder ResolvedFunction := record.decode

/-- The JSON form. -/
def toJson (f : ResolvedFunction) : Json :=
  .ofGroups [Json.member "domainId" f.domain.toJson, Json.member "role" f.role.toJson]

instance : JsonForm ResolvedFunction := ⟨decode, toJson⟩

end ResolvedFunction

end ApiExposure
