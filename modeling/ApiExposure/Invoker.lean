import ApiExposure.Features
import ApiExposure.Grant
import ApiExposure.Provider

/-!
# Invokers

An invoker enrols with its credentials and asks for APIs; once onboarded it has
an identity with the list of its grants. A patch replaces the fields that it
provides and never touches the grants.
-/

namespace ApiExposure

/-- Credentials that an invoker presents; only the presence of the key is checked. -/
structure OnboardingInformation where
  /-- Public key. -/
  publicKey : String
  /-- Certificate. -/
  certificate : Option String := none
  deriving DecidableEq, Repr, Inhabited

namespace OnboardingInformation

/-- The fields in JSON. -/
def record : Record OnboardingInformation :=
  OnboardingInformation.mk <$> .withDefault "apiInvokerPublicKey" .text ""
    <*> .optional "apiInvokerCertificate" .text

/-- Reads credentials from JSON. -/
def decode : Decoder OnboardingInformation := record.decode

/-- The JSON form. -/
def toJson (o : OnboardingInformation) : Json :=
  .ofGroups [
    Json.member "apiInvokerPublicKey" (.str o.publicKey),
    Json.optionalMember "apiInvokerCertificate" .str o.certificate]

instance : JsonForm OnboardingInformation := ⟨decode, toJson⟩

/-- The key must not be blank. -/
def validate (o : OnboardingInformation) : Outcome Unit :=
  require (!Text.isBlank o.publicKey) .missingInvokerKey

end OnboardingInformation

/-- Checks a destination if there is one. -/
def requireUrlIfAny : Option String → Outcome Unit
  | some destination => requireUrl destination
  | none => .ok ()

/-- The request to onboard an invoker. -/
structure Enrolment where
  /-- Credentials. -/
  onboarding : OnboardingInformation
  /-- Where notifications go. -/
  destination : Option String := none
  /-- Free text. -/
  information : Option String := none
  /-- APIs that the invoker asks for. -/
  requested : List ApiId := []
  /-- Features supported. -/
  features : Option Features := none
  deriving DecidableEq, Repr, Inhabited

namespace Enrolment

/-- The fields in JSON. -/
def record : Record Enrolment :=
  Enrolment.mk <$> .required "onboardingInformation" OnboardingInformation.decode
    <*> .optional "notificationDestination" .text <*> .optional "apiInvokerInformation" .text
    <*> .withDefault "apiList" (.list ApiId.decode) []
    <*> .optional "supportedFeatures" Features.decode

/-- Reads an enrolment from JSON. -/
def decode : Decoder Enrolment := record.decode

/-- The JSON form. -/
def toJson (e : Enrolment) : Json :=
  .ofGroups [
    Json.member "onboardingInformation" e.onboarding.toJson,
    Json.optionalMember "notificationDestination" .str e.destination,
    Json.optionalMember "apiInvokerInformation" .str e.information,
    Json.member "apiList" (.ofList ApiId.toJson e.requested),
    Json.optionalMember "supportedFeatures" Features.toJson e.features]

instance : JsonForm Enrolment := ⟨decode, toJson⟩

/-- Checks credentials and destination. -/
def validate (e : Enrolment) : Outcome Unit := do
  e.onboarding.validate
  requireUrlIfAny e.destination

end Enrolment

/-- A partial change of an invoker. -/
structure InvokerPatch where
  /-- New credentials. -/
  onboarding : Option OnboardingInformation := none
  /-- New destination. -/
  destination : Option String := none
  /-- New free text. -/
  information : Option String := none
  /-- New features. -/
  features : Option Features := none
  deriving DecidableEq, Repr, Inhabited

namespace InvokerPatch

/-- The fields in JSON. -/
def record : Record InvokerPatch :=
  InvokerPatch.mk <$> .optional "onboardingInformation" OnboardingInformation.decode
    <*> .optional "notificationDestination" .text <*> .optional "apiInvokerInformation" .text
    <*> .optional "supportedFeatures" Features.decode

/-- Reads a patch from JSON. -/
def decode : Decoder InvokerPatch := record.decode

/-- The JSON form. -/
def toJson (p : InvokerPatch) : Json :=
  .ofGroups [
    Json.optionalMember "onboardingInformation" OnboardingInformation.toJson p.onboarding,
    Json.optionalMember "notificationDestination" .str p.destination,
    Json.optionalMember "apiInvokerInformation" .str p.information,
    Json.optionalMember "supportedFeatures" Features.toJson p.features]

instance : JsonForm InvokerPatch := ⟨decode, toJson⟩

/-- Checks what the patch provides. -/
def validate (p : InvokerPatch) : Outcome Unit := do
  match p.onboarding with
  | some o => o.validate
  | none => .ok ()
  requireUrlIfAny p.destination

/-- Whether the patch brings new credentials. -/
def rotatesCredential (p : InvokerPatch) : Bool := p.onboarding.isSome

end InvokerPatch

/-- An onboarded invoker. -/
structure InvokerIdentity where
  /-- Identifier of the invoker. -/
  id : InvokerId
  /-- Credentials. -/
  onboarding : OnboardingInformation
  /-- Where notifications go. -/
  destination : Option String
  /-- Free text. -/
  information : Option String
  /-- Features supported. -/
  features : Option Features
  /-- Grants in the order in which they were added. -/
  grants : List Grant
  /-- When the invoker was onboarded. -/
  onboardedAt : Instant
  /-- When the invoker was last changed. -/
  updatedAt : Instant
  deriving DecidableEq, Repr, Inhabited

namespace InvokerIdentity

/-- The fields in JSON. -/
def record : Record InvokerIdentity :=
  InvokerIdentity.mk <$> .required "apiInvokerId" InvokerId.decode
    <*> .required "onboardingInformation" OnboardingInformation.decode
    <*> .optional "notificationDestination" .text <*> .optional "apiInvokerInformation" .text
    <*> .optional "supportedFeatures" Features.decode
    <*> .withDefault "apiList" (.list Grant.decode) []
    <*> .required "onboardedAt" .instant <*> .required "updatedAt" .instant

/-- Reads an identity from JSON. -/
def decode : Decoder InvokerIdentity := record.decode

/-- The members of the JSON form. -/
def members (i : InvokerIdentity) : List (List (String × Json)) := [
  Json.member "apiInvokerId" i.id.toJson,
  Json.member "onboardingInformation" i.onboarding.toJson,
  Json.optionalMember "notificationDestination" .str i.destination,
  Json.optionalMember "apiInvokerInformation" .str i.information,
  Json.optionalMember "supportedFeatures" Features.toJson i.features,
  Json.member "apiList" (.ofList Grant.toJson i.grants),
  Json.member "onboardedAt" i.onboardedAt.toJson,
  Json.member "updatedAt" i.updatedAt.toJson]

/-- The JSON form. -/
def toJson (i : InvokerIdentity) : Json := .ofGroups i.members

instance : JsonForm InvokerIdentity := ⟨decode, toJson⟩

/-- The identity of an enrolment, without grants. -/
def ofEnrolment (id : InvokerId) (e : Enrolment) (now : Instant) : InvokerIdentity :=
  ⟨id, e.onboarding, e.destination, e.information, e.features, [], now, now⟩

/-- Applies a patch that has been checked. -/
def apply (i : InvokerIdentity) (p : InvokerPatch) (now : Instant) : InvokerIdentity :=
  { i with
    onboarding := p.onboarding.getD i.onboarding
    destination := p.destination.or i.destination
    information := p.information.or i.information
    features := p.features.or i.features
    updatedAt := now }

/-- Whether the invoker holds a grant. -/
def holds (i : InvokerIdentity) (g : Grant) : Bool := i.grants.contains g

/-- Adds a grant at the end unless the invoker holds it. -/
def addGrant (i : InvokerIdentity) (g : Grant) : InvokerIdentity :=
  if i.holds g then i else { i with grants := i.grants ++ [g] }

/-- Adding a grant keeps the list free of repetition. -/
theorem nodup_addGrant {i : InvokerIdentity} (h : i.grants.Nodup) (g : Grant) :
    (i.addGrant g).grants.Nodup := by
  unfold addGrant
  split
  · exact h
  · next hg =>
    refine List.nodup_append.2 ⟨h, by simp, ?_⟩
    intro a ha b hb heq
    simp only [List.mem_singleton] at hb
    subst hb heq
    simp [holds, ha] at hg

end InvokerIdentity

/-- What the identity provider issues to an invoker. -/
structure ClientCredentials where
  /-- Identifier of the client. -/
  clientId : String
  /-- Secret of the client. -/
  clientSecret : String
  deriving DecidableEq, Repr, Inhabited

namespace ClientCredentials

/-- The fields in JSON. -/
def record : Record ClientCredentials :=
  ClientCredentials.mk <$> .required "clientId" .text <*> .required "clientSecret" .text

/-- Reads credentials from JSON. -/
def decode : Decoder ClientCredentials := record.decode

/-- The JSON form. -/
def toJson (c : ClientCredentials) : Json :=
  .ofGroups [
    Json.member "clientId" (.str c.clientId), Json.member "clientSecret" (.str c.clientSecret)]

instance : JsonForm ClientCredentials := ⟨decode, toJson⟩

end ClientCredentials

/-- The answer to a successful enrolment. -/
structure OnboardedInvoker where
  /-- The identity with its grants. -/
  identity : InvokerIdentity
  /-- The credentials of its client. -/
  credentials : ClientCredentials
  deriving DecidableEq, Repr, Inhabited

namespace OnboardedInvoker

/-- Reads an onboarded invoker from JSON. -/
def decode : Decoder OnboardedInvoker :=
  Record.decodeFlattened (fun credentials identity => ⟨identity, credentials⟩)
    (.required "clientCredentials" ClientCredentials.decode) InvokerIdentity.record

/-- The JSON form: one object with the members of the identity. -/
def toJson (o : OnboardedInvoker) : Json :=
  .ofGroups (Json.member "clientCredentials" o.credentials.toJson :: o.identity.members)

instance : JsonForm OnboardedInvoker := ⟨decode, toJson⟩

end OnboardedInvoker

/-- The outcome of a check of a call. -/
inductive Decision where
  /-- The call may go on. -/
  | allow
  /-- The call is denied. -/
  | deny (reason : DenyReason)
  deriving DecidableEq, Repr, Inhabited

namespace Decision

/-- Whether the call may go on. -/
def isAllowed : Decision → Bool
  | allow => true
  | deny _ => false

/-- The reason of a denial. -/
def reason? : Decision → Option DenyReason
  | allow => none
  | deny reason => some reason

/-- A denial as a failure. -/
def toOutcome : Decision → Outcome Unit
  | allow => .ok ()
  | deny reason => .error (.denied reason)

end Decision

end ApiExposure
