import Mathlib
import ApiExposure.Proofs.Json.Forms
import ApiExposure.Proofs.Json.Reader
import ApiExposure.Proofs.Json.Rendering

/-!
# Round trips

Whatever a text is decoded to, its form is decoded to the same value, and so is
the compact text of the form when no double is in it. The form can be read back
from its text because it is nested no deeper than the text that the value comes
from, or than the few levels that its type needs.
-/

namespace ApiExposure

/-- The types of the domain that are written as JSON, each with its form. -/
inductive Serializable : (α : Type) → JsonForm α → Prop
  | domainId : Serializable DomainId inferInstance
  | functionId : Serializable FunctionId inferInstance
  | apiId : Serializable ApiId inferInstance
  | invokerId : Serializable InvokerId inferInstance
  | subscriptionId : Serializable SubscriptionId inferInstance
  | features : Serializable Features inferInstance
  | role : Serializable Role inferInstance
  | registrationInfo : Serializable RegistrationInfo inferInstance
  | providerFunction : Serializable ProviderFunction inferInstance
  | providerDomain : Serializable ProviderDomain inferInstance
  | functionEntry : Serializable FunctionEntry inferInstance
  | domainRegistration : Serializable DomainRegistration inferInstance
  | domainPatch : Serializable DomainPatch inferInstance
  | resolvedFunction : Serializable ResolvedFunction inferInstance
  | commType : Serializable CommType inferInstance
  | protocol : Serializable Protocol inferInstance
  | dataFormat : Serializable DataFormat inferInstance
  | securityMethod : Serializable SecurityMethod inferInstance
  | operation : Serializable Operation inferInstance
  | resource : Serializable Resource inferInstance
  | customOperation : Serializable CustomOperation inferInstance
  | apiVersion : Serializable ApiVersion inferInstance
  | location : Serializable Location inferInstance
  | profile : Serializable Profile inferInstance
  | apiDescription : Serializable ApiDescription inferInstance
  | apiPatch : Serializable ApiPatch inferInstance
  | publishedApi : Serializable PublishedApi inferInstance
  | criteria : Serializable Criteria inferInstance
  | onboardingInformation : Serializable OnboardingInformation inferInstance
  | enrolment : Serializable Enrolment inferInstance
  | invokerPatch : Serializable InvokerPatch inferInstance
  | grant : Serializable Grant inferInstance
  | call : Serializable Call inferInstance
  | revocationScope : Serializable RevocationScope inferInstance
  | invokerIdentity : Serializable InvokerIdentity inferInstance
  | clientCredentials : Serializable ClientCredentials inferInstance
  | onboardedInvoker : Serializable OnboardedInvoker inferInstance
  | denyReason : Serializable DenyReason inferInstance
  | collaborator : Serializable Collaborator inferInstance
  | interfaceDescription : Serializable InterfaceDescription inferInstance
  | securityEntry : Serializable SecurityEntry inferInstance
  | securityContext : Serializable SecurityContext inferInstance
  | eventKind : Serializable EventKind inferInstance
  | idLists : Serializable IdLists inferInstance
  | event : Serializable Event inferInstance
  | eventSubscription : Serializable EventSubscription inferInstance
  | notification : Serializable Notification inferInstance

namespace Serializable

variable {α : Type} {f : JsonForm α}

/-- Every form reproduces what is decoded from a draft of at most the greatest depth. -/
theorem reproduces (h : Serializable α f) : Reproduces f.decode f.toJson := by
  cases h with
  | domainId => exact (@DomainId.faithful 0).reproduces (by decide)
  | functionId => exact (@FunctionId.faithful 0).reproduces (by decide)
  | apiId => exact (@ApiId.faithful 0).reproduces (by decide)
  | invokerId => exact (@InvokerId.faithful 0).reproduces (by decide)
  | subscriptionId => exact (@SubscriptionId.faithful 0).reproduces (by decide)
  | features => exact (@Features.faithful 0).reproduces (by decide)
  | role => exact (@Role.faithful 0).reproduces (by decide)
  | registrationInfo => exact (@RegistrationInfo.faithful 0).reproduces (by decide)
  | providerFunction => exact (@ProviderFunction.faithful 0).reproduces (by decide)
  | providerDomain => exact (@ProviderDomain.faithful 0).reproduces (by decide)
  | functionEntry => exact (@FunctionEntry.faithful 0).reproduces (by decide)
  | domainRegistration => exact (@DomainRegistration.faithful 0).reproduces (by decide)
  | domainPatch => exact (@DomainPatch.faithful 0).reproduces (by decide)
  | resolvedFunction => exact (@ResolvedFunction.faithful 0).reproduces (by decide)
  | commType => exact (@CommType.faithful 0).reproduces (by decide)
  | protocol => exact (@Protocol.faithful 0).reproduces (by decide)
  | dataFormat => exact (@DataFormat.faithful 0).reproduces (by decide)
  | securityMethod => exact (@SecurityMethod.faithful 0).reproduces (by decide)
  | operation => exact (@Operation.faithful 0).reproduces (by decide)
  | resource => exact (@Resource.faithful 0).reproduces (by decide)
  | customOperation => exact (@CustomOperation.faithful 0).reproduces (by decide)
  | apiVersion => exact (@ApiVersion.faithful 0).reproduces (by decide)
  | location => exact (@Location.faithful 0).reproduces (by decide)
  | profile => exact (@Profile.faithful 0).reproduces (by decide)
  | apiDescription => exact (@ApiDescription.faithful 0).reproduces (by decide)
  | apiPatch => exact (@ApiPatch.faithful 0).reproduces (by decide)
  | publishedApi => exact PublishedApi.reproduces
  | criteria => exact (@Criteria.faithful 0).reproduces (by decide)
  | onboardingInformation => exact (@OnboardingInformation.faithful 0).reproduces (by decide)
  | enrolment => exact (@Enrolment.faithful 0).reproduces (by decide)
  | invokerPatch => exact (@InvokerPatch.faithful 0).reproduces (by decide)
  | grant => exact (@Grant.faithful 0).reproduces (by decide)
  | call => exact (@Call.faithful 0).reproduces (by decide)
  | revocationScope => exact (@RevocationScope.faithful 0).reproduces (by decide)
  | invokerIdentity => exact (@InvokerIdentity.faithful 0).reproduces (by decide)
  | clientCredentials => exact (@ClientCredentials.faithful 0).reproduces (by decide)
  | onboardedInvoker => exact OnboardedInvoker.reproduces
  | denyReason => exact (@DenyReason.faithful 0).reproduces (by decide)
  | collaborator => exact (@Collaborator.faithful 0).reproduces (by decide)
  | interfaceDescription => exact (@InterfaceDescription.faithful 0).reproduces (by decide)
  | securityEntry => exact (@SecurityEntry.faithful 0).reproduces (by decide)
  | securityContext => exact (@SecurityContext.faithful 0).reproduces (by decide)
  | eventKind => exact (@EventKind.faithful 0).reproduces (by decide)
  | idLists => exact (@IdLists.faithful 0).reproduces (by decide)
  | event => exact (@Event.faithful 0).reproduces (by decide)
  | eventSubscription => exact (@EventSubscription.faithful 0).reproduces (by decide)
  | notification => exact (@Notification.faithful 0).reproduces (by decide)

/-- A text is decoded to what its draft is decoded to, if nothing follows. -/
theorem decode_of_ofText {decode : Decoder α} {text : String} {v : α}
    (h : Decoder.ofText decode text = .ok v) : decode (Json.Text.read text).draft = .ok v := by
  obtain ⟨a, hd, h⟩ := Decoder.bind_eq_ok_iff.mp h
  split at h
  · cases h
    exact hd
  · cases h

/-- Whatever a text is decoded to, the form of that value is decoded to it, as a value and,
unless a double is in it, as a text. -/
theorem round_trip (hf : Serializable α f) {text : String} {v : α}
    (h : Decoder.ofText f.decode text = .ok v) :
    Decoder.ofJson f.decode (f.toJson v) = .ok v ∧
      ((f.toJson v).Integral → Decoder.ofText f.decode (f.toJson v).compact = .ok v) := by
  obtain ⟨hfits, hvalue⟩ := hf.reproduces _ _ (Json.Text.fits_read text) (decode_of_ofText h)
  refine ⟨hvalue, fun hintegral => ?_⟩
  have hread := Json.read_compact hintegral hfits
  simp only [Decoder.ofText, hread, hvalue, bind, Except.bind, if_true]

/-- A published API as a client may write it: keys in another order, a local time, blanks. -/
def sampleText : String :=
  "\x7b\"apfId\":\"p\",\"apiId\":\"a\",\"apiName\":\"maps\",
  \"publishedAt\":\"2024-1-1T1:00:00+01:00\",\"updatedAt\":\"2024-01-01t00:00:00.5z\",
  \"aefProfiles\":[\x7b\"aefId\":\"e\",\"aefLocation\":
  \x7b\"civicAddr\":\x7b\"b\":-1,\"a\":2\x7d\x7d\x7d]\x7d"

/-- The sample as read. -/
def sampleDraft : Draft :=
  .obj [
    (some "apfId", .str "p"), (some "apiId", .str "a"), (some "apiName", .str "maps"),
    (some "publishedAt", .str "2024-1-1T1:00:00+01:00"),
    (some "updatedAt", .str "2024-01-01t00:00:00.5z"),
    (some "aefProfiles", .arr [.obj [
      (some "aefId", .str "e"),
      (some "aefLocation", .obj [
        (some "civicAddr", .obj [(some "b", .int (-1)), (some "a", .int 2)] true)] true)]
      true] true)] true

/-- The sample as decoded. -/
def sampleApi : PublishedApi where
  id := ⟨"a"⟩
  publisher := ⟨"p"⟩
  description := {
    name := "maps"
    profiles := [{
      exposer := ⟨"e"⟩
      location := some { civicAddress := some (.obj [("a", .int 2), ("b", .int (-1))]) } }] }
  publishedAt := ⟨⟨2024, 1, 1⟩, 0, 0, 0⟩
  updatedAt := ⟨⟨2024, 1, 1⟩, 0, 0, 500000000⟩

set_option maxRecDepth 100000 in
/-- The sample text is a draft as a whole. -/
theorem read_sampleText : Json.Text.read sampleText = ⟨sampleDraft, true⟩ := by cbv

/-- The sample comes back from its form, though it was written in another way. -/
theorem round_trip_sample :
    Serializable PublishedApi inferInstance ∧
      Decoder.ofText PublishedApi.decode sampleText = .ok sampleApi ∧
      sampleApi.toJson.Integral ∧
      Decoder.ofJson PublishedApi.decode sampleApi.toJson = .ok sampleApi ∧
      Decoder.ofText PublishedApi.decode sampleApi.toJson.compact = .ok sampleApi := by
  have htext : Decoder.ofText PublishedApi.decode sampleText = .ok sampleApi := by
    rw [Decoder.ofText, read_sampleText]
    rfl
  have hintegral : sampleApi.toJson.Integral := by
    cbv
  have hround := round_trip .publishedApi htext
  exact ⟨.publishedApi, htext, hintegral, hround.1, hround.2 hintegral⟩

end Serializable

end ApiExposure
