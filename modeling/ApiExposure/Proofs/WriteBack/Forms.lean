import ApiExposure.Proofs.Json.Among
import ApiExposure.Proofs.Json.Forms

/-!
# Resources as patches of themselves

The form of a resource has the members of a patch that repeats it, and others that a patch does
not know: identifiers, times, the publisher of an API and the grants of an invoker. Read as a
patch, it is the patch that repeats the resource. It makes no difference whether the form is read
as a value or from its text, because no form is too deep and the only doubles that can be in one
are in the locations of profiles.

An entry of a patch can say all that a function of a domain says, so the form of a function is
that of the entry that repeats it.
-/

namespace ApiExposure

open Record
open Decoder (keeps_of_str keeps_list)
open Json (textual_str textual_ofList textual_ofGroups each_member each_optionalMember
  each_listMember)

/-- The entry that repeats a function. -/
def ProviderFunction.asEntry (f : ProviderFunction) : FunctionEntry :=
  ⟨some f.id, some f.role, f.info, some f.registration⟩

/-- The patch that repeats a domain. -/
def ProviderDomain.asPatch (d : ProviderDomain) : DomainPatch :=
  ⟨d.info, some d.credential, d.functions.map (·.asEntry)⟩

/-- The patch that repeats an API. -/
def PublishedApi.asPatch (a : PublishedApi) : ApiPatch where
  name := some a.name
  description := a.description.description
  profiles := some a.description.profiles
  versions := some a.description.versions
  features := a.description.features
  apiFeatures := a.description.apiFeatures
  category := a.description.category
  framework := a.description.framework

/-- The patch that repeats an invoker. -/
def InvokerIdentity.asPatch (i : InvokerIdentity) : InvokerPatch :=
  ⟨some i.onboarding, i.destination, i.information, i.features⟩

variable {n : Nat}

/-- A text keeps in its form at every depth. -/
theorem Decoder.keeps_text (s : String) : Keeps Decoder.text .str n s :=
  ⟨trivial, trivial, fun b => by rw [Draft.asRead_str]; rfl⟩

/-- An identifier of a function keeps, since its form is its text. -/
theorem FunctionId.keeps (id : FunctionId) : Keeps decode toJson n id := keeps_of_str rfl

theorem Role.keeps (role : Role) : Keeps decode toJson n role := keeps_of_str role.decode_toJson

theorem Features.keeps (f : Features) : Keeps decode toJson n f := keeps_of_str f.decode_toJson

open Decoder (keeps_text)

/-- An optional text. -/
theorem writes_optionalText {name : String} (s : Option String) :
    (Record.optional name Decoder.text).Writes n s [(name, s.map .str)] :=
  writes_optional fun s _ => ⟨keeps_text s, by simp⟩

/-- Optional features. -/
theorem writes_optionalFeatures {name : String} (f : Option Features) :
    (Record.optional name Features.decode).Writes n f [(name, f.map Features.toJson)] :=
  writes_optional fun f _ => ⟨f.keeps, by simp [Features.toJson]⟩

/-- A key with its certificate keeps one level deep, whether the certificate is there or not. -/
theorem RegistrationInfo.keeps (r : RegistrationInfo) : Keeps decode toJson (n + 1) r := by
  have hwrites : record.Writes n r
      [("apiProvPubKey", some (.str r.publicKey)), ("apiProvCert", r.certificate.map .str)] :=
    (Writes.pure n RegistrationInfo.mk)
      |>.seq (writes_field (keeps_text _))
      |>.seq (writes_optionalText _)
  exact hwrites.keeps (by decide) (by simp only [toJson, List.map, members_some, members_map])

/-- The particulars of an onboarding keep one level deep. -/
theorem OnboardingInformation.keeps (o : OnboardingInformation) :
    Keeps decode toJson (n + 1) o := by
  have hwrites : record.Writes n o [("apiInvokerPublicKey", some (.str o.publicKey)),
      ("apiInvokerCertificate", o.certificate.map .str)] :=
    (Writes.pure n OnboardingInformation.mk)
      |>.seq (writes_field (keeps_text _))
      |>.seq (writes_optionalText _)
  exact hwrites.keeps (by decide) (by simp only [toJson, List.map, members_some, members_map])

/-- The entry that repeats a function keeps two levels deep. -/
theorem ProviderFunction.keeps_asEntry (f : ProviderFunction) :
    Keeps FunctionEntry.decode FunctionEntry.toJson (n + 2) f.asEntry := by
  have hwrites : FunctionEntry.record.Writes (n + 1) f.asEntry [
      ("apiProvFuncId", some f.id.toJson), ("apiProvFuncRole", some f.role.toJson),
      ("apiProvFuncInfo", f.info.map .str), ("regInfo", some f.registration.toJson)] :=
    (Writes.pure (n + 1) FunctionEntry.mk)
      |>.seq (writes_present f.id.keeps nofun)
      |>.seq (writes_present f.role.keeps nofun)
      |>.seq (writes_optionalText _)
      |>.seq (writes_present f.registration.keeps nofun)
  refine hwrites.keeps (by decide) ?_
  simp only [FunctionEntry.toJson, asEntry, List.map, members_some, members_map]
  rfl

/-- An entry that repeats a function is written like the function. -/
theorem ProviderFunction.toJson_asEntry (f : ProviderFunction) : f.asEntry.toJson = f.toJson := rfl

/-- The form of a domain, read as a patch, is the patch that repeats the domain: the identifier is a
member that patches do not look at. -/
theorem ProviderDomain.decode_asPatch (d : ProviderDomain) :
    Decoder.ofJson DomainPatch.decode d.toJson = .ok d.asPatch := by
  have hfunctions : Json.ofList FunctionEntry.toJson (d.functions.map (·.asEntry)) =
      .ofList ProviderFunction.toJson d.functions := by
    simp only [Json.ofList, List.map_map, Function.comp_def, ProviderFunction.toJson_asEntry]
  have hwrites : DomainPatch.record.Writes 3 d.asPatch [
      ("apiProvDomInfo", d.info.map .str), ("regSec", some (.str d.credential)),
      ("apiProvFuncs", some (.ofList ProviderFunction.toJson d.functions))] := by
    rw [← hfunctions]
    exact (Writes.pure 3 DomainPatch.mk)
      |>.seq (writes_optionalText _)
      |>.seq (writes_present (keeps_text _) (by simp))
      |>.seq (writes_field (keeps_list (List.forall_mem_map.mpr fun f _ => f.keeps_asEntry)))
  have hread := hwrites.decode_among
    ((List.sublist_append_left _ [("registeredAt", some d.registeredAt.toJson),
      ("updatedAt", some d.updatedAt.toJson)]).cons ("apiProvDomId", some d.id.toJson))
    (show ["apiProvDomId", "apiProvDomInfo", "regSec", "apiProvFuncs", "registeredAt",
      "updatedAt"].Nodup by decide)
  simp only [List.map, List.cons_append, List.nil_append, members_some, members_map] at hread
  exact hread

/-- The form of an invoker, read as a patch, is the patch that repeats the invoker; grants are not
patched. -/
theorem InvokerIdentity.decode_asPatch (i : InvokerIdentity) :
    Decoder.ofJson InvokerPatch.decode i.toJson = .ok i.asPatch := by
  have hwrites : InvokerPatch.record.Writes 1 i.asPatch [
      ("onboardingInformation", some i.onboarding.toJson),
      ("notificationDestination", i.destination.map .str),
      ("apiInvokerInformation", i.information.map .str),
      ("supportedFeatures", i.features.map Features.toJson)] :=
    (Writes.pure 1 InvokerPatch.mk)
      |>.seq (writes_present i.onboarding.keeps nofun)
      |>.seq (writes_optionalText _)
      |>.seq (writes_optionalText _)
      |>.seq (writes_optionalFeatures _)
  have hread := hwrites.decode_among
    ((List.sublist_append_left _ [("apiList", some (.ofList Grant.toJson i.grants)),
      ("onboardedAt", some i.onboardedAt.toJson), ("updatedAt", some i.updatedAt.toJson)]).cons
        ("apiInvokerId", some i.id.toJson))
    (show ["apiInvokerId", "onboardingInformation", "notificationDestination",
      "apiInvokerInformation", "supportedFeatures", "apiList", "onboardedAt",
      "updatedAt"].Nodup by decide)
  simp only [List.map, List.cons_append, List.nil_append, members_some, members_map] at hread
  exact hread

/-- The profiles and versions of an API keep where the form of the API has them. -/
structure PublishedApi.ListsKeep (a : PublishedApi) (n : Nat) : Prop where
  /-- The profiles keep. -/
  profiles : ∀ p ∈ a.description.profiles, Keeps Profile.decode Profile.toJson n p
  /-- The versions keep. -/
  versions : ∀ v ∈ a.description.versions, Keeps ApiVersion.decode ApiVersion.toJson n v

/-- The form of an API, read as a patch, is the patch that repeats the API, if its lists keep. -/
theorem PublishedApi.decode_asPatch {a : PublishedApi} (ha : a.ListsKeep n) :
    Decoder.ofJson ApiPatch.decode a.toJson = .ok a.asPatch := by
  have hwrites : ApiPatch.record.Writes (n + 1) a.asPatch [
      ("apiName", some (.str a.name)), ("description", a.description.description.map .str),
      ("aefProfiles", some (.ofList Profile.toJson a.description.profiles)),
      ("versions", some (.ofList ApiVersion.toJson a.description.versions)),
      ("supportedFeatures", a.description.features.map Features.toJson),
      ("apiSuppFeats", a.description.apiFeatures.map Features.toJson),
      ("serviceAPICategory", a.description.category.map .str),
      ("ccfId", a.description.framework.map .str)] :=
    (Writes.pure (n + 1) ApiPatch.mk)
      |>.seq (writes_present (keeps_text _) (by simp))
      |>.seq (writes_optionalText _)
      |>.seq (writes_present (keeps_list ha.profiles) nofun)
      |>.seq (writes_present (keeps_list ha.versions) nofun)
      |>.seq (writes_optionalFeatures _)
      |>.seq (writes_optionalFeatures _)
      |>.seq (writes_optionalText _)
      |>.seq (writes_optionalText _)
  have hread := hwrites.decode_among
    (List.sublist_append_right [("apiId", some a.id.toJson), ("apfId", some a.publisher.toJson),
      ("publishedAt", some a.publishedAt.toJson), ("updatedAt", some a.updatedAt.toJson)] _)
    (show ["apiId", "apfId", "publishedAt", "updatedAt", "apiName", "description", "aefProfiles",
      "versions", "supportedFeatures", "apiSuppFeats", "serviceAPICategory",
      "ccfId"].Nodup by decide)
  simp only [List.map, List.cons_append, List.nil_append, members_some, members_map] at hread
  exact hread

/-- No double is in a location. -/
structure Location.Integral (l : Location) : Prop where
  /-- None in the civic address. -/
  civicAddress : ∀ v ∈ l.civicAddress, v.Integral
  /-- None in the geographic area. -/
  geoArea : ∀ v ∈ l.geoArea, v.Integral

theorem RegistrationInfo.textual (r : RegistrationInfo) : r.toJson.Textual (n + 1) := by
  refine textual_ofGroups ?_
  simp only [List.Forall]
  exact ⟨each_member (textual_str _), each_optionalMember fun s _ => textual_str s⟩

/-- A function can be read back from its text. -/
theorem ProviderFunction.textual (f : ProviderFunction) : f.toJson.Textual (n + 2) := by
  refine textual_ofGroups ?_
  simp only [List.Forall]
  exact ⟨each_member (textual_str _), each_member (textual_str _),
    each_optionalMember fun s _ => textual_str s, each_member f.registration.textual⟩

/-- A domain can be read back from its text, its functions included. -/
theorem ProviderDomain.textual (d : ProviderDomain) : d.toJson.Textual (n + 4) := by
  refine textual_ofGroups ?_
  simp only [List.Forall]
  exact ⟨each_member (textual_str _), each_optionalMember fun s _ => textual_str s,
    each_member (textual_str _), each_member (textual_ofList fun f _ => f.textual),
    each_member (textual_str _), each_member (textual_str _)⟩

theorem OnboardingInformation.textual (o : OnboardingInformation) :
    o.toJson.Textual (n + 1) := by
  refine textual_ofGroups ?_
  simp only [List.Forall]
  exact ⟨each_member (textual_str _), each_optionalMember fun s _ => textual_str s⟩

theorem Grant.textual (g : Grant) : g.toJson.Textual (n + 1) := by
  refine textual_ofGroups ?_
  simp only [List.Forall]
  exact ⟨each_member (textual_str _), each_member (textual_str _),
    each_member (textual_str _), each_member (textual_str _)⟩

/-- An invoker can be read back from its text, its grants included. -/
theorem InvokerIdentity.textual (i : InvokerIdentity) : i.toJson.Textual (n + 3) := by
  refine textual_ofGroups ?_
  simp only [InvokerIdentity.members, List.Forall]
  exact ⟨each_member (textual_str _), each_member i.onboarding.textual,
    each_optionalMember fun s _ => textual_str s,
    each_optionalMember fun s _ => textual_str s,
    each_optionalMember fun f _ => textual_str f.text,
    each_member (textual_ofList fun g _ => g.textual),
    each_member (textual_str _), each_member (textual_str _)⟩

/-- A resource can be read back from its text. -/
theorem Resource.textual (r : Resource) : r.toJson.Textual (n + 2) := by
  refine textual_ofGroups ?_
  simp only [List.Forall]
  exact ⟨each_member (textual_str _), each_member (textual_str _),
    each_member (textual_str _), each_optionalMember fun s _ => textual_str s,
    each_listMember (textual_ofList fun m _ => textual_str m.code),
    each_optionalMember fun s _ => textual_str s⟩

theorem CustomOperation.textual (c : CustomOperation) : c.toJson.Textual (n + 2) := by
  refine textual_ofGroups ?_
  simp only [List.Forall]
  exact ⟨each_member (textual_str _), each_member (textual_str _),
    each_listMember (textual_ofList fun m _ => textual_str m.code),
    each_optionalMember fun s _ => textual_str s⟩

/-- A version can be read back from its text, its resources and operations included. -/
theorem ApiVersion.textual (v : ApiVersion) : v.toJson.Textual (n + 4) := by
  refine textual_ofGroups ?_
  simp only [List.Forall]
  exact ⟨each_member (textual_str _), each_optionalMember fun t _ => textual_str t.text,
    each_listMember (textual_ofList fun r _ => r.textual),
    each_listMember (textual_ofList fun c _ => c.textual)⟩

/-- The only doubles in the form of a profile are those of its location. -/
theorem Profile.integral {p : Profile} (hp : ∀ l ∈ p.location, l.Integral) :
    p.toJson.Integral := by
  have hlocation : ∀ l ∈ p.location, l.toJson.Integral := by
    intro l hl
    refine Json.integral_ofGroups ?_
    simp only [List.Forall]
    exact ⟨each_optionalMember fun _ _ => trivial, each_optionalMember (hp l hl).civicAddress,
      each_optionalMember (hp l hl).geoArea⟩
  refine Json.integral_ofGroups ?_
  simp only [List.Forall]
  exact ⟨each_member trivial, each_optionalMember hlocation,
    each_optionalMember fun _ _ => trivial, each_optionalMember fun _ _ => trivial,
    each_listMember (Json.integral_arr.mpr (List.forall_mem_map.mpr fun _ _ => trivial)),
    each_optionalMember fun _ _ => trivial⟩

/-- So the text of an API is as good as its form where the locations have no doubles. -/
theorem PublishedApi.textual {a : PublishedApi} (hkeep : a.ListsKeep (n + 4))
    (hlocations : ∀ p ∈ a.description.profiles, ∀ l ∈ p.location, l.Integral) :
    a.toJson.Textual (n + 6) := by
  refine textual_ofGroups ?_
  simp only [ApiDescription.members, List.cons_append, List.nil_append, List.Forall]
  exact ⟨each_member (textual_str _), each_member (textual_str _), each_member (textual_str _),
    each_member (textual_str _), each_member (textual_str _),
    each_optionalMember fun s _ => textual_str s,
    each_member (textual_ofList fun p hp => ⟨Profile.integral (hlocations p hp),
      (hkeep.profiles p hp).fits⟩),
    each_member (textual_ofList fun v _ => v.textual),
    each_optionalMember fun f _ => textual_str f.text,
    each_optionalMember fun f _ => textual_str f.text,
    each_optionalMember fun s _ => textual_str s, each_optionalMember fun s _ => textual_str s⟩

end ApiExposure
