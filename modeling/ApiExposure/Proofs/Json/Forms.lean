import ApiExposure.Criteria
import ApiExposure.Event
import ApiExposure.Invoker
import ApiExposure.Security
import ApiExposure.Proofs.Json.Record
import ApiExposure.Proofs.Text.Uuid
import ApiExposure.Proofs.Time.Instant

/-!
# Forms of the domain

The form of every type of the domain is faithful: texts, names of choices and
instants because each is read as it is written, records field by field in the
order of their declaration.
-/

namespace ApiExposure

open Record

variable {need : Nat}

/-- Instants are written as they are read, to the nanosecond. -/
theorem Instant.faithful : Faithful need .instant Instant.toJson :=
  Decoder.faithful_parsed Instant.text Instant.read?_text_of_read?

/-- Identifiers of events are written with hyphens, however they were read. -/
theorem Uuid.faithful : Faithful need (.parsed Uuid.read?) (fun u => .str u.text) :=
  Decoder.faithful_parsed Uuid.text Uuid.read?_text_of_read?

/-- An identifier of a domain is its text. -/
theorem DomainId.faithful : Faithful need DomainId.decode DomainId.toJson :=
  Decoder.faithful_of_str DomainId.text fun _ => rfl

theorem FunctionId.faithful : Faithful need FunctionId.decode FunctionId.toJson :=
  Decoder.faithful_of_str FunctionId.text fun _ => rfl

theorem ApiId.faithful : Faithful need ApiId.decode ApiId.toJson :=
  Decoder.faithful_of_str ApiId.text fun _ => rfl

theorem InvokerId.faithful : Faithful need InvokerId.decode InvokerId.toJson :=
  Decoder.faithful_of_str InvokerId.text fun _ => rfl

theorem SubscriptionId.faithful : Faithful need SubscriptionId.decode SubscriptionId.toJson :=
  Decoder.faithful_of_str SubscriptionId.text fun _ => rfl

/-- Features are written in the digits in which they were read. -/
theorem Features.faithful : Faithful need Features.decode Features.toJson :=
  Decoder.faithful_parsed Features.text fun _ => Features.parse?_text _

/-- A role is one of its words. -/
theorem Role.faithful : Faithful need Role.decode Role.toJson :=
  Decoder.faithful_named Role.decode_toJson

/-- A communication type is one of its words. -/
theorem CommType.faithful : Faithful need CommType.decode CommType.toJson :=
  Decoder.faithful_named CommType.decode_toJson

theorem Protocol.faithful : Faithful need Protocol.decode Protocol.toJson :=
  Decoder.faithful_named Protocol.decode_toJson

theorem DataFormat.faithful : Faithful need DataFormat.decode DataFormat.toJson :=
  Decoder.faithful_named DataFormat.decode_toJson

theorem SecurityMethod.faithful : Faithful need SecurityMethod.decode SecurityMethod.toJson :=
  Decoder.faithful_named SecurityMethod.decode_toJson

theorem Operation.faithful : Faithful need Operation.decode Operation.toJson :=
  Decoder.faithful_named Operation.decode_toJson

/-- A kind of event is one of its words. -/
theorem EventKind.faithful : Faithful need EventKind.decode EventKind.toJson :=
  Decoder.faithful_named EventKind.decode_toJson

theorem DenyReason.faithful : Faithful need DenyReason.decode DenyReason.toJson :=
  Decoder.faithful_named DenyReason.decode_toJson

theorem Collaborator.faithful : Faithful need Collaborator.decode Collaborator.toJson :=
  Decoder.faithful_named Collaborator.decode_toJson

/-- A key, with a certificate or without. -/
theorem RegistrationInfo.faithful :
    Faithful (need + 1) RegistrationInfo.decode RegistrationInfo.toJson :=
  Tracks.faithful (by decide) <| (Tracks.pure fun _ _ => rfl)
    |>.seq (tracks_required Decoder.faithful_text)
    |>.seq (tracks_optional Decoder.faithful_text)

/-- A function; only what is said about it may be missing. -/
theorem ProviderFunction.faithful :
    Faithful (need + 2) ProviderFunction.decode ProviderFunction.toJson :=
  Tracks.faithful (by decide) <| (Tracks.pure fun _ _ _ _ => rfl)
    |>.seq (tracks_required FunctionId.faithful)
    |>.seq (tracks_required Role.faithful)
    |>.seq (tracks_optional Decoder.faithful_text)
    |>.seq (tracks_required RegistrationInfo.faithful)

/-- A domain with its functions, which take two levels below the list. -/
theorem ProviderDomain.faithful :
    Faithful (need + 4) ProviderDomain.decode ProviderDomain.toJson :=
  Tracks.faithful (by decide) <| (Tracks.pure fun _ _ _ _ _ _ => rfl)
    |>.seq (tracks_required DomainId.faithful)
    |>.seq (tracks_optional Decoder.faithful_text)
    |>.seq (tracks_required Decoder.faithful_text)
    |>.seq (tracks_required (Decoder.faithful_list ProviderFunction.faithful))
    |>.seq (tracks_required Instant.faithful)
    |>.seq (tracks_required Instant.faithful)

/-- An entry for a function, in which everything may be missing. -/
theorem FunctionEntry.faithful :
    Faithful (need + 2) FunctionEntry.decode FunctionEntry.toJson :=
  Tracks.faithful (by decide) <| (Tracks.pure fun _ _ _ _ => rfl)
    |>.seq (tracks_optional FunctionId.faithful)
    |>.seq (tracks_optional Role.faithful)
    |>.seq (tracks_optional Decoder.faithful_text)
    |>.seq (tracks_optional RegistrationInfo.faithful)

/-- A registration, in which a missing credential is a blank one and a missing list an empty one.
Both are written out. -/
theorem DomainRegistration.faithful :
    Faithful (need + 4) DomainRegistration.decode DomainRegistration.toJson :=
  Tracks.faithful (by decide) <| (Tracks.pure fun _ _ _ => rfl)
    |>.seq (tracks_optional Decoder.faithful_text)
    |>.seq tracks_defaultText
    |>.seq (tracks_defaultList FunctionEntry.faithful)

/-- A patch of a domain, in which missing entries are none. -/
theorem DomainPatch.faithful :
    Faithful (need + 4) DomainPatch.decode DomainPatch.toJson :=
  Tracks.faithful (by decide) <| (Tracks.pure fun _ _ _ => rfl)
    |>.seq (tracks_optional Decoder.faithful_text)
    |>.seq (tracks_optional Decoder.faithful_text)
    |>.seq (tracks_defaultList FunctionEntry.faithful)

/-- A function that was looked up: its domain and its role. -/
theorem ResolvedFunction.faithful :
    Faithful (need + 1) ResolvedFunction.decode ResolvedFunction.toJson :=
  Tracks.faithful (by decide) <| (Tracks.pure fun _ _ => rfl)
    |>.seq (tracks_required DomainId.faithful)
    |>.seq (tracks_required Role.faithful)

/-- A resource, whose operations are left out when there are none. -/
theorem Resource.faithful :
    Faithful (need + 2) Resource.decode Resource.toJson :=
  Tracks.faithful (by decide) <| (Tracks.pure fun _ _ _ _ _ _ => rfl)
    |>.seq (tracks_required Decoder.faithful_text)
    |>.seq (tracks_required CommType.faithful)
    |>.seq (tracks_required Decoder.faithful_text)
    |>.seq (tracks_optional Decoder.faithful_text)
    |>.seq (tracks_list Operation.faithful)
    |>.seq (tracks_optional Decoder.faithful_text)

/-- A custom operation, whose operations are left out when there are none. -/
theorem CustomOperation.faithful :
    Faithful (need + 2) CustomOperation.decode CustomOperation.toJson :=
  Tracks.faithful (by decide) <| (Tracks.pure fun _ _ _ _ => rfl)
    |>.seq (tracks_required Decoder.faithful_text)
    |>.seq (tracks_required CommType.faithful)
    |>.seq (tracks_list Operation.faithful)
    |>.seq (tracks_optional Decoder.faithful_text)

/-- A version with its resources and custom operations, each left out when there are none. -/
theorem ApiVersion.faithful :
    Faithful (need + 4) ApiVersion.decode ApiVersion.toJson :=
  Tracks.faithful (by decide) <| (Tracks.pure fun _ _ _ _ => rfl)
    |>.seq (tracks_required Decoder.faithful_text)
    |>.seq (tracks_optional Instant.faithful)
    |>.seq (tracks_list Resource.faithful)
    |>.seq (tracks_list CustomOperation.faithful)

/-- A location, two members of which may be any JSON. -/
theorem Location.faithful :
    Faithful (need + 1) Location.decode Location.toJson :=
  Tracks.faithful (by decide) <| (Tracks.pure fun _ _ _ => rfl)
    |>.seq (tracks_optional Decoder.faithful_text)
    |>.seq (tracks_optional Decoder.faithful_json)
    |>.seq (tracks_optional Decoder.faithful_json)

/-- A profile, of which only the exposer has to be there. -/
theorem Profile.faithful :
    Faithful (need + 2) Profile.decode Profile.toJson :=
  Tracks.faithful (by decide) <| (Tracks.pure fun _ _ _ _ _ _ => rfl)
    |>.seq (tracks_required FunctionId.faithful)
    |>.seq (tracks_optional Location.faithful)
    |>.seq (tracks_optional Protocol.faithful)
    |>.seq (tracks_optional DataFormat.faithful)
    |>.seq (tracks_list SecurityMethod.faithful)
    |>.seq (tracks_optional Decoder.faithful_text)

/-- The members of a description are those of its record. -/
theorem ApiDescription.tracks :
    Tracks (need + 5) ApiDescription.record fun d groups => d.members = groups :=
  (Tracks.pure fun _ _ _ _ _ _ _ _ => rfl)
    |>.seq (tracks_required Decoder.faithful_text)
    |>.seq (tracks_optional Decoder.faithful_text)
    |>.seq (tracks_defaultList Profile.faithful)
    |>.seq (tracks_defaultList ApiVersion.faithful)
    |>.seq (tracks_optional Features.faithful)
    |>.seq (tracks_optional Features.faithful)
    |>.seq (tracks_optional Decoder.faithful_text)
    |>.seq (tracks_optional Decoder.faithful_text)

/-- A description with its profiles and versions, which are written even when there are none. -/
theorem ApiDescription.faithful :
    Faithful (need + 6) ApiDescription.decode ApiDescription.toJson :=
  Tracks.faithful (by decide) <|
    ApiDescription.tracks.imp fun _ _ hmembers => congrArg Json.ofGroups hmembers

/-- The other members of a published API. -/
theorem PublishedApi.tracks : Tracks need PublishedApi.ownRecord fun own groups =>
    [Json.member "apiId" own.1.toJson, Json.member "apfId" own.2.1.toJson,
      Json.member "publishedAt" own.2.2.1.toJson,
      Json.member "updatedAt" own.2.2.2.toJson] = groups :=
  (Tracks.pure fun _ _ _ _ => rfl)
    |>.seq (tracks_required ApiId.faithful)
    |>.seq (tracks_required FunctionId.faithful)
    |>.seq (tracks_required Instant.faithful)
    |>.seq (tracks_required Instant.faithful)

/-- A published API is its description with members of its own in one object. -/
theorem PublishedApi.reproduces : Reproduces PublishedApi.decode PublishedApi.toJson :=
  reproduces_flattened (by decide) PublishedApi.tracks (@ApiDescription.tracks 0)
    (fun _ _ => rfl) (by decide)

/-- A patch of an API. Lists that are there are written even when they are empty, as they then
replace what was there. -/
theorem ApiPatch.faithful :
    Faithful (need + 6) ApiPatch.decode ApiPatch.toJson :=
  Tracks.faithful (by decide) <| (Tracks.pure fun _ _ _ _ _ _ _ _ => rfl)
    |>.seq (tracks_optional Decoder.faithful_text)
    |>.seq (tracks_optional Decoder.faithful_text)
    |>.seq (tracks_optional (Decoder.faithful_list Profile.faithful))
    |>.seq (tracks_optional (Decoder.faithful_list ApiVersion.faithful))
    |>.seq (tracks_optional Features.faithful)
    |>.seq (tracks_optional Features.faithful)
    |>.seq (tracks_optional Decoder.faithful_text)
    |>.seq (tracks_optional Decoder.faithful_text)

/-- Criteria of a discovery, each of which may be missing. -/
theorem Criteria.faithful :
    Faithful (need + 2) Criteria.decode Criteria.toJson :=
  Tracks.faithful (by decide) <| (Tracks.pure fun _ _ _ _ _ _ _ _ _ _ => rfl)
    |>.seq (tracks_optional Decoder.faithful_text)
    |>.seq (tracks_optional Decoder.faithful_text)
    |>.seq (tracks_optional CommType.faithful)
    |>.seq (tracks_optional Protocol.faithful)
    |>.seq (tracks_optional FunctionId.faithful)
    |>.seq (tracks_optional DataFormat.faithful)
    |>.seq (tracks_optional Decoder.faithful_text)
    |>.seq (tracks_optional Location.faithful)
    |>.seq (tracks_optional Features.faithful)
    |>.seq (tracks_optional Features.faithful)

/-- The particulars of an onboarding, in which a missing key is a blank one. -/
theorem OnboardingInformation.faithful :
    Faithful (need + 1) OnboardingInformation.decode OnboardingInformation.toJson :=
  Tracks.faithful (by decide) <| (Tracks.pure fun _ _ => rfl)
    |>.seq tracks_defaultText
    |>.seq (tracks_optional Decoder.faithful_text)

/-- An enrolment, in which missing APIs are none. -/
theorem Enrolment.faithful :
    Faithful (need + 2) Enrolment.decode Enrolment.toJson :=
  Tracks.faithful (by decide) <| (Tracks.pure fun _ _ _ _ _ => rfl)
    |>.seq (tracks_required OnboardingInformation.faithful)
    |>.seq (tracks_optional Decoder.faithful_text)
    |>.seq (tracks_optional Decoder.faithful_text)
    |>.seq (tracks_defaultList ApiId.faithful)
    |>.seq (tracks_optional Features.faithful)

/-- A patch of an invoker, in which everything may be missing. -/
theorem InvokerPatch.faithful :
    Faithful (need + 2) InvokerPatch.decode InvokerPatch.toJson :=
  Tracks.faithful (by decide) <| (Tracks.pure fun _ _ _ _ => rfl)
    |>.seq (tracks_optional OnboardingInformation.faithful)
    |>.seq (tracks_optional Decoder.faithful_text)
    |>.seq (tracks_optional Decoder.faithful_text)
    |>.seq (tracks_optional Features.faithful)

/-- A grant, all of which has to be there. -/
theorem Grant.faithful :
    Faithful (need + 1) Grant.decode Grant.toJson :=
  Tracks.faithful (by decide) <| (Tracks.pure fun _ _ _ _ => rfl)
    |>.seq (tracks_required ApiId.faithful)
    |>.seq (tracks_required FunctionId.faithful)
    |>.seq (tracks_required Decoder.faithful_text)
    |>.seq (tracks_required Decoder.faithful_text)

/-- A call, all of which has to be there. -/
theorem Call.faithful :
    Faithful (need + 1) Call.decode Call.toJson :=
  Tracks.faithful (by decide) <| (Tracks.pure fun _ _ _ _ => rfl)
    |>.seq (tracks_required InvokerId.faithful)
    |>.seq (tracks_required FunctionId.faithful)
    |>.seq (tracks_required Decoder.faithful_text)
    |>.seq (tracks_required Decoder.faithful_text)

/-- A scope, in which missing APIs are none. -/
theorem RevocationScope.faithful :
    Faithful (need + 2) RevocationScope.decode RevocationScope.toJson :=
  Tracks.faithful (by decide) <| (Tracks.pure fun _ _ => rfl)
    |>.seq (tracks_optional FunctionId.faithful)
    |>.seq (tracks_defaultList ApiId.faithful)

/-- The credentials of a client. -/
theorem ClientCredentials.faithful :
    Faithful (need + 1) ClientCredentials.decode ClientCredentials.toJson :=
  Tracks.faithful (by decide) <| (Tracks.pure fun _ _ => rfl)
    |>.seq (tracks_required Decoder.faithful_text)
    |>.seq (tracks_required Decoder.faithful_text)

/-- The members of an identity are those of its record. -/
theorem InvokerIdentity.tracks :
    Tracks (need + 2) InvokerIdentity.record fun i groups => i.members = groups :=
  (Tracks.pure fun _ _ _ _ _ _ _ _ => rfl)
    |>.seq (tracks_required InvokerId.faithful)
    |>.seq (tracks_required OnboardingInformation.faithful)
    |>.seq (tracks_optional Decoder.faithful_text)
    |>.seq (tracks_optional Decoder.faithful_text)
    |>.seq (tracks_optional Features.faithful)
    |>.seq (tracks_defaultList Grant.faithful)
    |>.seq (tracks_required Instant.faithful)
    |>.seq (tracks_required Instant.faithful)

/-- An invoker with its grants, which are none where they are missing. -/
theorem InvokerIdentity.faithful :
    Faithful (need + 3) InvokerIdentity.decode InvokerIdentity.toJson :=
  Tracks.faithful (by decide) <|
    InvokerIdentity.tracks.imp fun _ _ hmembers => congrArg Json.ofGroups hmembers

/-- The members of the credentials beside an identity. -/
theorem OnboardedInvoker.tracks :
    Tracks (need + 1) (.required "clientCredentials" ClientCredentials.decode)
      fun c groups => [Json.member "clientCredentials" c.toJson] = groups :=
  (tracks_required ClientCredentials.faithful).imp fun _ _ h => h.symm

/-- An onboarded invoker is its identity with the credentials in one object. -/
theorem OnboardedInvoker.reproduces :
    Reproduces OnboardedInvoker.decode OnboardedInvoker.toJson :=
  reproduces_flattened (by decide) OnboardedInvoker.tracks (@InvokerIdentity.tracks 0)
    (fun _ _ => rfl) (by decide)

/-- An interface, whose port has 16 bits. -/
theorem InterfaceDescription.faithful :
    Faithful (need + 2) InterfaceDescription.decode InterfaceDescription.toJson :=
  Tracks.faithful (by decide) <| (Tracks.pure fun _ _ _ _ => rfl)
    |>.seq (tracks_optional Decoder.faithful_text)
    |>.seq (tracks_optional Decoder.faithful_text)
    |>.seq (tracks_optional (Decoder.faithful_natUpTo (by decide)))
    |>.seq (tracks_list SecurityMethod.faithful)

/-- An entry of a security context, in which everything may be missing. -/
theorem SecurityEntry.faithful :
    Faithful (need + 3) SecurityEntry.decode SecurityEntry.toJson :=
  Tracks.faithful (by decide) <| (Tracks.pure fun _ _ _ _ _ _ _ => rfl)
    |>.seq (tracks_optional ApiId.faithful)
    |>.seq (tracks_optional FunctionId.faithful)
    |>.seq (tracks_optional InterfaceDescription.faithful)
    |>.seq (tracks_defaultList SecurityMethod.faithful)
    |>.seq (tracks_optional SecurityMethod.faithful)
    |>.seq (tracks_optional Decoder.faithful_text)
    |>.seq (tracks_optional Decoder.faithful_text)

/-- A security context, whose entries have to be there. -/
theorem SecurityContext.faithful :
    Faithful (need + 5) SecurityContext.decode SecurityContext.toJson :=
  Tracks.faithful (by decide) <| (Tracks.pure fun _ _ _ => rfl)
    |>.seq (tracks_required (Decoder.faithful_list SecurityEntry.faithful))
    |>.seq (tracks_required Decoder.faithful_text)
    |>.seq (tracks_optional Features.faithful)

/-- Lists of identifiers, each left out when it is empty. -/
theorem IdLists.faithful :
    Faithful (need + 2) IdLists.decode IdLists.toJson :=
  Tracks.faithful (by decide) <| (Tracks.pure fun _ _ _ => rfl)
    |>.seq (tracks_list ApiId.faithful)
    |>.seq (tracks_list InvokerId.faithful)
    |>.seq (tracks_list FunctionId.faithful)

/-- An event with the identifiers that it concerns. -/
theorem Event.faithful :
    Faithful (need + 3) Event.decode Event.toJson :=
  Tracks.faithful (by decide) <| (Tracks.pure fun _ _ _ _ => rfl)
    |>.seq (tracks_required Uuid.faithful)
    |>.seq (tracks_required EventKind.faithful)
    |>.seq (tracks_required Instant.faithful)
    |>.seq (tracks_required IdLists.faithful)

/-- A subscription, whose filters are left out when there are none. -/
theorem EventSubscription.faithful :
    Faithful (need + 4) EventSubscription.decode EventSubscription.toJson :=
  Tracks.faithful (by decide) <| (Tracks.pure fun _ _ _ _ => rfl)
    |>.seq (tracks_required (Decoder.faithful_list EventKind.faithful))
    |>.seq (tracks_required Decoder.faithful_text)
    |>.seq (tracks_list IdLists.faithful)
    |>.seq (tracks_optional Features.faithful)

/-- A notification: an event with the subscription that it is sent for. -/
theorem Notification.faithful :
    Faithful (need + 3) Notification.decode Notification.toJson :=
  Tracks.faithful (by decide) <| (Tracks.pure fun _ _ _ _ _ => rfl)
    |>.seq (tracks_required SubscriptionId.faithful)
    |>.seq (tracks_required EventKind.faithful)
    |>.seq (tracks_required IdLists.faithful)
    |>.seq (tracks_required Uuid.faithful)
    |>.seq (tracks_required Instant.faithful)

end ApiExposure
