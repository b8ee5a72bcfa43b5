import ApiExposure.Features
import ApiExposure.ServiceApi.Description
import ApiExposure.Uuid

/-!
# Events and subscriptions

An event tells which APIs, invokers and exposing functions a change was about.
A subscription names kinds of events and may narrow them by filters, all of
which have to accept an event. A list of identifiers in a filter accepts an
event when it contains every identifier of that sort; an empty list accepts
all.
-/

namespace ApiExposure

/-- Kinds of changes. -/
inductive EventKind where
  /-- An API was published. -/
  | apiAvailable
  /-- An API was withdrawn. -/
  | apiUnavailable
  /-- An API was changed. -/
  | apiUpdated
  /-- An invoker was onboarded. -/
  | invokerOnboarded
  /-- An invoker was offboarded. -/
  | invokerOffboarded
  /-- An invoker was changed. -/
  | invokerUpdated
  /-- Access of an invoker was revoked. -/
  | accessRevoked
  deriving DecidableEq, Repr, Inhabited

namespace EventKind

/-- Every kind. -/
def all : List EventKind :=
  [apiAvailable, apiUnavailable, apiUpdated, invokerOnboarded, invokerOffboarded,
    invokerUpdated, accessRevoked]

/-- The name in JSON and in messages. -/
def code : EventKind → String
  | apiAvailable => "SERVICE_API_AVAILABLE"
  | apiUnavailable => "SERVICE_API_UNAVAILABLE"
  | apiUpdated => "SERVICE_API_UPDATE"
  | invokerOnboarded => "API_INVOKER_ONBOARDED"
  | invokerOffboarded => "API_INVOKER_OFFBOARDED"
  | invokerUpdated => "API_INVOKER_UPDATED"
  | accessRevoked => "API_INVOKER_AUTHORIZATION_REVOKED"

/-- Reads a kind from JSON. -/
def decode : Decoder EventKind := Decoder.named all code

/-- The JSON form. -/
def toJson (k : EventKind) : Json := .str k.code

instance : JsonForm EventKind := ⟨decode, toJson⟩

/-- A kind is read back from its word. -/
theorem decode_toJson (k : EventKind) : decode (Draft.ofJson k.toJson) = .ok k := by
  cases k <;> rfl

end EventKind

/-- Identifiers of three sorts, in an event or in a filter. -/
structure IdLists where
  /-- Identifiers of APIs. -/
  apis : List ApiId := []
  /-- Identifiers of invokers. -/
  invokers : List InvokerId := []
  /-- Identifiers of exposing functions. -/
  exposers : List FunctionId := []
  deriving DecidableEq, Repr, Inhabited

namespace IdLists

/-- The fields in JSON. -/
def record : Record IdLists :=
  IdLists.mk <$> .withDefault "apiIds" (.list ApiId.decode) []
    <*> .withDefault "apiInvokerIds" (.list InvokerId.decode) []
    <*> .withDefault "aefIds" (.list FunctionId.decode) []

/-- Reads lists from JSON. -/
def decode : Decoder IdLists := record.decode

/-- The JSON form. -/
def toJson (l : IdLists) : Json :=
  .ofGroups [
    Json.listMember "apiIds" ApiId.toJson l.apis,
    Json.listMember "apiInvokerIds" InvokerId.toJson l.invokers,
    Json.listMember "aefIds" FunctionId.toJson l.exposers]

instance : JsonForm IdLists := ⟨decode, toJson⟩

/-- Whether a list accepts identifiers: it is empty or contains them all. -/
def allListed {α : Type} [BEq α] (allowed ids : List α) : Bool :=
  allowed.isEmpty || ids.all (allowed.contains ·)

/-- Whether lists taken as a filter accept the lists of an event. -/
def accepts (filter detail : IdLists) : Bool :=
  allListed filter.apis detail.apis && allListed filter.invokers detail.invokers
    && allListed filter.exposers detail.exposers

end IdLists

/-- What a change was about. -/
abbrev EventDetail := IdLists

/-- Narrows a subscription to certain identifiers. -/
abbrev EventFilter := IdLists

/-- A change that is to be made known. -/
structure Change where
  /-- Kind of the change. -/
  kind : EventKind
  /-- What it was about. -/
  detail : EventDetail
  deriving DecidableEq, Repr, Inhabited

namespace Change

/-- A change of an API; it names the API and the exposing functions. -/
def ofApi (kind : EventKind) (a : PublishedApi) : Change :=
  ⟨kind, { apis := [a.id], exposers := a.description.exposers }⟩

/-- A change of an invoker. -/
def ofInvoker (kind : EventKind) (id : InvokerId) : Change := ⟨kind, { invokers := [id] }⟩

/-- Access of an invoker was revoked. -/
def accessRevoked (id : InvokerId) (apis : List ApiId) (exposers : List FunctionId) : Change :=
  ⟨.accessRevoked, ⟨apis, [id], exposers⟩⟩

end Change

/-- A change that was made known. -/
structure Event where
  /-- Identifier of the event. -/
  id : Uuid
  /-- Kind of the change. -/
  kind : EventKind
  /-- When it was made known. -/
  timestamp : Instant
  /-- What it was about. -/
  detail : EventDetail
  deriving DecidableEq, Repr, Inhabited

namespace Event

/-- The fields in JSON. -/
def record : Record Event :=
  Event.mk <$> .required "eventId" (.parsed Uuid.read?) <*> .required "kind" EventKind.decode
    <*> .required "timestamp" .instant <*> .required "detail" IdLists.decode

/-- Reads an event from JSON. -/
def decode : Decoder Event := record.decode

/-- The JSON form. -/
def toJson (e : Event) : Json :=
  .ofGroups [
    Json.member "eventId" (.str e.id.text),
    Json.member "kind" e.kind.toJson,
    Json.member "timestamp" e.timestamp.toJson,
    Json.member "detail" e.detail.toJson]

instance : JsonForm Event := ⟨decode, toJson⟩

/-- The event of a change. -/
def ofChange (id : Uuid) (timestamp : Instant) (c : Change) : Event :=
  ⟨id, c.kind, timestamp, c.detail⟩

end Event

/-- The request to be notified of events. -/
structure EventSubscription where
  /-- Kinds of events. -/
  events : List EventKind
  /-- Where notifications go. -/
  destination : String
  /-- Filters, all of which have to accept. -/
  filters : List EventFilter := []
  /-- Features supported. -/
  features : Option Features := none
  deriving DecidableEq, Repr, Inhabited

namespace EventSubscription

/-- The fields in JSON. -/
def record : Record EventSubscription :=
  EventSubscription.mk <$> .required "events" (.list EventKind.decode)
    <*> .required "notificationDestination" .text
    <*> .withDefault "eventFilters" (.list IdLists.decode) []
    <*> .optional "supportedFeatures" Features.decode

/-- Reads a subscription from JSON. -/
def decode : Decoder EventSubscription := record.decode

/-- The JSON form. -/
def toJson (s : EventSubscription) : Json :=
  .ofGroups [
    Json.member "events" (.ofList EventKind.toJson s.events),
    Json.member "notificationDestination" (.str s.destination),
    Json.listMember "eventFilters" IdLists.toJson s.filters,
    Json.optionalMember "supportedFeatures" Features.toJson s.features]

instance : JsonForm EventSubscription := ⟨decode, toJson⟩

/-- Checks that a kind is named and that the destination is a URL. -/
def validate (s : EventSubscription) : Outcome Unit := do
  require (!s.events.isEmpty) .noEventKind
  requireUrl s.destination

/-- Whether the subscription is for an event. -/
def matchesEvent (s : EventSubscription) (e : Event) : Bool :=
  s.events.contains e.kind && s.filters.all (fun f => f.accepts e.detail)

end EventSubscription

/-- What a subscriber is told. -/
structure Notification where
  /-- The subscription that asked for it. -/
  subscription : SubscriptionId
  /-- Kind of the event. -/
  kind : EventKind
  /-- What the event was about. -/
  detail : EventDetail
  /-- Identifier of the event. -/
  event : Uuid
  /-- When the event was made known. -/
  timestamp : Instant
  deriving DecidableEq, Repr, Inhabited

namespace Notification

/-- The fields in JSON. -/
def record : Record Notification :=
  Notification.mk <$> .required "subscriptionId" SubscriptionId.decode
    <*> .required "events" EventKind.decode <*> .required "eventDetail" IdLists.decode
    <*> .required "eventId" (.parsed Uuid.read?) <*> .required "timestamp" .instant

/-- Reads a notification from JSON. -/
def decode : Decoder Notification := record.decode

/-- The JSON form. -/
def toJson (n : Notification) : Json :=
  .ofGroups [
    Json.member "subscriptionId" n.subscription.toJson,
    Json.member "events" n.kind.toJson,
    Json.member "eventDetail" n.detail.toJson,
    Json.member "eventId" (.str n.event.text),
    Json.member "timestamp" n.timestamp.toJson]

instance : JsonForm Notification := ⟨decode, toJson⟩

/-- The notification of an event for a subscription. -/
def ofEvent (id : SubscriptionId) (e : Event) : Notification :=
  ⟨id, e.kind, e.detail, e.id, e.timestamp⟩

end Notification

end ApiExposure
