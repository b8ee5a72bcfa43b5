import ApiExposure.Core.Authorization
import ApiExposure.Core.Discovery
import ApiExposure.Core.Invoking
import ApiExposure.Core.Providing
import ApiExposure.Http.DiscoveryQuery
import ApiExposure.Http.Routing
import ApiExposure.IdentityProvider
import ApiExposure.Settings.Basic

/-!
# The service

Requests are answered from the core, in surroundings that reply to its calls. A
request first needs a route and a method, then sound parameters, a sound query or
a sound body, and only then is the operation tried. The service that is run has an
identity provider in the same process, and endpoints and events that need no one
else.
-/

namespace ApiExposure.Http

/-- The version that the service reports. -/
def serviceVersion : String := "0.1.3"

/-- A running service whose collaborators remember something of their own. -/
structure Host (σ : Type) where
  /-- Settings of the server. -/
  settings : ServerSettings
  /-- Registries. -/
  core : Core
  /-- What the collaborators remember. -/
  memory : σ
  /-- When the service was started. -/
  startedAt : Instant

/-- A running service that remembers the clients of its identity provider. -/
abbrev Service := Host Clients

/-- Seconds in words. -/
def uptimeText (seconds : Int) : String :=
  if seconds < 60 then toString seconds ++ "s"
  else if seconds < 3600 then toString (seconds / 60) ++ "m " ++ toString (seconds % 60) ++ "s"
  else if seconds < 86400 then
    toString (seconds / 3600) ++ "h " ++ toString (seconds % 3600 / 60) ++ "m"
  else toString (seconds / 86400) ++ "d " ++ toString (seconds % 86400 / 3600) ++ "h"

/-- Surroundings within one process: the identity provider answers at once with a given secret
for a new client, endpoints need no work and nobody listens to changes. -/
def inProcess (secret : String) : Flow.Surroundings (StateM Clients) where
  errand := fun core e => do
    match e with
    | .removeClient id => modify (·.remove id)
    | .provision _ _ _ => pure ()
    | .deprovision _ _ => pure ()
    pure (.ok (), core)
  register := fun core id => do
    match (← get).register id secret with
    | .ok (credentials, clients) =>
      set clients
      pure (.ok credentials, core)
    | .error outage => pure (.error outage, core)
  announce := fun core _ => pure core

/-- A request on its way through the service. -/
structure Visit (σ : Type) where
  /-- The service as it was found. -/
  service : Host σ
  /-- The request. -/
  request : Request
  /-- Parameters of its path. -/
  parameters : List String
  /-- Time and fresh identifiers. -/
  occasion : Occasion
  /-- What replies to calls. -/
  surroundings : Flow.Surroundings (StateM σ)

namespace Host

variable {σ : Type}

/-- How long the service has been running, in words. -/
def uptime (s : Host σ) (now : Instant) : String := uptimeText (now.secondsSince s.startedAt)

/-- What the service reports about itself. -/
def report (s : Host σ) (now : Instant) : List (List (String × Json)) := [
  Json.member "status" (.str "healthy"),
  Json.member "version" (.str serviceVersion),
  Json.member "uptime" (.str (s.uptime now))]

/-- Sizes of the registries. -/
def sizes (s : Host σ) : Json :=
  .ofMembers [
    ("provider_domains", .int s.core.providers.list.length),
    ("published_apis", .int s.core.store.size),
    ("onboarded_invokers", .int s.core.invokers.list.length),
    ("revoked_tuples", .int s.core.ledger.revokedCount),
    ("subscriptions", .int s.core.subscriptions.size)]

end Host

namespace Visit

variable {σ : Type}

/-- The parameter at a position of the path. -/
def parameter (v : Visit σ) (position : Nat) : String := v.parameters.getD position ""

/-- Answers without a change. -/
def answer (v : Visit σ) (response : Response) : Response × Host σ := (response, v.service)

/-- Answers with what an operation found. -/
def tell {α : Type} (v : Visit σ) (outcome : Outcome α) (form : α → Response) :
    Response × Host σ :=
  match outcome with
  | .ok a => v.answer (form a)
  | .error f => v.answer (.ofProblem (.ofFailure f))

/-- Performs an operation and answers with its result. -/
def perform {α : Type} (v : Visit σ) (flow : Flow α) (form : α → Response) :
    Response × Host σ :=
  let ((core, outcome), memory) := (flow.perform v.surroundings).run v.service.memory
  let after := { v with service := { v.service with core, memory } }
  after.tell outcome form

/-- Performs an operation without collaborators. -/
def update {α : Type} (v : Visit σ) (outcome : Outcome (α × Core)) (form : α → Response) :
    Response × Host σ :=
  v.perform (.ofOutcome v.service.core outcome) form

/-- Goes on with the body of the request. -/
def withBody {α : Type} [JsonForm α] (v : Visit σ) (next : α → Response × Host σ) :
    Response × Host σ :=
  match v.request.read v.service.settings.maxBody with
  | .ok a => next a
  | .error p => v.answer (.ofProblem p)

/-- Goes on with the query of the request. -/
def withQuery {α : Type} (v : Visit σ) (record : Record α) (next : α → Response × Host σ) :
    Response × Host σ :=
  match record.decode (.obj (v.request.queryPairs.map (fun p => (some p.1, .str p.2))) true) with
  | .ok a => next a
  | .error _ => v.answer .badQuery

/-- A truth value in a query. -/
def truth? (text : String) : Option Bool :=
  if text = "true" then some true else if text = "false" then some false else none

/-- Which credentials a reader of a security context asks for. -/
def credentialsRecord : Record (Bool × Bool) :=
  Prod.mk <$> .withDefault "authenticationInfo" (.parsed truth?) false
    <*> .withDefault "authorizationInfo" (.parsed truth?) false

/-- Discovery; an invoker that is not onboarded counts as not found. -/
def discover (v : Visit σ) : Response × Host σ :=
  v.withQuery DiscoveryQuery.record (fun q =>
    match q.request with
    | .error cause => v.answer (.ofProblem (.badRequest cause))
    | .ok (id, criteria) =>
      match v.service.core.discover id criteria with
      | .error (.denied .unknownInvoker) =>
        v.answer (.ofProblem (.notFound (.invoker id)))
      | outcome =>
        v.tell outcome (fun apis =>
          .ok (.ofMembers [("serviceAPIDescriptions", .ofList PublishedApi.toJson apis)])))

/-- The form of a decision. -/
def decisionJson (d : Decision) : Json :=
  .ofGroups [
    Json.member "allowed" (.bool d.isAllowed),
    Json.optionalMember "reason" DenyReason.toJson d.reason?]

/-- Answers a request at its endpoint. -/
def handle (v : Visit σ) (endpoint : Endpoint) : Response × Host σ :=
  let core := v.service.core
  let now := v.occasion.now
  let invoker : InvokerId := ⟨v.parameter 0⟩
  let domain : DomainId := ⟨v.parameter 0⟩
  let publisher : FunctionId := ⟨v.parameter 0⟩
  let api : ApiId := ⟨v.parameter 1⟩
  let done : Unit → Response := fun _ => .noContent
  match endpoint with
  | .health => v.answer (.ok (.ofGroups (v.service.report now)))
  | .status =>
    v.answer (.ok (.ofGroups (v.service.report now ++ [
      Json.member "started_at" v.service.startedAt.toJson,
      Json.member "stats" v.service.sizes])))
  | .registerProvider =>
    v.withBody (fun r : DomainRegistration =>
      v.update (core.registerProvider r v.occasion) (fun d =>
        .created ("/api-provider-management/v1/registrations/" ++ d.id.text) d.toJson))
  | .readProvider => v.tell (core.providers.get domain) (fun d => .ok d.toJson)
  | .updateProvider =>
    v.withBody (fun p : DomainPatch =>
      v.update (core.updateProvider domain p v.occasion) (fun d => .ok d.toJson))
  | .deregisterProvider =>
    v.perform (core.deregisterProvider domain now) (fun _ => .noContent)
  | .listApis =>
    v.tell (core.listApis publisher) (fun apis => .ok (.ofList PublishedApi.toJson apis))
  | .publish =>
    v.withBody (fun d : ApiDescription =>
      v.perform (core.publish publisher d v.occasion) (fun a =>
        .created ("/published-apis/v1/" ++ a.publisher.text ++ "/service-apis/" ++ a.id.text)
          a.toJson))
  | .readApi => v.tell (core.store.getFor publisher api) (fun a => .ok a.toJson)
  | .updateApi =>
    v.withBody (fun p : ApiPatch =>
      v.perform (core.updateApi publisher api p now) (fun a => .ok a.toJson))
  | .unpublish => v.perform (core.unpublish publisher api) done
  | .onboard =>
    v.withBody (fun e : Enrolment =>
      v.perform (core.onboard e v.occasion) (fun o =>
        .created ("/api-invoker-management/v1/onboardedInvokers/" ++ o.identity.id.text)
          o.toJson))
  | .readInvoker => v.tell (core.invokers.get invoker) (fun i => .ok i.toJson)
  | .updateInvoker =>
    v.withBody (fun p : InvokerPatch =>
      v.perform (core.updateInvoker invoker p now) (fun i => .ok i.toJson))
  | .offboard => v.perform (core.offboard invoker now) done
  | .listGrants =>
    v.tell (core.invokers.grantsOf invoker) (fun gs => .ok (.ofList Grant.toJson gs))
  | .addGrant =>
    v.withBody (fun g : Grant => v.update (core.grant invoker g now) done)
  | .removeGrant =>
    v.withBody (fun g : Grant => v.update (core.removeGrant invoker g) done)
  | .discover => v.discover
  | .check =>
    v.withBody (fun c : Call => v.tell (core.check c now) (fun d => .ok (decisionJson d)))
  | .revoke => v.withBody (fun c : Call => v.perform (core.revoke c now) done)
  | .readContext =>
    v.withQuery credentialsRecord (fun (authentication, authorization) =>
      v.tell (core.trusted.get invoker authentication authorization) (fun c => .ok c.toJson))
  | .createContext =>
    v.withBody (fun c : SecurityContext =>
      v.update (core.createContext invoker c) (fun c =>
        .created ("/capif-security/v1/trustedInvokers/" ++ invoker.text) c.toJson))
  | .updateContext =>
    v.withBody (fun c : SecurityContext =>
      v.update (core.updateContext invoker c) (fun c => .ok c.toJson))
  | .revokeAccess =>
    v.withBody (fun s : RevocationScope =>
      v.perform (core.revokeAccess invoker s now) (fun _ => .noContent))
  | .subscribe =>
    v.withBody (fun s : EventSubscription =>
      v.update (core.subscribe (v.parameter 0) s) (fun id =>
        .created ("/capif-events/v1/" ++ v.parameter 0 ++ "/subscriptions/" ++ id.text)
          s.toJson))
  | .unsubscribe => v.update (core.unsubscribe (v.parameter 0) ⟨v.parameter 1⟩) done

end Visit

namespace Host

variable {σ : Type}

/-- Answers a request at its route. -/
def dispatch (s : Host σ) (r : Request) (o : Occasion) (w : Flow.Surroundings (StateM σ)) :
    Response × Host σ :=
  match Route.find? r.segments with
  | none => ({ status := 404 }, s)
  | some (route, raw) =>
    match route.endpoint? r.method with
    | none => ({ status := 405, allow := route.allowed }, s)
    | some endpoint =>
      match decodeParameters raw with
      | .error name => (.badParameter name, s)
      | .ok parameters => Visit.handle ⟨s, r, parameters, o, w⟩ endpoint

/-- The answer to a question about the options of a target: its methods, if it is known. -/
def options (r : Request) : Response :=
  match Route.find? r.segments with
  | none => { status := 200 }
  | some (route, _) => { status := 200, allow := route.allowed }

/-- Answers a request. Where pages of any origin may call, every question about options is
answered; a request for a header alone gets no body. -/
def serveIn (s : Host σ) (r : Request) (o : Occasion) (w : Flow.Surroundings (StateM σ)) :
    Response × Host σ :=
  if s.settings.allowOrigins && r.method == "OPTIONS" then
    ({ options r with anyOrigin := true }, s)
  else
    let (response, after) := s.dispatch r o w
    let body := if r.method = "HEAD" then .empty else response.body
    ({ response with anyOrigin := s.settings.allowOrigins, body }, after)

end Host

namespace Service

/-- A service that has just been started. -/
def start (settings : ServerSettings) (now : Instant) : Service :=
  ⟨settings, .fresh, .empty, now⟩

/-- Answers a request within one process. -/
def serve (s : Service) (r : Request) (o : Occasion) (secret : String) : Response × Service :=
  s.serveIn r o (inProcess secret)

end Service

end ApiExposure.Http
