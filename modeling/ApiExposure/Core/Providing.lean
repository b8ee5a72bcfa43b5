import ApiExposure.Core.Flow

/-!
# Provider and publication operations

A publication is checked, its endpoint is set up, and it is checked again when
it is recorded, because providers may have changed meanwhile; a refusal takes
the endpoint down again. A withdrawal takes the endpoint down first, and the API
stays if that fails. When a domain goes, all that depends on its functions goes
in the same step, and endpoints are taken down afterwards.
-/

namespace ApiExposure.Core

/-- Registers a domain. -/
def registerProvider (c : Core) (r : DomainRegistration) (o : Occasion) :
    Outcome (ProviderDomain × Core) := do
  let (domain, providers) ← c.providers.register r o
  .ok (domain, { c with providers })

/-- Applies a patch to a domain. -/
def updateProvider (c : Core) (id : DomainId) (p : DomainPatch) (o : Occasion) :
    Outcome (ProviderDomain × Core) := do
  let (domain, providers) ← c.providers.update id p o
  .ok (domain, { c with providers })

/-- Makes the updates of a cascade known, then ends. -/
def announceUpdates (functions : List FunctionId) : List PublishedApi → Core →
    Flow (List FunctionId)
  | [], c => .done c (.ok functions)
  | a :: as, c => .announce c (.ofApi .apiUpdated a) (announceUpdates functions as)

/-- Takes down the endpoints of dropped APIs one by one and makes each withdrawal known,
whether or not its endpoint could be taken down. -/
def withdrawAll (functions : List FunctionId) (updated : List PublishedApi) :
    List PublishedApi → Core → Flow (List FunctionId)
  | [], c => announceUpdates functions updated c
  | a :: as, c =>
    .errand c (.deprovision a.id a.publisher) (fun _ c =>
      .announce c (.ofApi .apiUnavailable a) (withdrawAll functions updated as))

/-- Removes a domain and all that depends on its functions. -/
def deregisterProvider (c : Core) (id : DomainId) (now : Instant) : Flow (List FunctionId) :=
  match c.providers.deregister id with
  | .error f => .done c (.error f)
  | .ok (functions, providers) =>
    let (store, cascade) := c.store.invalidate functions now
    withdrawAll functions cascade.updated cascade.removed { c with providers, store }

/-- Publishes an API. -/
def publish (c : Core) (publisher : FunctionId) (d : ApiDescription) (o : Occasion) :
    Flow PublishedApi :=
  match c.store.validate c.providers publisher d with
  | .error f => .done c (.error f)
  | .ok _ =>
    let id := ApiId.generate (o.suffix 0)
    .errand c (.provision id publisher d) (fun reply c =>
      match reply with
      | .error outage => .done c (.error (.unavailable outage))
      | .ok _ =>
        match c.store.publishAs c.providers id publisher d o.now with
        | .error f => .errand c (.deprovision id publisher) (fun _ c => .done c (.error f))
        | .ok (a, store) =>
          .announce { c with store } (.ofApi .apiAvailable a) (fun c => .done c (.ok a)))

/-- Applies a patch to an API of its publisher. -/
def updateApi (c : Core) (publisher : FunctionId) (id : ApiId) (p : ApiPatch) (now : Instant) :
    Flow PublishedApi :=
  match c.store.updateFor c.providers publisher id p now with
  | .error f => .done c (.error f)
  | .ok (a, store) =>
    .announce { c with store } (.ofApi .apiUpdated a) (fun c => .done c (.ok a))

/-- Withdraws an API of its publisher. -/
def unpublish (c : Core) (publisher : FunctionId) (id : ApiId) : Flow Unit :=
  match c.store.getFor publisher id with
  | .error f => .done c (.error f)
  | .ok a =>
    .errand c (.deprovision a.id publisher) (fun reply c =>
      match reply with
      | .error outage => .done c (.error (.unavailable outage))
      | .ok _ =>
        match c.store.unpublish id with
        | .error f => .done c (.error f)
        | .ok (a, store) =>
          .announce { c with store } (.ofApi .apiUnavailable a) (fun c => .done c (.ok ())))

/-- APIs of a live publisher, in the order of publication. -/
def listApis (c : Core) (publisher : FunctionId) : Outcome (List PublishedApi) := do
  c.providers.requirePublisher publisher
  .ok (c.store.listFor publisher)

end ApiExposure.Core
