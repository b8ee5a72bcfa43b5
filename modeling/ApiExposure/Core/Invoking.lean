import ApiExposure.Core.Flow

/-!
# Invoker, grant and revocation operations

An invoker gets its client before it is onboarded, with grants for the APIs it
asked for as far as they are published then. It loses its client before it is
offboarded, and every grant that it holds then is revoked. An explicit grant
has to fit the published API and clears a revocation; a bulk revocation revokes
every matching grant and removes the matching entries of the security context.
-/

namespace ApiExposure.Core

/-- Onboards an invoker. -/
def onboard (c : Core) (e : Enrolment) (o : Occasion) : Flow OnboardedInvoker :=
  match e.validate with
  | .error f => .done c (.error f)
  | .ok _ =>
    let id := InvokerId.generate (o.suffix 0)
    .register c id (fun reply c =>
      match reply with
      | .error outage => .done c (.error (.unavailable outage))
      | .ok credentials =>
        match c.invokers.onboardAs id e (c.store.grantable e.requested) o.now with
        | .error f => .errand c (.removeClient id) (fun _ c => .done c (.error f))
        | .ok (identity, invokers) =>
          .announce { c with invokers } (.ofInvoker .invokerOnboarded id)
            (fun c => .done c (.ok ⟨identity, credentials⟩)))

/-- Applies a patch to an invoker. -/
def updateInvoker (c : Core) (id : InvokerId) (p : InvokerPatch) (now : Instant) :
    Flow InvokerIdentity :=
  match c.invokers.update id p now with
  | .error f => .done c (.error f)
  | .ok (identity, invokers) =>
    .announce { c with invokers } (.ofInvoker .invokerUpdated id)
      (fun c => .done c (.ok identity))

/-- Revokes the calls of grants. -/
def revokeGrants (l : Ledger) (id : InvokerId) (grants : List Grant) (now : Instant) : Ledger :=
  grants.foldl (fun l g => l.revoke (g.call id) now) l

/-- Offboards an invoker. -/
def offboard (c : Core) (id : InvokerId) (now : Instant) : Flow Unit :=
  if c.invokers.contains id then
    .errand c (.removeClient id) (fun reply c =>
      match reply with
      | .error outage => .done c (.error (.unavailable outage))
      | .ok _ =>
        match c.invokers.deregister id with
        | .error f => .done c (.error f)
        | .ok (identity, invokers) =>
          let after := { c with
            invokers
            ledger := revokeGrants c.ledger id identity.grants now
            trusted := (c.trusted.remove id).2 }
          .announce after (.ofInvoker .invokerOffboarded id) (fun c => .done c (.ok ())))
  else .done c (.error (.notFound (.invoker id)))

/-- Whether a grant fits the API that it names. -/
def fits (a : PublishedApi) (g : Grant) : Bool :=
  a.exposedBy g.exposer && a.name == g.apiName && (a.version? g.version).isSome

/-- Adds a grant for a published API and clears a revocation of its call. -/
def grant (c : Core) (id : InvokerId) (g : Grant) (now : Instant) : Outcome (Unit × Core) := do
  g.validate
  let a ← c.store.get g.api
  require (fits a g) (.grantMismatch g.api)
  let (_, invokers) ← c.invokers.grant id g
  .ok ((), { c with invokers, ledger := (c.ledger.reinstate (g.call id) now).2 })

/-- Removes a grant. -/
def removeGrant (c : Core) (id : InvokerId) (g : Grant) : Outcome (Unit × Core) := do
  let invokers ← c.invokers.removeGrant id g
  .ok ((), { c with invokers })

/-- Revokes one call, whether or not it was ever granted. -/
def revoke (c : Core) (call : Call) (now : Instant) : Flow Unit :=
  match call.validate with
  | .error f => .done c (.error f)
  | .ok _ =>
    .announce { c with ledger := c.ledger.revoke call now }
      (.accessRevoked call.invoker [] [call.exposer]) (fun c => .done c (.ok ()))

/-- Revokes the calls of grants one by one; stops at the first with a blank field. -/
def revokeEach (id : InvokerId) (now : Instant) : List Grant → Ledger → Ledger × Outcome Unit
  | [], l => (l, .ok ())
  | g :: gs, l =>
    match (g.call id).validate with
    | .error f => (l, .error f)
    | .ok _ => revokeEach id now gs (l.revoke (g.call id) now)

/-- Texts in ascending order, each once. -/
def ascending (texts : List String) : List String :=
  (texts.mergeSort (fun a b => decide (a ≤ b))).eraseDups

/-- Revokes every grant of an invoker within a scope. -/
def revokeAccess (c : Core) (id : InvokerId) (scope : RevocationScope) (now : Instant) :
    Flow (List Grant) :=
  if scope.isEmpty then .done c (.error (.invalid .emptyScope))
  else
    match c.invokers.grantsMatching id scope with
    | .error f => .done c (.error f)
    | .ok grants =>
      match revokeEach id now grants c.ledger with
      | (ledger, .error f) => .done { c with ledger } (.error f)
      | (ledger, .ok _) =>
        let after := { c with ledger, trusted := (c.trusted.revoke id scope).2 }
        if grants.isEmpty then .done after (.ok grants)
        else
          let apis := (ascending (grants.map (·.api.text))).map ApiId.mk
          let exposers := (ascending (grants.map (·.exposer.text))).map FunctionId.mk
          .announce after (.accessRevoked id apis exposers) (fun c => .done c (.ok grants))

/-- Stores the security context of an invoker. -/
def createContext (c : Core) (id : InvokerId) (context : SecurityContext) :
    Outcome (SecurityContext × Core) := do
  let (context, trusted) ← c.trusted.create c.store c.invokers id context
  .ok (context, { c with trusted })

/-- Replaces the security context of an invoker. -/
def updateContext (c : Core) (id : InvokerId) (context : SecurityContext) :
    Outcome (SecurityContext × Core) := do
  let (context, trusted) ← c.trusted.update c.store id context
  .ok (context, { c with trusted })

/-- Enters a subscription to events. -/
def subscribe (c : Core) (subscriber : String) (s : EventSubscription) :
    Outcome (SubscriptionId × Core) := do
  let (id, subscriptions) ← c.subscriptions.subscribe subscriber s
  .ok (id, { c with subscriptions })

/-- Ends a subscription to events. -/
def unsubscribe (c : Core) (subscriber : String) (id : SubscriptionId) :
    Outcome (Unit × Core) := do
  let subscriptions ← c.subscriptions.unsubscribe subscriber id
  .ok ((), { c with subscriptions })

end ApiExposure.Core
