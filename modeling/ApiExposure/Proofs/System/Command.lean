import ApiExposure.Core.Authorization
import ApiExposure.Core.Discovery
import ApiExposure.Core.Invoking
import ApiExposure.Core.Providing

/-!
# Commands to the core

Everything that can be asked of the core, as data: questions, which only read,
and commands, each of which is a flow when it starts in a state. A flow that
waits goes on by one reply at a time. It is settled once its result is decided
and nothing that it still does changes a state; a settled flow that is left
alone ends with that result in the state that it has reached.
-/

namespace ApiExposure

/-- What can be asked without a change. -/
inductive Query where
  /-- A domain. -/
  | provider (id : DomainId)
  /-- All domains. -/
  | providers
  /-- Domain and role of a function. -/
  | function (id : FunctionId)
  /-- An API of a publisher. -/
  | api (publisher : FunctionId) (id : ApiId)
  /-- All APIs of a publisher. -/
  | apis (publisher : FunctionId)
  /-- An invoker. -/
  | invoker (id : InvokerId)
  /-- Grants of an invoker. -/
  | grants (id : InvokerId)
  /-- The APIs that an invoker may see. -/
  | discovery (id : InvokerId) (criteria : Criteria)
  /-- The decision on a call. -/
  | decision (call : Call)
  /-- The security context of an invoker. -/
  | context (id : InvokerId) (authentication authorization : Bool)

namespace Query

/-- What answers a question. -/
@[reducible]
def Answer : Query → Type
  | provider _ => ProviderDomain
  | providers => List ProviderDomain
  | function _ => ResolvedFunction
  | api _ _ => PublishedApi
  | apis _ => List PublishedApi
  | invoker _ => InvokerIdentity
  | grants _ => List Grant
  | discovery _ _ => List PublishedApi
  | decision _ => Decision
  | context _ _ _ => SecurityContext

/-- The answer in a state at a time. -/
def answer (c : Core) (now : Instant) : (q : Query) → Outcome q.Answer
  | provider id => c.providers.get id
  | providers => .ok c.providers.list
  | function id => c.providers.resolve id
  | api publisher id => c.store.getFor publisher id
  | apis publisher => c.listApis publisher
  | invoker id => c.invokers.get id
  | grants id => c.invokers.grantsOf id
  | discovery id criteria => c.discover id criteria
  | decision call => c.check call now
  | context id authentication authorization => c.trusted.get id authentication authorization

end Query

/-- What the core can be told to do. -/
inductive Command where
  /-- Register a domain. -/
  | registerProvider (r : DomainRegistration)
  /-- Patch a domain. -/
  | updateProvider (id : DomainId) (p : DomainPatch)
  /-- Remove a domain. -/
  | deregisterProvider (id : DomainId)
  /-- Publish an API. -/
  | publish (publisher : FunctionId) (d : ApiDescription)
  /-- Patch an API. -/
  | updateApi (publisher : FunctionId) (id : ApiId) (p : ApiPatch)
  /-- Withdraw an API. -/
  | unpublish (publisher : FunctionId) (id : ApiId)
  /-- Onboard an invoker. -/
  | onboard (e : Enrolment)
  /-- Patch an invoker. -/
  | updateInvoker (id : InvokerId) (p : InvokerPatch)
  /-- Offboard an invoker. -/
  | offboard (id : InvokerId)
  /-- Add a grant. -/
  | grant (id : InvokerId) (g : Grant)
  /-- Remove a grant. -/
  | removeGrant (id : InvokerId) (g : Grant)
  /-- Revoke a call. -/
  | revoke (call : Call)
  /-- Revoke all grants within a scope. -/
  | revokeAccess (id : InvokerId) (scope : RevocationScope)
  /-- Store a security context. -/
  | createContext (id : InvokerId) (context : SecurityContext)
  /-- Replace a security context. -/
  | updateContext (id : InvokerId) (context : SecurityContext)
  /-- Subscribe to events. -/
  | subscribe (subscriber : String) (s : EventSubscription)
  /-- End a subscription. -/
  | unsubscribe (subscriber : String) (id : SubscriptionId)
  /-- Answer a question. -/
  | ask (q : Query)

namespace Command

/-- What a command returns. -/
@[reducible]
def Result : Command → Type
  | registerProvider _ => ProviderDomain
  | updateProvider _ _ => ProviderDomain
  | deregisterProvider _ => List FunctionId
  | publish _ _ => PublishedApi
  | updateApi _ _ _ => PublishedApi
  | unpublish _ _ => Unit
  | onboard _ => OnboardedInvoker
  | updateInvoker _ _ => InvokerIdentity
  | offboard _ => Unit
  | grant _ _ => Unit
  | removeGrant _ _ => Unit
  | revoke _ => Unit
  | revokeAccess _ _ => List Grant
  | createContext _ _ => SecurityContext
  | updateContext _ _ => SecurityContext
  | subscribe _ _ => SubscriptionId
  | unsubscribe _ _ => Unit
  | ask q => q.Answer

/-- Starts a command in a state. -/
def start (o : Occasion) (c : Core) : (command : Command) → Flow command.Result
  | registerProvider r => .ofOutcome c (c.registerProvider r o)
  | updateProvider id p => .ofOutcome c (c.updateProvider id p o)
  | deregisterProvider id => c.deregisterProvider id o.now
  | publish publisher d => c.publish publisher d o
  | updateApi publisher id p => c.updateApi publisher id p o.now
  | unpublish publisher id => c.unpublish publisher id
  | onboard e => c.onboard e o
  | updateInvoker id p => c.updateInvoker id p o.now
  | offboard id => c.offboard id o.now
  | grant id g => .ofOutcome c (c.grant id g o.now)
  | removeGrant id g => .ofOutcome c (c.removeGrant id g)
  | revoke call => c.revoke call o.now
  | revokeAccess id scope => c.revokeAccess id scope o.now
  | createContext id context => .ofOutcome c (c.createContext id context)
  | updateContext id context => .ofOutcome c (c.updateContext id context)
  | subscribe subscriber s => .ofOutcome c (c.subscribe subscriber s)
  | unsubscribe subscriber id => .ofOutcome c (c.unsubscribe subscriber id)
  | ask q => .done c (q.answer c o.now)

/-- Whether a command asks a collaborator before it takes effect. -/
def asksFirst : Command → Bool
  | publish _ _ | unpublish _ _ | onboard _ | offboard _ => true
  | _ => false

end Command

/-- The reply to what a flow waits for. -/
inductive Reply where
  /-- The outcome of an errand. -/
  | errand (r : Except Outage Unit)
  /-- The credentials of a new client. -/
  | client (r : Except Outage ClientCredentials)
  /-- A change was handed on, whether or not it was taken. -/
  | announced

namespace Reply

/-- Whether the collaborator did what it was asked for. -/
def isSuccess : Reply → Bool
  | errand r => r.isOk
  | client r => r.isOk
  | announced => true

end Reply

namespace Flow

variable {α : Type}

/-- The state that a flow has reached. -/
def state : Flow α → Core
  | done s _ => s
  | errand s _ _ => s
  | register s _ _ => s
  | announce s _ _ => s

/-- Goes on by one reply with the state found then; a reply of another kind is none. -/
def resume : Flow α → Reply → Core → Option (Flow α)
  | errand _ _ next, .errand r, c => some (next r c)
  | register _ _ next, .client r, c => some (next r c)
  | announce _ _ next, .announced, c => some (next c)
  | _, _, _ => none

/-- The result is decided, and whatever the replies to come, every state is left as it is
found. -/
def Settled (r : Outcome α) : Flow α → Prop
  | done _ result => result = r
  | errand _ _ next => ∀ reply c, (next reply c).state = c ∧ (next reply c).Settled r
  | register _ _ next => ∀ reply c, (next reply c).state = c ∧ (next reply c).Settled r
  | announce _ _ next => ∀ c, (next c).state = c ∧ (next c).Settled r

/-- Surroundings in which nothing else happens: every call gets its reply and finds the state
as it was left. -/
def Surroundings.quiet (errand : Errand → Except Outage Unit)
    (client : InvokerId → Except Outage ClientCredentials) : Surroundings Id where
  errand c e := (errand e, c)
  register c id := (client id, c)
  announce c _ := c

/-- The reply that a waiting flow gets in surroundings. -/
def replyIn (s : Surroundings Id) : Flow α → Option Reply
  | done _ _ => none
  | errand c e _ => some (.errand (s.errand c e).1)
  | register c id _ => some (.client (s.register c id).1)
  | announce _ _ _ => some .announced

/-- A settled flow stays settled, and keeps what it finds. -/
theorem Settled.resume {f g : Flow α} {r : Outcome α} {reply : Reply} {c : Core}
    (h : f.Settled r) (hg : f.resume reply c = some g) : g.state = c ∧ g.Settled r := by
  cases f <;> cases reply <;> simp only [Flow.resume, Option.some.injEq, reduceCtorEq] at hg
  all_goals subst hg
  · exact h _ _
  · exact h _ _
  · exact h _

/-- No flow is settled in two ways. -/
theorem Settled.unique {f : Flow α} {r q : Outcome α} (hr : f.Settled r) (hq : f.Settled q) :
    r = q := by
  induction f with
  | done _ _ => exact hr.symm.trans hq
  | errand _ _ _ ih => exact ih (.ok ()) .fresh (hr _ _).2 (hq _ _).2
  | register _ _ _ ih => exact ih (.error ⟨.identityProvider, ""⟩) .fresh (hr _ _).2 (hq _ _).2
  | announce _ _ _ ih => exact ih .fresh (hr _).2 (hq _).2

/-- Left alone, a settled flow ends in the state that it has reached. -/
theorem Settled.perform {f : Flow α} {r : Outcome α} (h : f.Settled r)
    (errand : Errand → Except Outage Unit)
    (client : InvokerId → Except Outage ClientCredentials) :
    f.perform (.quiet errand client) = (f.state, r) := by
  induction f with
  | done s result => exact congrArg (Prod.mk s) h
  | errand s e next ih => exact (ih _ s (h _ s).2).trans (by rw [(h _ s).1]; rfl)
  | register s id next ih => exact (ih _ s (h _ s).2).trans (by rw [(h _ s).1]; rfl)
  | announce s change next ih => exact (ih s (h s).2).trans (by rw [(h s).1]; rfl)

/-- Performing a waiting flow alone is going on with the reply that it gets. -/
theorem perform_of_resume {f g : Flow α} {reply : Reply}
    {errand : Errand → Except Outage Unit}
    {client : InvokerId → Except Outage ClientCredentials}
    (hr : f.replyIn (.quiet errand client) = some reply)
    (hg : f.resume reply f.state = some g) :
    f.perform (.quiet errand client) = g.perform (.quiet errand client) := by
  cases f <;> simp only [replyIn, Option.some.injEq, reduceCtorEq] at hr <;> subst hr <;>
    simp only [Flow.resume, Option.some.injEq] at hg <;> subst hg <;> rfl

end Flow

end ApiExposure
