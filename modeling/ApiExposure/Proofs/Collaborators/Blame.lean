import ApiExposure.Proofs.Security.Contexts

/-!
# Where outages come from

A registry decides by what it holds and by the request, and it never speaks of an
outage. That is found function by function: a check fails with a fault, a lookup
with an absence, and a chain of such steps with what one of its steps failed with.
So an outage in a result was handed on by a flow, which is left to the flows.
-/

namespace ApiExposure

/-- The outcome is decided without a collaborator: it is no outage. -/
def Outcome.IsOwn {α : Type} (x : Outcome α) : Prop :=
  ∀ outage, x ≠ .error (.unavailable outage)

namespace Outcome

variable {α β : Type}

@[simp] theorem isOwn_ok (a : α) : IsOwn (.ok a) := fun _ h => nomatch h

@[simp] theorem isOwn_invalid (f : Fault) : IsOwn (.error (.invalid f) : Outcome α) :=
  fun _ h => nomatch h

@[simp] theorem isOwn_notFound (a : Absence) : IsOwn (.error (.notFound a) : Outcome α) :=
  fun _ h => nomatch h

@[simp] theorem isOwn_conflict (c : Clash) : IsOwn (.error (.conflict c) : Outcome α) :=
  fun _ h => nomatch h

@[simp] theorem isOwn_denied (r : DenyReason) : IsOwn (.error (.denied r) : Outcome α) :=
  fun _ h => nomatch h

/-- A check fails for a fault of the request. -/
theorem IsCheck.isOwn {x : Outcome α} (h : IsCheck x) : IsOwn x := by
  intro outage hx
  obtain ⟨fault, hfault⟩ := h _ hx
  cases hfault

/-- A single check never ends in an outage. -/
@[simp] theorem isOwn_require (condition : Bool) (fault : Fault) :
    IsOwn (require condition fault) :=
  (isCheck_require condition fault).isOwn

/-- Two steps of which neither fails with an outage. -/
theorem IsOwn.bind {x : Outcome α} {f : α → Outcome β} (hx : IsOwn x) (hf : ∀ a, IsOwn (f a)) :
    IsOwn (x >>= f) := by
  cases x with
  | error e => exact fun outage h => hx outage (congrArg Except.error (Except.error.inj h))
  | ok a => exact hf a

/-- What is made of a result does not change who is to blame for a failure. -/
theorem IsOwn.map {x : Outcome α} (hx : IsOwn x) (f : α → β) : IsOwn (x.map f) := by
  cases x with
  | error e => exact fun outage h => hx outage (congrArg Except.error (Except.error.inj h))
  | ok a => exact isOwn_ok _

/-- A failure that is passed on unchanged. -/
theorem IsOwn.error {x : Outcome α} {e : Failure} (hx : IsOwn x) (h : x = .error e) :
    IsOwn (.error e : Outcome β) :=
  fun outage he => hx outage (h.trans (congrArg Except.error (Except.error.inj he)))

end Outcome

open Outcome

namespace FunctionEntry

/-- A function without an identifier is checked against itself alone. -/
theorem isOwn_newFunction (e : FunctionEntry) : IsOwn e.newFunction := by
  rw [newFunction]
  split
  · exact isOwn_invalid _
  · exact isOwn_invalid _
  · exact (isOwn_require _ _).bind fun _ => isOwn_ok _

/-- An entry is checked and built without anybody's help. -/
theorem isOwn_build (e : FunctionEntry) (id : Role → FunctionId) : IsOwn (e.build id) :=
  e.isOwn_newFunction.bind fun _ => isOwn_ok _

/-- Checking the entries of a registration one by one asks nobody. -/
theorem isOwn_forM_validate (es : List FunctionEntry) : IsOwn (es.forM validate) := by
  induction es with
  | nil => exact isOwn_ok _
  | cons e es ih => exact (e.isOwn_newFunction.map _).bind fun _ => ih

end FunctionEntry

namespace Providers

theorem isOwn_get (p : Providers) (id : DomainId) : IsOwn (p.get id) := by
  rw [get]
  split <;> simp

/-- The functions of a registration are built entry by entry, without a collaborator. -/
theorem isOwn_buildFunctions (o : Occasion) (n : Nat) (es : List FunctionEntry) :
    IsOwn (buildFunctions o n es) := by
  induction es generalizing n with
  | nil => exact isOwn_ok _
  | cons e es ih => exact (e.isOwn_build _).bind fun _ => (ih (n + 1)).bind fun _ => isOwn_ok _

/-- A registration is decided by the registration and what is registered. -/
theorem isOwn_register (p : Providers) (r : DomainRegistration) (o : Occasion) :
    IsOwn (p.register r o) := by
  have hvalidate : IsOwn r.validate := (isOwn_require _ _).bind fun _ =>
    FunctionEntry.isOwn_forM_validate _
  exact hvalidate.bind fun _ => (isOwn_buildFunctions o 1 _).bind fun _ => isOwn_ok _

/-- A change is compared with the function that it is for. -/
theorem isOwn_checkChange (f : ProviderFunction) (e : FunctionEntry) :
    IsOwn (checkChange f e) := by
  rw [checkChange]
  cases e.registration with
  | some registration =>
    have hregistration : IsOwn registration.validate := isOwn_require _ _
    cases e.role with
    | some role => exact (isOwn_require _ _).bind fun _ => hregistration
    | none => exact hregistration
  | none =>
    cases e.role with
    | some role => exact (isOwn_require _ _).bind fun _ => isOwn_ok _
    | none => exact isOwn_ok _

/-- Each entry of a patch is decided by the functions as the entries before it left them. -/
theorem isOwn_patchFunctions (o : Occasion) (domain : DomainId) (n : Nat)
    (es : List FunctionEntry) (functions added : List ProviderFunction) :
    IsOwn (patchFunctions o domain n es functions added) := by
  induction es generalizing n functions added with
  | nil => exact isOwn_ok _
  | cons e es ih =>
    rw [patchFunctions]
    split
    · split
      · exact isOwn_notFound _
      · exact (isOwn_checkChange _ e).bind fun _ => ih _ _ _
    · exact (e.isOwn_build _).bind fun _ => ih _ _ _

/-- A patch of a domain fails because of the patch or of the domain, never because of an outage. -/
theorem isOwn_update (p : Providers) (id : DomainId) (patch : DomainPatch) (o : Occasion) :
    IsOwn (p.update id patch o) :=
  (isOwn_require _ _).bind fun _ => (p.isOwn_get id).bind fun _ =>
    (isOwn_patchFunctions o id 0 _ _ _).bind fun _ => isOwn_ok _

theorem isOwn_deregister (p : Providers) (id : DomainId) : IsOwn (p.deregister id) :=
  (p.isOwn_get id).bind fun _ => isOwn_ok _

/-- Whether a function publishes is looked up in the index. -/
theorem isOwn_requirePublisher (p : Providers) (id : FunctionId) :
    IsOwn (p.requirePublisher id) := by
  rw [requirePublisher]
  split <;> simp

/-- Whether functions expose APIs is looked up in the index, one after the other. -/
theorem isOwn_requireExposers (p : Providers) (ids : List FunctionId) :
    IsOwn (p.requireExposers ids) :=
  (isCheck_forM (fun _ => isCheck_require _ _) ids).isOwn

end Providers

namespace ApiDescription

/-- The profiles of a description are checked against each other. -/
theorem isOwn_checkProfiles (ps : List Profile) : IsOwn (checkProfiles ps) := by
  refine (isOwn_require _ _).bind fun _ => ?_
  generalize ([] : List FunctionId) = seen
  induction ps generalizing seen with
  | nil => exact isOwn_ok _
  | cons p ps ih => exact (isOwn_require _ _).bind fun _ => (isOwn_require _ _).bind fun _ => ih _

/-- The versions of a profile are checked against those before them. -/
theorem isOwn_checkVersions (vs : List ApiVersion) (seen : List String) :
    IsOwn (checkVersions vs seen) := by
  induction vs generalizing seen with
  | nil => exact isOwn_ok _
  | cons v vs ih => exact (isOwn_require _ _).bind fun _ => (isOwn_require _ _).bind fun _ => ih _

end ApiDescription

namespace Publications

theorem isOwn_get (s : Publications) (id : ApiId) : IsOwn (s.get id) := by
  rw [get]
  split <;> simp

/-- An API that belongs to another publisher is missing, which is no outage. -/
theorem isOwn_getFor (s : Publications) (publisher : FunctionId) (id : ApiId) :
    IsOwn (s.getFor publisher id) := by
  rw [getFor]
  split
  · split <;> simp
  · exact isOwn_notFound _

/-- A description is checked against itself, the functions and the names in use. -/
theorem isOwn_validate (s : Publications) (p : Providers) (publisher : FunctionId)
    (d : ApiDescription) : IsOwn (s.validate p publisher d) := by
  have hd : IsOwn d.validate := (isOwn_require _ _).bind fun _ =>
    (ApiDescription.isOwn_checkProfiles _).bind fun _ => ApiDescription.isOwn_checkVersions _ _
  refine hd.bind fun _ => (p.isOwn_requirePublisher publisher).bind fun _ =>
    (p.isOwn_requireExposers _).bind fun _ => ?_
  rw [requireFree]
  split <;> simp

/-- Entering an API in the store calls nobody; its endpoint was provided before. -/
theorem isOwn_publishAs (s : Publications) (p : Providers) (id : ApiId) (publisher : FunctionId)
    (d : ApiDescription) (now : Instant) : IsOwn (s.publishAs p id publisher d now) := by
  refine (s.isOwn_validate p publisher d).bind fun _ => ?_
  split <;> simp

end Publications

/-- A patch of an API is checked against itself. -/
theorem ApiPatch.isOwn_validate (q : ApiPatch) : IsOwn q.validate := by
  refine (isOwn_require _ _).bind fun _ => ?_
  cases q.versions with
  | some vs =>
    have hversions := ApiDescription.isOwn_checkVersions vs []
    cases q.profiles with
    | some ps => exact (ApiDescription.isOwn_checkProfiles ps).bind fun _ => hversions
    | none => exact hversions
  | none =>
    cases q.profiles with
    | some ps => exact (ApiDescription.isOwn_checkProfiles ps).bind fun _ => isOwn_ok _
    | none => exact isOwn_ok _

namespace Publications

/-- A patch of an API is decided by the store and the functions. -/
theorem isOwn_updateFor (s : Publications) (p : Providers) (publisher : FunctionId) (id : ApiId)
    (q : ApiPatch) (now : Instant) : IsOwn (s.updateFor p publisher id q now) := by
  have hrename (a : PublishedApi) : IsOwn (a.checkRename q) := by
    rw [PublishedApi.checkRename]
    split <;> simp
  exact q.isOwn_validate.bind fun _ => (s.isOwn_getFor publisher id).bind fun a =>
    (hrename a).bind fun _ => (p.isOwn_requireExposers _).bind fun _ => isOwn_ok _

/-- Taking an API out of the store fails at most for want of the API. -/
theorem isOwn_unpublish (s : Publications) (id : ApiId) : IsOwn (s.unpublish id) := by
  rw [unpublish]
  split <;> simp

end Publications

/-- A destination is a URL or it is not. -/
theorem isOwn_requireUrlIfAny (destination : Option String) :
    IsOwn (requireUrlIfAny destination) := by
  cases destination with
  | none => exact isOwn_ok _
  | some d => exact (isCheck_requireUrl d).isOwn

/-- The particulars of an invoker are checked against themselves. -/
theorem Enrolment.isOwn_validate (e : Enrolment) : IsOwn e.validate :=
  (isOwn_require _ _).bind fun _ => isOwn_requireUrlIfAny _

namespace Invokers

theorem isOwn_get (r : Invokers) (id : InvokerId) : IsOwn (r.get id) := by
  rw [get]
  split <;> simp

/-- Entering an invoker calls nobody; its client was created before. -/
theorem isOwn_onboardAs (r : Invokers) (id : InvokerId) (e : Enrolment) (grants : List Grant)
    (now : Instant) : IsOwn (r.onboardAs id e grants now) := by
  refine e.isOwn_validate.bind fun _ => ?_
  dsimp only
  split <;> simp

/-- A patch of an invoker is decided by the patch and by who is onboarded. -/
theorem isOwn_update (r : Invokers) (id : InvokerId) (p : InvokerPatch) (now : Instant) :
    IsOwn (r.update id p now) := by
  have hvalidate : IsOwn p.validate := by
    rw [InvokerPatch.validate]
    split
    · exact (isOwn_require _ _).bind fun _ => isOwn_requireUrlIfAny _
    · exact isOwn_requireUrlIfAny _
  exact hvalidate.bind fun _ => (r.isOwn_get id).bind fun _ => isOwn_ok _

theorem isOwn_deregister (r : Invokers) (id : InvokerId) : IsOwn (r.deregister id) :=
  (r.isOwn_get id).bind fun _ => isOwn_ok _

/-- A grant is given or refused by the list of the invoker. -/
theorem isOwn_grant (r : Invokers) (id : InvokerId) (g : Grant) : IsOwn (r.grant id g) :=
  (isOwn_require _ _).bind fun _ => (r.isOwn_get id).bind fun _ => isOwn_ok _

/-- A grant is taken back or missed in the list of the invoker. -/
theorem isOwn_removeGrant (r : Invokers) (id : InvokerId) (g : Grant) :
    IsOwn (r.removeGrant id g) := by
  refine (r.isOwn_get id).bind fun _ => ?_
  dsimp only
  split <;> simp

/-- The grants in a scope are read off the list of the invoker. -/
theorem isOwn_grantsMatching (r : Invokers) (id : InvokerId) (scope : RevocationScope) :
    IsOwn (r.grantsMatching id scope) :=
  ((r.isOwn_get id).map _).map _

end Invokers

/-- Grants are revoked one by one, until one has a blank field. -/
theorem Core.isOwn_revokeEach (id : InvokerId) (now : Instant) (grants : List Grant)
    (l : Ledger) : IsOwn (revokeEach id now grants l).2 := by
  induction grants generalizing l with
  | nil => exact isOwn_ok _
  | cons g gs ih =>
    rw [revokeEach]
    split
    · next h => exact (isOwn_require _ _).error h
    · exact ih _

namespace TrustedInvokers

/-- A security context is negotiated with what is stored. -/
theorem isOwn_create (t : TrustedInvokers) (s : Publications) (r : Invokers) (id : InvokerId)
    (c : SecurityContext) : IsOwn (t.create s r id c) :=
  (isCheck_prepare s c).isOwn.bind fun _ => (isOwn_require _ _).bind fun _ => isOwn_ok _

/-- A security context is replaced with what is stored, and only where there is one. -/
theorem isOwn_update (t : TrustedInvokers) (s : Publications) (id : InvokerId)
    (c : SecurityContext) : IsOwn (t.update s id c) := by
  refine (isCheck_prepare s c).isOwn.bind fun _ => ?_
  split <;> simp

end TrustedInvokers

namespace Subscriptions

/-- A subscription is refused for what it says, never for an outage. -/
theorem isOwn_subscribe (r : Subscriptions) (subscriber : String) (s : EventSubscription) :
    IsOwn (r.subscribe subscriber s) := by
  have hvalidate : IsOwn s.validate := (isOwn_require _ _).bind fun _ =>
    (isCheck_requireUrl _).isOwn
  exact (isOwn_require _ _).bind fun _ => hvalidate.bind fun _ => isOwn_ok _

/-- A subscription ends unless there is none of that subscriber. -/
theorem isOwn_unsubscribe (r : Subscriptions) (subscriber : String) (id : SubscriptionId) :
    IsOwn (r.unsubscribe subscriber id) := by
  rw [unsubscribe]
  split <;> simp

end Subscriptions

/-- No question is answered with an outage. -/
theorem Query.isOwn_answer (c : Core) (now : Instant) (q : Query) : IsOwn (q.answer c now) := by
  cases q with
  | provider id => exact c.providers.isOwn_get id
  | providers => exact isOwn_ok _
  | function id =>
    rw [answer, Providers.resolve]
    split <;> simp
  | api publisher id => exact c.store.isOwn_getFor publisher id
  | apis publisher =>
    exact (c.providers.isOwn_requirePublisher publisher).bind fun _ => isOwn_ok _
  | invoker id => exact c.invokers.isOwn_get id
  | grants id => exact (c.invokers.isOwn_get id).map _
  | discovery id criteria =>
    rw [answer, Core.discover]
    split <;> simp
  | decision call =>
    refine (isOwn_require _ _).bind fun _ => ?_
    split
    · exact isOwn_ok _
    · split
      · exact isOwn_ok _
      · split
        · exact isOwn_ok _
        · split <;> exact isOwn_ok _
  | context id authentication authorization =>
    rw [answer, TrustedInvokers.get]
    split <;> simp

end ApiExposure
