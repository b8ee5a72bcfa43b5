import ApiExposure.Proofs.System.Run

/-!
# What commands do to the core

A command takes effect in one move: the one that settles its job. The effects
are listed here once, each with the registry operation that it comes from; all
that is proved about runs goes through this list. A command that asks a
collaborator first takes effect when it goes on, in the state found then, and
every other one when it starts. No other move changes the core.
-/

namespace ApiExposure

/-- What a command does when it takes effect in a state, with its result. -/
inductive Effect (o : Occasion) : (command : Command) → Core → Outcome command.Result → Core → Prop
  /-- Nothing but a failure. -/
  | failed {command : Command} {c : Core} (f : Failure) : Effect o command c (.error f) c
  /-- A domain with its functions is entered. -/
  | registered {c : Core} {r : DomainRegistration} {domain : ProviderDomain}
      {providers : Providers} (h : c.providers.register r o = .ok (domain, providers)) :
      Effect o (.registerProvider r) c (.ok domain) { c with providers }
  /-- A domain is changed, and functions may be added to it. -/
  | updated {c : Core} {id : DomainId} {p : DomainPatch} {domain : ProviderDomain}
      {providers : Providers} (h : c.providers.update id p o = .ok (domain, providers)) :
      Effect o (.updateProvider id p) c (.ok domain) { c with providers }
  /-- A domain goes with all that depends on its functions. -/
  | removed {c : Core} {id : DomainId} {functions : List FunctionId} {providers : Providers}
      (h : c.providers.deregister id = .ok (functions, providers)) :
      Effect o (.deregisterProvider id) c (.ok functions)
        { c with providers, store := (c.store.invalidate functions o.now).1 }
  /-- An API is recorded. -/
  | published {c : Core} {publisher : FunctionId} {d : ApiDescription} {a : PublishedApi}
      {store : Publications}
      (h : c.store.publishAs c.providers (.generate (o.suffix 0)) publisher d o.now =
        .ok (a, store)) :
      Effect o (.publish publisher d) c (.ok a) { c with store }
  /-- An API is changed. -/
  | patched {c : Core} {publisher : FunctionId} {id : ApiId} {p : ApiPatch} {a : PublishedApi}
      {store : Publications}
      (h : c.store.updateFor c.providers publisher id p o.now = .ok (a, store)) :
      Effect o (.updateApi publisher id p) c (.ok a) { c with store }
  /-- An API is dropped. -/
  | withdrawn {c : Core} {publisher : FunctionId} {id : ApiId} {a : PublishedApi}
      {store : Publications} (h : c.store.unpublish id = .ok (a, store)) :
      Effect o (.unpublish publisher id) c (.ok ()) { c with store }
  /-- An invoker is entered. -/
  | onboarded {c : Core} {e : Enrolment} {identity : InvokerIdentity} {invokers : Invokers}
      {credentials : ClientCredentials}
      (h : c.invokers.onboardAs (.generate (o.suffix 0)) e (c.store.grantable e.requested) o.now =
        .ok (identity, invokers)) :
      Effect o (.onboard e) c (.ok ⟨identity, credentials⟩) { c with invokers }
  /-- An invoker is changed. -/
  | invokerUpdated {c : Core} {id : InvokerId} {p : InvokerPatch} {identity : InvokerIdentity}
      {invokers : Invokers} (h : c.invokers.update id p o.now = .ok (identity, invokers)) :
      Effect o (.updateInvoker id p) c (.ok identity) { c with invokers }
  /-- An invoker goes with its context, and its grants are revoked. -/
  | offboarded {c : Core} {id : InvokerId} {identity : InvokerIdentity} {invokers : Invokers}
      (h : c.invokers.deregister id = .ok (identity, invokers)) :
      Effect o (.offboard id) c (.ok ())
        { c with
          invokers
          ledger := Core.revokeGrants c.ledger id identity.grants o.now
          trusted := (c.trusted.remove id).2 }
  /-- A grant is added and its call reinstated. -/
  | granted {c : Core} {id : InvokerId} {g : Grant} {a : PublishedApi} {isNew : Bool}
      {invokers : Invokers} (hv : g.validate = .ok ()) (ha : c.store.get g.api = .ok a)
      (hf : Core.fits a g = true) (h : c.invokers.grant id g = .ok (isNew, invokers)) :
      Effect o (.grant id g) c (.ok ())
        { c with invokers, ledger := (c.ledger.reinstate (g.call id) o.now).2 }
  /-- A grant is removed. -/
  | grantRemoved {c : Core} {id : InvokerId} {g : Grant} {invokers : Invokers}
      (h : c.invokers.removeGrant id g = .ok invokers) :
      Effect o (.removeGrant id g) c (.ok ()) { c with invokers }
  /-- A call is revoked. -/
  | callRevoked {c : Core} {call : Call} (h : call.validate = .ok ()) :
      Effect o (.revoke call) c (.ok ()) { c with ledger := c.ledger.revoke call o.now }
  /-- All grants within a scope are revoked, and the context is cut. -/
  | accessRevoked {c : Core} {id : InvokerId} {scope : RevocationScope} {grants : List Grant}
      {ledger : Ledger} (hs : scope.isEmpty = false)
      (hg : c.invokers.grantsMatching id scope = .ok grants)
      (h : Core.revokeEach id o.now grants c.ledger = (ledger, .ok ())) :
      Effect o (.revokeAccess id scope) c (.ok grants)
        { c with ledger, trusted := (c.trusted.revoke id scope).2 }
  /-- A revocation within a scope stops at a grant with a blank field. -/
  | accessPartlyRevoked {c : Core} {id : InvokerId} {scope : RevocationScope}
      {grants : List Grant} {ledger : Ledger} {f : Failure}
      (hg : c.invokers.grantsMatching id scope = .ok grants)
      (h : Core.revokeEach id o.now grants c.ledger = (ledger, .error f)) :
      Effect o (.revokeAccess id scope) c (.error f) { c with ledger }
  /-- A context is stored. -/
  | contextCreated {c : Core} {id : InvokerId} {context stored : SecurityContext}
      {trusted : TrustedInvokers}
      (h : c.trusted.create c.store c.invokers id context = .ok (stored, trusted)) :
      Effect o (.createContext id context) c (.ok stored) { c with trusted }
  /-- A context is replaced. -/
  | contextUpdated {c : Core} {id : InvokerId} {context stored : SecurityContext}
      {trusted : TrustedInvokers}
      (h : c.trusted.update c.store id context = .ok (stored, trusted)) :
      Effect o (.updateContext id context) c (.ok stored) { c with trusted }
  /-- A subscription is entered. -/
  | subscribed {c : Core} {subscriber : String} {s : EventSubscription} {id : SubscriptionId}
      {subscriptions : Subscriptions}
      (h : c.subscriptions.subscribe subscriber s = .ok (id, subscriptions)) :
      Effect o (.subscribe subscriber s) c (.ok id) { c with subscriptions }
  /-- A subscription ends. -/
  | unsubscribed {c : Core} {subscriber : String} {id : SubscriptionId}
      {subscriptions : Subscriptions}
      (h : c.subscriptions.unsubscribe subscriber id = .ok subscriptions) :
      Effect o (.unsubscribe subscriber id) c (.ok ()) { c with subscriptions }
  /-- A question is answered. -/
  | answered {c : Core} {q : Query} {a : q.Answer} (h : q.answer c o.now = .ok a) :
      Effect o (.ask q) c (.ok a) c

namespace Command

/-- What is left of a command takes effect as it stands. -/
def TakesEffect (command : Command) (o : Occasion) (c : Core) (f : Flow command.Result) : Prop :=
  ∃ r, f.Settled r ∧ Effect o command c r f.state

/-- What is left of a command waits for a reply and takes effect by it. -/
structure Waits (command : Command) (o : Occasion) (f : Flow command.Result) : Prop where
  /-- Only some commands wait. -/
  asksFirst : command.asksFirst = true
  /-- The result is still open. -/
  unsettled : ∀ r, ¬ f.Settled r
  /-- It is decided by the reply. -/
  resume : ∀ reply c g, f.resume reply c = some g → command.TakesEffect o c g

variable {o : Occasion} {c : Core}

/-- A failure takes effect by leaving everything as it is. -/
theorem TakesEffect.done_error {command : Command} (f : Failure) :
    command.TakesEffect o c (.done c (.error f)) := ⟨_, rfl, .failed f⟩

/-- A command that is one operation of a registry takes effect when it starts, by the outcome of
that operation. -/
theorem takesEffect_bind {command : Command} {α : Type} {x : Outcome α}
    {f : α → Outcome (command.Result × Core)}
    (h : ∀ a, x = .ok a → ∃ b d, f a = .ok (b, d) ∧ Effect o command c (.ok b) d) :
    command.TakesEffect o c (.ofOutcome c (x >>= f)) := by
  cases x with
  | error e => exact .done_error e
  | ok a =>
    obtain ⟨b, d, hf, he⟩ := h a rfl
    have hbind : (.ok a >>= f : Outcome (command.Result × Core)) = .ok (b, d) := hf
    rw [hbind]
    exact ⟨_, rfl, he⟩

theorem registerProvider_takesEffect (r : DomainRegistration) :
    (registerProvider r).TakesEffect o c ((registerProvider r).start o c) :=
  takesEffect_bind fun _ h => ⟨_, _, rfl, .registered h⟩

theorem updateProvider_takesEffect (id : DomainId) (p : DomainPatch) :
    (updateProvider id p).TakesEffect o c ((updateProvider id p).start o c) :=
  takesEffect_bind fun _ h => ⟨_, _, rfl, .updated h⟩

/-- The updates that a cascade still has to make known change nothing. -/
theorem settled_announceUpdates (functions : List FunctionId) (apis : List PublishedApi)
    (c : Core) :
    (Core.announceUpdates functions apis c).state = c ∧
      (Core.announceUpdates functions apis c).Settled (.ok functions) := by
  induction apis generalizing c with
  | nil => exact ⟨rfl, rfl⟩
  | cons a as ih => exact ⟨rfl, ih⟩

/-- Neither do the withdrawals. -/
theorem settled_withdrawAll (functions : List FunctionId) (updated apis : List PublishedApi)
    (c : Core) :
    (Core.withdrawAll functions updated apis c).state = c ∧
      (Core.withdrawAll functions updated apis c).Settled (.ok functions) := by
  induction apis generalizing c with
  | nil => exact settled_announceUpdates functions updated c
  | cons a as ih => exact ⟨rfl, fun _ _ => ⟨rfl, ih⟩⟩

/-- A provider leaves at once, with the cascade that this brings; the endpoints are removed later.
-/
theorem deregisterProvider_takesEffect (id : DomainId) :
    (deregisterProvider id).TakesEffect o c ((deregisterProvider id).start o c) := by
  simp only [start, Core.deregisterProvider]
  cases h : c.providers.deregister id with
  | error f => exact .done_error f
  | ok r =>
    obtain ⟨functions, providers⟩ := r
    have hw := settled_withdrawAll functions (c.store.invalidate functions o.now).2.updated
      (c.store.invalidate functions o.now).2.removed
      { c with providers, store := (c.store.invalidate functions o.now).1 }
    refine ⟨.ok functions, hw.2, ?_⟩
    dsimp only
    rw [hw.1]
    exact .removed h

/-- A patch of an API takes effect at once. -/
theorem updateApi_takesEffect (publisher : FunctionId) (id : ApiId) (p : ApiPatch) :
    (updateApi publisher id p).TakesEffect o c ((updateApi publisher id p).start o c) := by
  simp only [start, Core.updateApi]
  cases h : c.store.updateFor c.providers publisher id p o.now with
  | error f => exact .done_error f
  | ok r => exact ⟨.ok r.1, fun _ => ⟨rfl, rfl⟩, .patched h⟩

/-- A patch of an invoker takes effect at once. -/
theorem updateInvoker_takesEffect (id : InvokerId) (p : InvokerPatch) :
    (updateInvoker id p).TakesEffect o c ((updateInvoker id p).start o c) := by
  simp only [start, Core.updateInvoker]
  cases h : c.invokers.update id p o.now with
  | error f => exact .done_error f
  | ok r => exact ⟨.ok r.1, fun _ => ⟨rfl, rfl⟩, .invokerUpdated h⟩

theorem grant_takesEffect (id : InvokerId) (g : Grant) :
    (grant id g).TakesEffect o c ((grant id g).start o c) := by
  have hstart : ((grant id g).start o c) = .ofOutcome c (c.grant id g o.now) := rfl
  rw [hstart]
  cases h : c.grant id g o.now with
  | error f => exact .done_error f
  | ok r =>
    obtain ⟨hv, h⟩ := Outcome.andThen_eq_ok_iff.mp h
    obtain ⟨a, ha, h⟩ := Outcome.bind_eq_ok_iff.mp h
    obtain ⟨hf, h⟩ := Outcome.andThen_eq_ok_iff.mp h
    obtain ⟨⟨isNew, invokers⟩, hg, hd⟩ := Outcome.bind_eq_ok_iff.mp h
    cases hd
    exact ⟨_, rfl, .granted hv ha (require_eq_ok_iff.mp hf) hg⟩

theorem removeGrant_takesEffect (id : InvokerId) (g : Grant) :
    (removeGrant id g).TakesEffect o c ((removeGrant id g).start o c) :=
  takesEffect_bind fun _ h => ⟨_, _, rfl, .grantRemoved h⟩

/-- A call is revoked at once. -/
theorem revoke_takesEffect (call : Call) :
    (revoke call).TakesEffect o c ((revoke call).start o c) := by
  simp only [start, Core.revoke]
  cases h : call.validate with
  | error f => exact .done_error f
  | ok u => exact ⟨.ok (), fun _ => ⟨rfl, rfl⟩, .callRevoked h⟩

/-- All the grants in a scope are revoked at once, before anything is announced. -/
theorem revokeAccess_takesEffect (id : InvokerId) (scope : RevocationScope) :
    (revokeAccess id scope).TakesEffect o c ((revokeAccess id scope).start o c) := by
  simp only [start, Core.revokeAccess]
  cases hs : scope.isEmpty with
  | true => exact .done_error _
  | false =>
    cases hg : c.invokers.grantsMatching id scope with
    | error f => exact .done_error f
    | ok grants =>
      cases h : Core.revokeEach id o.now grants c.ledger with
      | mk ledger outcome =>
        simp only [h, Bool.false_eq_true, if_false]
        cases outcome with
        | error f => exact ⟨_, rfl, .accessPartlyRevoked hg h⟩
        | ok u =>
          have he : Effect o (.revokeAccess id scope) c (.ok grants)
              { c with ledger, trusted := (c.trusted.revoke id scope).2 } :=
            .accessRevoked hs hg h
          dsimp only
          split
          · exact ⟨_, rfl, he⟩
          · exact ⟨.ok grants, fun _ => ⟨rfl, rfl⟩, he⟩

theorem createContext_takesEffect (id : InvokerId) (context : SecurityContext) :
    (createContext id context).TakesEffect o c ((createContext id context).start o c) :=
  takesEffect_bind fun _ h => ⟨_, _, rfl, .contextCreated h⟩

theorem updateContext_takesEffect (id : InvokerId) (context : SecurityContext) :
    (updateContext id context).TakesEffect o c ((updateContext id context).start o c) :=
  takesEffect_bind fun _ h => ⟨_, _, rfl, .contextUpdated h⟩

theorem subscribe_takesEffect (subscriber : String) (s : EventSubscription) :
    (subscribe subscriber s).TakesEffect o c ((subscribe subscriber s).start o c) :=
  takesEffect_bind fun _ h => ⟨_, _, rfl, .subscribed h⟩

theorem unsubscribe_takesEffect (subscriber : String) (id : SubscriptionId) :
    (unsubscribe subscriber id).TakesEffect o c ((unsubscribe subscriber id).start o c) :=
  takesEffect_bind fun _ h => ⟨_, _, rfl, .unsubscribed h⟩

/-- A query is answered at once. -/
theorem ask_takesEffect (q : Query) : (ask q).TakesEffect o c ((ask q).start o c) := by
  simp only [start]
  cases h : q.answer c o.now with
  | error f => exact .done_error f
  | ok a => exact ⟨_, rfl, .answered h⟩

/-- A flow that passes every outage on is still open. -/
theorem unsettled_of_outages {α : Type} {f : Flow α}
    (h : ∀ outage, ∃ reply, f.resume reply c = some (.done c (.error (.unavailable outage))))
    (r : Outcome α) : ¬ f.Settled r := by
  intro hs
  obtain ⟨p, hp⟩ := h ⟨.deploymentAutomation, ""⟩
  obtain ⟨q, hq⟩ := h ⟨.identityProvider, ""⟩
  have hd : .error (.unavailable ⟨.deploymentAutomation, ""⟩) = r := (hs.resume hp).2
  have hi : .error (.unavailable ⟨.identityProvider, ""⟩) = r := (hs.resume hq).2
  have he := hd.trans hi.symm
  simp at he

/-- A command that waits for an errand takes effect by its outcome. -/
theorem waits_errand {command : Command} {e : Errand}
    {next : Except Outage Unit → Core → Flow command.Result} (hw : command.asksFirst = true)
    (ho : ∀ outage d, next (.error outage) d = .done d (.error (.unavailable outage)))
    (h : ∀ d, command.TakesEffect o d (next (.ok ()) d)) :
    command.Waits o (.errand c e next) where
  asksFirst := hw
  unsettled := unsettled_of_outages fun outage =>
    ⟨.errand (.error outage), congrArg some (ho outage c)⟩
  resume reply d g hg := by
    cases reply <;> simp only [Flow.resume, Option.some.injEq, reduceCtorEq] at hg
    next r =>
      subst hg
      cases r with
      | error outage =>
        rw [ho]
        exact .done_error _
      | ok u => exact h d

/-- A publication that passes its checks waits for its endpoint. -/
theorem publish_start (publisher : FunctionId) (d : ApiDescription) :
    (publish publisher d).TakesEffect o c ((publish publisher d).start o c) ∨
      ((publish publisher d).start o c).state = c ∧
        (publish publisher d).Waits o ((publish publisher d).start o c) := by
  simp only [start, Core.publish]
  cases c.store.validate c.providers publisher d with
  | error f => exact .inl (.done_error f)
  | ok u =>
    refine .inr ⟨rfl, waits_errand rfl (fun _ _ => rfl) fun found => ?_⟩
    dsimp only
    cases h : found.store.publishAs found.providers (.generate (o.suffix 0)) publisher d o.now with
    | error f => exact ⟨.error f, fun _ _ => ⟨rfl, rfl⟩, .failed f⟩
    | ok r => exact ⟨.ok r.1, fun _ => ⟨rfl, rfl⟩, .published h⟩

/-- A withdrawal of an API of the publisher waits for the removal of the endpoint. -/
theorem unpublish_start (publisher : FunctionId) (id : ApiId) :
    (unpublish publisher id).TakesEffect o c ((unpublish publisher id).start o c) ∨
      ((unpublish publisher id).start o c).state = c ∧
        (unpublish publisher id).Waits o ((unpublish publisher id).start o c) := by
  simp only [start, Core.unpublish]
  cases c.store.getFor publisher id with
  | error f => exact .inl (.done_error f)
  | ok a =>
    refine .inr ⟨rfl, waits_errand rfl (fun _ _ => rfl) fun found => ?_⟩
    dsimp only
    cases h : found.store.unpublish id with
    | error f => exact .done_error f
    | ok r => exact ⟨.ok (), fun _ => ⟨rfl, rfl⟩, .withdrawn h⟩

/-- An onboarding that passes its checks waits for a client. -/
theorem onboard_start (e : Enrolment) :
    (onboard e).TakesEffect o c ((onboard e).start o c) ∨
      ((onboard e).start o c).state = c ∧ (onboard e).Waits o ((onboard e).start o c) := by
  simp only [start, Core.onboard]
  cases e.validate with
  | error f => exact .inl (.done_error f)
  | ok u =>
    refine .inr ⟨rfl, rfl, unsettled_of_outages (c := c) ?_, fun reply found g hg => ?_⟩
    · exact fun outage => ⟨.client (.error outage), rfl⟩
    · cases reply <;> simp only [Flow.resume, Option.some.injEq, reduceCtorEq] at hg
      next r =>
        subst hg
        cases r with
        | error outage => exact .done_error _
        | ok credentials =>
          dsimp only
          cases h : found.invokers.onboardAs (.generate (o.suffix 0)) e
              (found.store.grantable e.requested) o.now with
          | error f => exact ⟨.error f, fun _ _ => ⟨rfl, rfl⟩, .failed f⟩
          | ok r => exact ⟨.ok ⟨r.1, credentials⟩, fun _ => ⟨rfl, rfl⟩, .onboarded h⟩

/-- An offboarding of an invoker waits for the removal of the client. -/
theorem offboard_start (id : InvokerId) :
    (offboard id).TakesEffect o c ((offboard id).start o c) ∨
      ((offboard id).start o c).state = c ∧ (offboard id).Waits o ((offboard id).start o c) := by
  simp only [start, Core.offboard]
  cases c.invokers.contains id with
  | false => exact .inl (.done_error _)
  | true =>
    refine .inr ⟨rfl, waits_errand rfl (fun _ _ => rfl) fun found => ?_⟩
    dsimp only
    cases h : found.invokers.deregister id with
    | error f => exact .done_error f
    | ok r => exact ⟨.ok (), fun _ => ⟨rfl, rfl⟩, .offboarded h⟩

/-- A command takes effect when it starts, or it waits for a collaborator in the state that it
found. -/
theorem start_cases (command : Command) (o : Occasion) (c : Core) :
    command.TakesEffect o c (command.start o c) ∨
      (command.start o c).state = c ∧ command.Waits o (command.start o c) := by
  cases command with
  | registerProvider r => exact .inl (registerProvider_takesEffect r)
  | updateProvider id p => exact .inl (updateProvider_takesEffect id p)
  | deregisterProvider id => exact .inl (deregisterProvider_takesEffect id)
  | publish publisher d => exact publish_start publisher d
  | updateApi publisher id p => exact .inl (updateApi_takesEffect publisher id p)
  | unpublish publisher id => exact unpublish_start publisher id
  | onboard e => exact onboard_start e
  | updateInvoker id p => exact .inl (updateInvoker_takesEffect id p)
  | offboard id => exact offboard_start id
  | grant id g => exact .inl (grant_takesEffect id g)
  | removeGrant id g => exact .inl (removeGrant_takesEffect id g)
  | revoke call => exact .inl (revoke_takesEffect call)
  | revokeAccess id scope => exact .inl (revokeAccess_takesEffect id scope)
  | createContext id context => exact .inl (createContext_takesEffect id context)
  | updateContext id context => exact .inl (updateContext_takesEffect id context)
  | subscribe subscriber s => exact .inl (subscribe_takesEffect subscriber s)
  | unsubscribe subscriber id => exact .inl (unsubscribe_takesEffect subscriber id)
  | ask q => exact .inl (ask_takesEffect q)

end Command

namespace System

/-- By a move the command of its ticket takes effect with a result: the job is settled
afterwards and was not before. -/
structure Settles (s : System) (m : Move) (u : System) (j : Job) (r : Outcome j.command.Result) :
    Prop where
  /-- The move is made. -/
  step : s.step m = some u
  /-- The job then stands under the ticket. -/
  job : u.jobs m.ticket = some j
  /-- Its result is decided. -/
  settled : j.flow.Settled r
  /-- It was open before, if it had started at all. -/
  unsettled : ∀ i, s.jobs m.ticket = some i → ¬ i.IsSettled

/-- Every job has taken effect or waits to do so. -/
def Tracked (s : System) : Prop :=
  ∀ t j, s.jobs t = some j → j.IsSettled ∨ j.command.Waits j.occasion j.flow

theorem tracked_fresh : fresh.Tracked := by
  intro t j h
  cases h

/-- A job that takes effect keeps the system tracked. -/
theorem Tracked.advance {s : System} (hs : s.Tracked) {t : Ticket} {j : Job}
    (hj : j.IsSettled ∨ j.command.Waits j.occasion j.flow) : (s.advance t j).Tracked := by
  intro u i hi
  rw [jobs_advance] at hi
  split at hi
  · cases hi
    exact hj
  · exact hs u i hi

/-- A move settles its job with an effect on the core, or it settles nothing and the core stays
as it is. Only a command that asks first takes effect after its start. -/
theorem step_cases {s u : System} {m : Move} (hs : s.Tracked) (h : s.step m = some u) :
    u.Tracked ∧
      ((∃ j r, s.Settles m u j r ∧ Effect j.occasion j.command s.core r u.core ∧
          (m = .start m.ticket j.command j.occasion ∨
            j.command.asksFirst = true ∧
              ∃ i, s.jobs m.ticket = some i ∧ i.occasion = j.occasion)) ∨
        u.core = s.core ∧ ∀ j r, ¬ s.Settles m u j r) := by
  cases m with
  | start t command o =>
    obtain ⟨hn, rfl⟩ := step_start.mp h
    have hj : (s.advance t ⟨command, o, command.start o s.core⟩).jobs t =
        some ⟨command, o, command.start o s.core⟩ := jobs_advance_self _ _ _
    rcases command.start_cases o s.core with ⟨r, hr, he⟩ | ⟨hstate, hw⟩
    · refine ⟨hs.advance (.inl ⟨r, hr⟩), .inl ⟨_, r, ⟨h, hj, hr, ?_⟩, he, .inl rfl⟩⟩
      intro i hi
      exact absurd (hn.symm.trans hi) (by simp)
    · refine ⟨hs.advance (.inr hw), .inr ⟨hstate, fun j r hsettles => ?_⟩⟩
      obtain rfl := Option.some.inj (hj.symm.trans hsettles.job)
      exact hw.unsettled r hsettles.settled
  | resume t reply =>
    obtain ⟨i, f, hi, hf, rfl⟩ := step_resume.mp h
    have hj : (s.advance t { i with flow := f }).jobs t = some { i with flow := f } :=
      jobs_advance_self _ _ _
    by_cases hsettled : i.IsSettled
    · obtain ⟨r, hr⟩ := hsettled
      obtain ⟨hstate, hfr⟩ := hr.resume hf
      refine ⟨hs.advance (.inl ⟨r, hfr⟩), .inr ⟨hstate, fun j q hsettles => ?_⟩⟩
      exact hsettles.unsettled i hi ⟨r, hr⟩
    · have hw := (hs t i hi).resolve_left hsettled
      obtain ⟨r, hr, he⟩ := hw.resume reply s.core f hf
      refine ⟨hs.advance (.inl ⟨r, hr⟩), .inl ⟨{ i with flow := f }, r, ⟨h, hj, hr, ?_⟩, he,
        .inr ⟨hw.asksFirst, i, hi, rfl⟩⟩⟩
      intro k hk
      obtain rfl := Option.some.inj (hi.symm.trans hk)
      exact hsettled

/-- What a move settles has its effect on the core. -/
theorem Settles.effect {s u : System} {m : Move} {j : Job} {r : Outcome j.command.Result}
    (h : s.Settles m u j r) (hs : s.Tracked) : Effect j.occasion j.command s.core r u.core := by
  rcases (step_cases hs h.step).2 with ⟨i, q, hi, he, _⟩ | ⟨_, hnone⟩
  · obtain rfl : i = j := Option.some.inj (hi.job.symm.trans h.job)
    obtain rfl : q = r := hi.settled.unique h.settled
    exact he
  · exact absurd h (hnone j r)

/-- A command that does not ask first is settled by its start. -/
theorem Settles.eq_start {s u : System} {m : Move} {j : Job} {r : Outcome j.command.Result}
    (h : s.Settles m u j r) (hs : s.Tracked) (hasks : j.command.asksFirst = false) :
    m = .start m.ticket j.command j.occasion := by
  rcases (step_cases hs h.step).2 with ⟨i, q, hi, _, hstart⟩ | ⟨_, hnone⟩
  · obtain rfl : i = j := Option.some.inj (hi.job.symm.trans h.job)
    exact hstart.resolve_right fun hfirst => by simp [hasks] at hfirst
  · exact absurd h (hnone j r)

/-- Every system that a run reaches is tracked. -/
theorem tracked_run {ms : List Move} {s : System} (h : fresh.run ms = some s) : s.Tracked :=
  run_induction (P := fun _ s => s.Tracked) tracked_fresh
    (fun _ _ _ _ _ hs hm => (step_cases hs hm).1) h

/-- What holds of the core at first and is kept by the effects of the commands that a run starts
holds at its end. -/
theorem core_induction_of_starts {P : Core → Prop} (first : P .fresh) {ms : List Move}
    {s : System} (h : fresh.run ms = some s)
    (effect : ∀ {t o command c d r}, .start t command o ∈ ms → P c → Effect o command c r d →
      P d) : P s.core := by
  refine run_induction (P := fun ms s => (∀ t o command c d r, .start t command o ∈ ms → P c →
    Effect o command c r d → P d) → P s.core) (fun _ => first) ?_ h
      fun _ _ _ _ _ _ hstart hc he => effect hstart hc he
  intro ms m s u hrun ih hm heffect
  have hs : P s.core := ih fun t o command c d r hstart =>
    heffect t o command c d r (List.mem_append_left _ hstart)
  rcases (step_cases (tracked_run hrun) hm).2 with ⟨j, r, hj, he, _⟩ | ⟨hc, _⟩
  · have hrun' : fresh.run (ms ++ [m]) = some u := run_concat_eq_some.mpr ⟨s, hrun, hm⟩
    exact heffect _ _ _ _ _ r (start_mem_run hrun' hj.job) hs he
  · rwa [hc]

/-- What holds of the core at first and is kept by every effect holds at the end of every
run. -/
theorem core_induction {P : Core → Prop} (first : P .fresh)
    (effect : ∀ (o : Occasion) (command : Command) (c d : Core) (r : Outcome command.Result),
      P c → Effect o command c r d → P d)
    {ms : List Move} {s : System} (h : fresh.run ms = some s) : P s.core :=
  core_induction_of_starts first h fun _ hc he => effect _ _ _ _ _ hc he

end System

end ApiExposure
