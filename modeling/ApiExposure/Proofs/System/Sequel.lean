import ApiExposure.Proofs.Invokers.Grants
import ApiExposure.Proofs.System.Record

/-!
# What commands still do

A command that has taken effect is not over: it makes changes known, takes down
endpoints or removes a client. What it still does is decided when it takes effect,
whatever the replies and whatever else happens meanwhile. Here the effects are
listed once more, each with the report that came before it and with the deeds that
come after it. When the deeds are done is not said.
-/

namespace ApiExposure

/-- Something done outside the registries. -/
inductive Deed where
  /-- An errand is run. -/
  | errand (e : Errand)
  /-- A change is made known. -/
  | announcement (change : Change)

namespace Deed

/-- The errand that is run. -/
def errand? : Deed → Option Errand
  | errand e => some e
  | announcement _ => none

/-- The change that is made known. -/
def change? : Deed → Option Change
  | errand _ => none
  | announcement change => some change

/-- The changes that deeds make known, in order. -/
def changes (deeds : List Deed) : List Change := deeds.filterMap change?

@[simp] theorem changes_nil : changes [] = [] := rfl

/-- The changes among deeds, in the order of the deeds. -/
theorem changes_cons (d : Deed) (deeds : List Deed) :
    changes (d :: deeds) = d.change?.toList ++ changes deeds := by
  cases d <;> rfl

end Deed

/-- Endpoints of dropped APIs are taken down and their withdrawals made known in turn, and then
the updates. -/
def Cascade.deeds (k : Cascade) : List Deed :=
  k.removed.flatMap (fun a =>
      [.errand (.deprovision a.id a.publisher), .announcement (.ofApi .apiUnavailable a)])
    ++ k.updated.map (fun a => .announcement (.ofApi .apiUpdated a))

namespace Cascade

/-- Only dropped APIs have their endpoints taken down. -/
theorem errand_mem_deeds {k : Cascade} {e : Errand} :
    .errand e ∈ k.deeds ↔ ∃ a ∈ k.removed, e = .deprovision a.id a.publisher := by
  simp [deeds]

/-- The withdrawals are made known in order, and then the updates. -/
theorem changes_deeds (k : Cascade) :
    Deed.changes k.deeds =
      k.removed.map (.ofApi .apiUnavailable) ++ k.updated.map (.ofApi .apiUpdated) := by
  have hremoved : Deed.changes (k.removed.flatMap (fun a =>
      [.errand (.deprovision a.id a.publisher), .announcement (.ofApi .apiUnavailable a)])) =
      k.removed.map (.ofApi .apiUnavailable) := by
    induction k.removed with
    | nil => rfl
    | cons a as ih => exact congrArg _ ih
  have hupdated : Deed.changes (k.updated.map (fun a => .announcement (.ofApi .apiUpdated a))) =
      k.updated.map (.ofApi .apiUpdated) := by
    induction k.updated with
    | nil => rfl
    | cons a as ih => exact congrArg _ ih
  rw [deeds, Deed.changes, List.filterMap_append]
  exact congrArg₂ _ hremoved hupdated

end Cascade

namespace Flow

variable {α : Type} {f g : Flow α} {deeds : List Deed} {c : Core} {reply : Reply}

/-- A flow does these deeds one after the other, whatever the replies and whatever it finds. -/
def Does : Flow α → List Deed → Prop
  | done _ _, deeds => deeds = []
  | errand _ e next, deeds =>
    ∃ left, deeds = .errand e :: left ∧ ∀ reply c, (next reply c).Does left
  | register _ _ _, _ => False
  | announce _ change next, deeds =>
    ∃ left, deeds = .announcement change :: left ∧ ∀ c, (next c).Does left

/-- What a flow does when every errand fails. -/
def rest : Flow α → List Deed
  | done _ _ => []
  | errand _ e next => .errand e :: (next (.error ⟨.deploymentAutomation, ""⟩) .fresh).rest
  | register _ _ _ => []
  | announce _ change next => .announcement change :: (next .fresh).rest

/-- Nothing else is left of a flow than its deeds. -/
theorem Does.rest_eq (h : f.Does deeds) : f.rest = deeds := by
  induction f generalizing deeds with
  | done _ _ => exact h.symm
  | errand _ _ _ ih =>
    obtain ⟨left, rfl, hnext⟩ := h
    exact congrArg _ (ih _ _ (hnext _ _))
  | register _ _ _ => exact h.elim
  | announce _ _ _ ih =>
    obtain ⟨left, rfl, hnext⟩ := h
    exact congrArg _ (ih _ (hnext _))

/-- A reply brings a flow from one deed to the next. -/
theorem Does.resume (h : f.Does deeds) (hg : f.resume reply c = some g) :
    ∃ d left, deeds = d :: left ∧ g.Does left ∧
      f.report? reply = d.errand?.map (fun e => ⟨e, reply.isSuccess⟩) := by
  cases f <;> cases reply <;> simp only [Flow.resume, Option.some.injEq, reduceCtorEq] at hg
  · obtain ⟨left, rfl, hnext⟩ := h
    exact ⟨_, left, rfl, hg ▸ hnext _ _, rfl⟩
  · exact h.elim
  · obtain ⟨left, rfl, hnext⟩ := h
    exact ⟨_, left, rfl, hg ▸ hnext _, rfl⟩

/-- A flow makes its first deed known if that is an announcement. -/
theorem Does.change?_eq (h : f.Does deeds) : f.change? = deeds.head?.bind Deed.change? := by
  cases f with
  | done _ _ =>
    cases h
    rfl
  | register _ _ _ => exact h.elim
  | errand _ _ _ | announce _ _ _ =>
    obtain ⟨left, rfl, _⟩ := h
    rfl

/-- The changes that a flow makes known are the one at hand and those still to come. -/
theorem Does.changes_eq (h : f.Does deeds) :
    Deed.changes deeds = f.change?.toList ++ Deed.changes f.rest.tail := by
  rw [h.change?_eq, h.rest_eq]
  cases deeds with
  | nil => rfl
  | cons d deeds => exact Deed.changes_cons d deeds

/-- An ended flow has no deed left. -/
theorem Does.eq_nil (h : f.Does deeds) (hf : f.hasEnded = true) : deeds = [] := by
  cases f with
  | done _ _ => exact h
  | _ => cases hf

/-- An operation without collaborators does nothing more. -/
theorem does_ofOutcome (x : Outcome (α × Core)) : (ofOutcome c x).Does [] := by
  cases x <;> rfl

/-- A flow that makes a last change known. -/
theorem does_announce (d : Core) (change : Change) (r : Outcome α) :
    (announce d change (fun s => done s r)).Does [.announcement change] :=
  ⟨[], rfl, fun _ => rfl⟩

/-- A flow that runs a last errand. -/
theorem does_errand (d : Core) (e : Errand) (r : Outcome α) :
    (errand d e (fun _ s => done s r)).Does [.errand e] :=
  ⟨[], rfl, fun _ _ => rfl⟩

/-- The updates of a cascade are announced one after the other. -/
theorem does_announceUpdates (functions : List FunctionId) (apis : List PublishedApi)
    (c : Core) :
    (Core.announceUpdates functions apis c).Does (Cascade.deeds ⟨[], apis⟩) := by
  induction apis generalizing c with
  | nil => rfl
  | cons a as ih => exact ⟨_, rfl, ih⟩

/-- The endpoints of the dropped APIs are removed and announced one by one, and the updates follow.
-/
theorem does_withdrawAll (functions : List FunctionId) (updated apis : List PublishedApi)
    (c : Core) :
    (Core.withdrawAll functions updated apis c).Does (Cascade.deeds ⟨apis, updated⟩) := by
  induction apis generalizing c with
  | nil => exact does_announceUpdates functions updated c
  | cons a as ih => exact ⟨_, rfl, fun _ _ => ⟨_, rfl, ih⟩⟩

/-- A flow waits for the collaborator that it asks first. -/
structure Asks (f : Flow α) (c : Core) : Prop where
  /-- The state is as it was found. -/
  state : f.state = c
  /-- The result is open. -/
  unsettled : ∀ r, ¬ f.Settled r
  /-- Nothing is being made known. -/
  change : f.change? = none
  /-- If it is refused nothing more is done. -/
  rest : f.rest.tail = []

/-- So does a flow that passes on an outage. -/
theorem asks_errand {e : Errand} {next : Except Outage Unit → Core → Flow α}
    (h : ∀ outage d, next (.error outage) d = done d (.error (.unavailable outage))) :
    (errand c e next).Asks c where
  state := rfl
  unsettled := Command.unsettled_of_outages fun outage =>
    ⟨.errand (.error outage), congrArg some (h outage c)⟩
  change := rfl
  rest := by rw [Flow.rest, List.tail_cons, h, Flow.rest]

end Flow

/-- Whether a command ends where it takes effect and has nothing to make known. -/
def Command.isQuiet : Command → Bool
  | .registerProvider _ | .updateProvider _ _ | .grant _ _ | .removeGrant _ _
  | .createContext _ _ | .updateContext _ _ | .subscribe _ _ | .unsubscribe _ _ | .ask _ => true
  | _ => false

/-- A quiet command leaves the published APIs as they are. -/
theorem Effect.store_eq_of_isQuiet {o : Occasion} {command : Command} {c d : Core}
    {r : Outcome command.Result} (h : Effect o command c r d) (hq : command.isQuiet = true) :
    d.store = c.store := by
  cases h with
  | removed _ | published _ | patched _ | withdrawn _ => cases hq
  | _ => rfl

/-- What a command does when it takes effect after a report, and what it does then. -/
inductive Sequel (o : Occasion) : (command : Command) → Option Report → Core →
    Outcome command.Result → Core → List Deed → Prop
  /-- It fails. -/
  | failed {command : Command} {c : Core} (f : Failure) :
      Sequel o command none c (.error f) c []
  /-- An errand fails. -/
  | unavailable {command : Command} {c : Core} (e : Errand) (outage : Outage) :
      Sequel o command (some ⟨e, false⟩) c (.error (.unavailable outage)) c []
  /-- It is quiet. -/
  | quiet {command : Command} {c d : Core} {r : Outcome command.Result}
      (hq : command.isQuiet = true) (h : Effect o command c r d) :
      Sequel o command none c r d []
  /-- A domain goes, and its cascade is worked off. -/
  | removed {c : Core} {id : DomainId} {functions : List FunctionId} {providers : Providers}
      (h : c.providers.deregister id = .ok (functions, providers)) :
      Sequel o (.deregisterProvider id) none c (.ok functions)
        { c with providers, store := (c.store.invalidate functions o.now).1 }
        (c.store.invalidate functions o.now).2.deeds
  /-- An API whose endpoint is set up is recorded. -/
  | published {c : Core} {publisher : FunctionId} {d : ApiDescription} {a : PublishedApi}
      {store : Publications}
      (h : c.store.publishAs c.providers (.generate (o.suffix 0)) publisher d o.now =
        .ok (a, store)) :
      Sequel o (.publish publisher d)
        (some ⟨.provision (.generate (o.suffix 0)) publisher d, true⟩) c (.ok a) { c with store }
        [.announcement (.ofApi .apiAvailable a)]
  /-- An API whose endpoint is set up is refused, and the endpoint is taken down. -/
  | takenBack {c : Core} {publisher : FunctionId} {d : ApiDescription} (f : Failure) :
      Sequel o (.publish publisher d)
        (some ⟨.provision (.generate (o.suffix 0)) publisher d, true⟩) c (.error f) c
        [.errand (.deprovision (.generate (o.suffix 0)) publisher)]
  /-- An API is changed. -/
  | patched {c : Core} {publisher : FunctionId} {id : ApiId} {p : ApiPatch} {a : PublishedApi}
      {store : Publications}
      (h : c.store.updateFor c.providers publisher id p o.now = .ok (a, store)) :
      Sequel o (.updateApi publisher id p) none c (.ok a) { c with store }
        [.announcement (.ofApi .apiUpdated a)]
  /-- An API whose endpoint is taken down is dropped. -/
  | withdrawn {c : Core} {publisher : FunctionId} {id : ApiId} {a : PublishedApi}
      {store : Publications} (h : c.store.unpublish id = .ok (a, store)) :
      Sequel o (.unpublish publisher id) (some ⟨.deprovision id publisher, true⟩) c (.ok ())
        { c with store } [.announcement (.ofApi .apiUnavailable a)]
  /-- Another command has dropped it meanwhile. -/
  | alreadyWithdrawn {c : Core} {publisher : FunctionId} {id : ApiId}
      (h : c.store.apis.get? id = none) :
      Sequel o (.unpublish publisher id) (some ⟨.deprovision id publisher, true⟩) c
        (.error (.notFound (.api id))) c []
  /-- An invoker that has a client is entered. -/
  | onboarded {c : Core} {e : Enrolment} {identity : InvokerIdentity} {invokers : Invokers}
      {credentials : ClientCredentials}
      (h : c.invokers.onboardAs (.generate (o.suffix 0)) e (c.store.grantable e.requested) o.now =
        .ok (identity, invokers)) :
      Sequel o (.onboard e) none c (.ok ⟨identity, credentials⟩) { c with invokers }
        [.announcement (.ofInvoker .invokerOnboarded (.generate (o.suffix 0)))]
  /-- An invoker that has a client is refused, and the client is removed. -/
  | turnedAway {c : Core} {e : Enrolment} (f : Failure) :
      Sequel o (.onboard e) none c (.error f) c
        [.errand (.removeClient (.generate (o.suffix 0)))]
  /-- An invoker is changed. -/
  | invokerUpdated {c : Core} {id : InvokerId} {p : InvokerPatch} {identity : InvokerIdentity}
      {invokers : Invokers} (h : c.invokers.update id p o.now = .ok (identity, invokers)) :
      Sequel o (.updateInvoker id p) none c (.ok identity) { c with invokers }
        [.announcement (.ofInvoker .invokerUpdated id)]
  /-- An invoker whose client is removed goes with its context, and its grants are revoked. -/
  | offboarded {c : Core} {id : InvokerId} {identity : InvokerIdentity} {invokers : Invokers}
      (h : c.invokers.deregister id = .ok (identity, invokers)) :
      Sequel o (.offboard id) (some ⟨.removeClient id, true⟩) c (.ok ())
        { c with
          invokers
          ledger := Core.revokeGrants c.ledger id identity.grants o.now
          trusted := (c.trusted.remove id).2 }
        [.announcement (.ofInvoker .invokerOffboarded id)]
  /-- It has gone meanwhile. -/
  | alreadyOffboarded {c : Core} {id : InvokerId} (h : c.invokers.table.get? id = none) :
      Sequel o (.offboard id) (some ⟨.removeClient id, true⟩) c
        (.error (.notFound (.invoker id))) c []
  /-- A call is revoked. -/
  | callRevoked {c : Core} {call : Call} (h : call.validate = .ok ()) :
      Sequel o (.revoke call) none c (.ok ()) { c with ledger := c.ledger.revoke call o.now }
        [.announcement (.accessRevoked call.invoker [] [call.exposer])]
  /-- All grants within a scope are revoked, and the context is cut. -/
  | accessRevoked {c : Core} {id : InvokerId} {scope : RevocationScope} {grants : List Grant}
      {ledger : Ledger} {deeds : List Deed} (hs : scope.isEmpty = false)
      (hg : c.invokers.grantsMatching id scope = .ok grants)
      (h : Core.revokeEach id o.now grants c.ledger = (ledger, .ok ()))
      (hd : deeds = if grants.isEmpty then [] else
        [.announcement (.accessRevoked id
          ((Core.ascending (grants.map (·.api.text))).map ApiId.mk)
          ((Core.ascending (grants.map (·.exposer.text))).map FunctionId.mk))]) :
      Sequel o (.revokeAccess id scope) none c (.ok grants)
        { c with ledger, trusted := (c.trusted.revoke id scope).2 } deeds
  /-- A revocation within a scope stops at a grant with a blank field. -/
  | accessPartlyRevoked {c : Core} {id : InvokerId} {scope : RevocationScope}
      {grants : List Grant} {ledger : Ledger} {f : Failure}
      (hg : c.invokers.grantsMatching id scope = .ok grants)
      (h : Core.revokeEach id o.now grants c.ledger = (ledger, .error f)) :
      Sequel o (.revokeAccess id scope) none c (.error f) { c with ledger } []

/-- What is said to come after an effect comes after an effect of the command. -/
theorem Sequel.effect {o : Occasion} {command : Command} {report : Option Report} {c d : Core}
    {r : Outcome command.Result} {deeds : List Deed} (h : Sequel o command report c r d deeds) :
    Effect o command c r d := by
  cases h with
  | quiet _ h => exact h
  | removed h => exact .removed h
  | published h => exact .published h
  | patched h => exact .patched h
  | withdrawn h => exact .withdrawn h
  | onboarded h => exact .onboarded h
  | invokerUpdated h => exact .invokerUpdated h
  | offboarded h => exact .offboarded h
  | callRevoked h => exact .callRevoked h
  | accessRevoked hs hg h _ => exact .accessRevoked hs hg h
  | accessPartlyRevoked hg h => exact .accessPartlyRevoked hg h
  | _ => exact .failed _

namespace Command

/-- What is left of a command has taken effect as it stands and does the deeds that follow. -/
def Concludes (command : Command) (o : Occasion) (report : Option Report) (c : Core)
    (f : Flow command.Result) : Prop :=
  ∃ r deeds, f.Settled r ∧ f.Does deeds ∧ Sequel o command report c r f.state deeds

variable {o : Occasion} {c : Core} {report : Option Report}

/-- A failure leaves nothing to be done. -/
theorem Concludes.failed {command : Command} (f : Failure) :
    command.Concludes o none c (.done c (.error f)) := ⟨_, [], rfl, rfl, .failed f⟩

/-- A command whose only deed is an announcement. -/
theorem Concludes.announce {command : Command} {d : Core} {change : Change}
    {r : Outcome command.Result}
    (h : Sequel o command report c r d [.announcement change]) :
    command.Concludes o report c (.announce d change (fun s => .done s r)) :=
  ⟨r, _, fun _ => ⟨rfl, rfl⟩, Flow.does_announce d change r, h⟩

/-- A command without collaborators does nothing after its effect. -/
theorem TakesEffect.concludes {command : Command} {x : Outcome (command.Result × Core)}
    (h : command.TakesEffect o c (.ofOutcome c x)) (hq : command.isQuiet = true) :
    command.Concludes o none c (.ofOutcome c x) := by
  obtain ⟨r, hr, he⟩ := h
  exact ⟨r, [], hr, Flow.does_ofOutcome x, .quiet hq he⟩

/-- A provider that has left leaves endpoints to be removed, and announcements for these. -/
theorem deregisterProvider_concludes (id : DomainId) :
    (deregisterProvider id).Concludes o none c ((deregisterProvider id).start o c) := by
  simp only [start, Core.deregisterProvider]
  cases h : c.providers.deregister id with
  | error f => exact .failed f
  | ok r =>
    obtain ⟨functions, providers⟩ := r
    have hw := settled_withdrawAll functions (c.store.invalidate functions o.now).2.updated
      (c.store.invalidate functions o.now).2.removed
      { c with providers, store := (c.store.invalidate functions o.now).1 }
    refine ⟨.ok functions, _, hw.2, Flow.does_withdrawAll _ _ _ _, ?_⟩
    dsimp only
    rw [hw.1]
    exact .removed h

/-- A patched API is announced, if it was patched. -/
theorem updateApi_concludes (publisher : FunctionId) (id : ApiId) (p : ApiPatch) :
    (updateApi publisher id p).Concludes o none c ((updateApi publisher id p).start o c) := by
  simp only [start, Core.updateApi]
  cases h : c.store.updateFor c.providers publisher id p o.now with
  | error f => exact .failed f
  | ok r => exact .announce (.patched h)

/-- A patched invoker is announced, if it was patched. -/
theorem updateInvoker_concludes (id : InvokerId) (p : InvokerPatch) :
    (updateInvoker id p).Concludes o none c ((updateInvoker id p).start o c) := by
  simp only [start, Core.updateInvoker]
  cases h : c.invokers.update id p o.now with
  | error f => exact .failed f
  | ok r => exact .announce (.invokerUpdated h)

/-- A revoked call is announced, if it was revoked. -/
theorem revoke_concludes (call : Call) :
    (revoke call).Concludes o none c ((revoke call).start o c) := by
  simp only [start, Core.revoke]
  cases h : call.validate with
  | error f => exact .failed f
  | ok u => exact .announce (.callRevoked h)

/-- A revocation of many calls is announced once, and not at all when no grant was in the scope. -/
theorem revokeAccess_concludes (id : InvokerId) (scope : RevocationScope) :
    (revokeAccess id scope).Concludes o none c ((revokeAccess id scope).start o c) := by
  simp only [start, Core.revokeAccess]
  cases hs : scope.isEmpty with
  | true => exact .failed _
  | false =>
    cases hg : c.invokers.grantsMatching id scope with
    | error f => exact .failed f
    | ok grants =>
      cases h : Core.revokeEach id o.now grants c.ledger with
      | mk ledger outcome =>
        simp only [h, Bool.false_eq_true, if_false]
        cases outcome with
        | error f => exact ⟨_, [], rfl, rfl, .accessPartlyRevoked hg h⟩
        | ok u =>
          dsimp only
          split
          · next he => exact ⟨_, [], rfl, rfl, .accessRevoked hs hg h (by rw [if_pos he])⟩
          · next he => exact .announce (.accessRevoked hs hg h (by rw [if_neg he]))

/-- A command concludes when it starts, or it asks a collaborator first. -/
theorem start_concludes (command : Command) (o : Occasion) (c : Core) :
    command.Concludes o none c (command.start o c) ∨ (command.start o c).Asks c := by
  cases command with
  | registerProvider r => exact .inl ((registerProvider_takesEffect r).concludes rfl)
  | updateProvider id p => exact .inl ((updateProvider_takesEffect id p).concludes rfl)
  | deregisterProvider id => exact .inl (deregisterProvider_concludes id)
  | publish publisher d =>
    simp only [start, Core.publish]
    cases c.store.validate c.providers publisher d with
    | error f => exact .inl (.failed f)
    | ok u => exact .inr (Flow.asks_errand fun _ _ => rfl)
  | updateApi publisher id p => exact .inl (updateApi_concludes publisher id p)
  | unpublish publisher id =>
    simp only [start, Core.unpublish]
    cases c.store.getFor publisher id with
    | error f => exact .inl (.failed f)
    | ok a => exact .inr (Flow.asks_errand fun _ _ => rfl)
  | onboard e =>
    simp only [start, Core.onboard]
    cases e.validate with
    | error f => exact .inl (.failed f)
    | ok u =>
      refine .inr ⟨rfl, unsettled_of_outages (c := c) fun outage => ?_, rfl, rfl⟩
      exact ⟨.client (.error outage), rfl⟩
  | updateInvoker id p => exact .inl (updateInvoker_concludes id p)
  | offboard id =>
    simp only [start, Core.offboard]
    cases c.invokers.contains id with
    | false => exact .inl (.failed _)
    | true => exact .inr (Flow.asks_errand fun _ _ => rfl)
  | grant id g => exact .inl ((grant_takesEffect id g).concludes rfl)
  | removeGrant id g => exact .inl ((removeGrant_takesEffect id g).concludes rfl)
  | revoke call => exact .inl (revoke_concludes call)
  | revokeAccess id scope => exact .inl (revokeAccess_concludes id scope)
  | createContext id context =>
    exact .inl ((createContext_takesEffect id context).concludes rfl)
  | updateContext id context =>
    exact .inl ((updateContext_takesEffect id context).concludes rfl)
  | subscribe subscriber s => exact .inl ((subscribe_takesEffect subscriber s).concludes rfl)
  | unsubscribe subscriber id =>
    exact .inl ((unsubscribe_takesEffect subscriber id).concludes rfl)
  | ask q =>
    obtain ⟨r, hr, he⟩ := ask_takesEffect (o := o) (c := c) q
    exact .inl ⟨r, [], hr, rfl, .quiet rfl he⟩

/-- A command that passes on the outage of its errand concludes by the outcome. -/
theorem concludes_of_resume {command : Command} {c₀ : Core} {e : Errand}
    {next : Except Outage Unit → Core → Flow command.Result}
    (hfails : ∀ outage d, next (.error outage) d = .done d (.error (.unavailable outage)))
    (hdone : command.Concludes o (some ⟨e, true⟩) c (next (.ok ()) c)) {reply : Reply}
    {g : Flow command.Result} (hg : (Flow.errand c₀ e next).resume reply c = some g) :
    command.Concludes o ((Flow.errand c₀ e next).report? reply) c g := by
  cases reply <;> simp only [Flow.resume, Option.some.injEq, reduceCtorEq] at hg
  next r =>
    subst hg
    cases r with
    | error outage =>
      rw [hfails]
      exact ⟨_, [], rfl, rfl, .unavailable e outage⟩
    | ok u => exact hdone

/-- A command that asked a collaborator concludes by the reply, in the state found then. -/
theorem resume_concludes {command : Command} {c₀ : Core} (hc : c₀.store.WellFormed)
    (hasks : (command.start o c₀).Asks c₀) {reply : Reply} {g : Flow command.Result}
    (hg : (command.start o c₀).resume reply c = some g) :
    command.Concludes o ((command.start o c₀).report? reply) c g := by
  have hfirst : command.asksFirst = true := by
    rcases start_cases command o c₀ with ⟨r, hr, _⟩ | ⟨_, hwaits⟩
    · exact absurd hr (hasks.unsettled r)
    · exact hwaits.asksFirst
  cases command with
  | publish publisher d =>
    simp only [start, Core.publish] at hasks hg ⊢
    cases hv : c₀.store.validate c₀.providers publisher d with
    | error f => exact absurd rfl ((hv ▸ hasks).unsettled (.error f))
    | ok u =>
      rw [hv] at hg
      refine concludes_of_resume (fun _ _ => rfl) ?_ hg
      dsimp only
      cases h : c.store.publishAs c.providers (.generate (o.suffix 0)) publisher d o.now with
      | error f => exact ⟨_, _, fun _ _ => ⟨rfl, rfl⟩, Flow.does_errand _ _ _, .takenBack f⟩
      | ok r => exact .announce (.published h)
  | unpublish publisher id =>
    simp only [start, Core.unpublish] at hasks hg ⊢
    cases hv : c₀.store.getFor publisher id with
    | error f => exact absurd rfl ((hv ▸ hasks).unsettled (.error f))
    | ok a =>
      have hid : a.id = id := hc.keyed id a (Publications.getFor_eq_ok_iff.mp hv).1
      rw [hv] at hg
      refine concludes_of_resume (fun _ _ => rfl) ?_ hg
      dsimp only
      rw [hid]
      cases h : c.store.unpublish id with
      | error f =>
        obtain ⟨hnone, rfl⟩ := Publications.of_unpublish_eq_error h
        exact ⟨_, [], rfl, rfl, .alreadyWithdrawn hnone⟩
      | ok r => exact .announce (.withdrawn h)
  | onboard e =>
    simp only [start, Core.onboard] at hasks hg ⊢
    cases hv : e.validate with
    | error f => exact absurd rfl ((hv ▸ hasks).unsettled (.error f))
    | ok u =>
      rw [hv] at hg
      cases reply <;> simp only [Flow.resume, Option.some.injEq, reduceCtorEq] at hg
      next r =>
        subst hg
        cases r with
        | error outage => exact .failed _
        | ok credentials =>
          dsimp only
          cases h : c.invokers.onboardAs (.generate (o.suffix 0)) e
              (c.store.grantable e.requested) o.now with
          | error f => exact ⟨_, _, fun _ _ => ⟨rfl, rfl⟩, Flow.does_errand _ _ _, .turnedAway f⟩
          | ok r => exact .announce (.onboarded h)
  | offboard id =>
    simp only [start, Core.offboard] at hasks hg ⊢
    cases hv : c₀.invokers.contains id with
    | false => exact absurd rfl ((hv ▸ hasks).unsettled (.error (.notFound (.invoker id))))
    | true =>
      rw [hv] at hg
      refine concludes_of_resume (fun _ _ => rfl) ?_ hg
      dsimp only
      cases h : c.invokers.deregister id with
      | error f =>
        obtain ⟨hnone, rfl⟩ := Invokers.of_deregister_eq_error h
        exact ⟨_, [], rfl, rfl, .alreadyOffboarded hnone⟩
      | ok r => exact .announce (.offboarded h)
  | _ => cases hfirst

end Command

end ApiExposure
