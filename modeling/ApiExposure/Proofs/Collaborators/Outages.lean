import ApiExposure.Proofs.Collaborators.Blame
import ApiExposure.Proofs.System.Atomicity
import ApiExposure.Proofs.System.Turn

/-!
# Outages are told apart and contained

A command is performed against a script, which says of every call how it goes and
what others have done to the registries until it returns. At most one call decides:
the first, in a publication, a withdrawal, an onboarding or an offboarding. A command
fails with an outage exactly when that call failed with it. All other calls may go as
they like: the result, the registries and the calls that are made stay the same. What
others do meanwhile is taken as given in both performances that are compared.
-/

namespace ApiExposure

/-- A call to a collaborator. -/
inductive Contact where
  /-- An errand is asked for. -/
  | errand (e : Errand)
  /-- A client is asked for. -/
  | client (invoker : InvokerId)
  /-- A change is handed to the event sink. -/
  | notice (change : Change)

namespace Contact

/-- The call that a deed is. -/
def ofDeed : Deed → Contact
  | .errand e => errand e
  | .announcement change => notice change

end Contact

/-- The outage that a call ended with. -/
def Outage.of? {α : Type} : Except Outage α → Option Outage
  | .ok _ => none
  | .error outage => some outage

/-- The outage that a reply reports. -/
def Reply.outage? : Reply → Option Outage
  | .errand r => Outage.of? r
  | .client r => Outage.of? r
  | .announced => none

/-- A reply is a success or tells of an outage. -/
theorem Reply.outage?_eq_none_iff {reply : Reply} :
    reply.outage? = none ↔ reply.isSuccess = true := by
  rcases reply with (_ | _) | (_ | _) | _ <;> simp [outage?, Outage.of?, isSuccess, Except.isOk,
    Except.toBool]

/-- How the calls of one performance go, which are numbered from zero. -/
structure Script where
  /-- How an errand goes. -/
  errand : Nat → Errand → Except Outage Unit
  /-- What comes of the request for a client. -/
  client : Nat → InvokerId → Except Outage ClientCredentials
  /-- Whether the event sink takes a change. -/
  notice : Nat → Change → Except Outage Unit
  /-- What others do to the registries until a call returns. -/
  others : Nat → Core → Core

/-- The calls made so far, each with its outage if it failed. -/
abbrev Contacts := List (Contact × Option Outage)

namespace Contacts

/-- The calls made, however they went. -/
def made (log : Contacts) : List Contact := log.map Prod.fst

/-- The contacts that were made during a run and its continuation, in order. -/
theorem made_append (log later : Contacts) : made (log ++ later) = made log ++ made later :=
  List.map_append

theorem mem_made {log : Contacts} {contact : Contact} {outage : Option Outage}
    (h : (contact, outage) ∈ log) : contact ∈ log.made := List.mem_map.mpr ⟨_, h, rfl⟩

end Contacts

namespace Script

/-- The reply to a call. -/
def reply (p : Script) (n : Nat) : Contact → Reply
  | .errand e => .errand (p.errand n e)
  | .client id => .client (p.client n id)
  | .notice _ => .announced

/-- What others do to the registries during as many calls, from a number on. -/
def during (p : Script) : Nat → Nat → Core → Core
  | _, 0, c => c
  | n, k + 1, c => p.during (n + 1) k (p.others n c)

/-- What happens while a command waits is up to the others alone, not to the replies. -/
theorem during_congr {p q : Script} (h : p.others = q.others) (n k : Nat) (c : Core) :
    p.during n k c = q.during n k c := by
  induction k generalizing n c with
  | zero => rfl
  | succ k ih => rw [during, during, ih, h]

/-- When others do nothing the registries stay as they are. -/
theorem during_eq_self {p : Script} (h : ∀ n c, p.others n c = c) (n k : Nat) (c : Core) :
    p.during n k c = c := by
  induction k generalizing n with
  | zero => rfl
  | succ k ih => rw [during, h, ih]

end Script

/-- The call that the outcome of a command depends on. -/
def Command.decisive? (o : Occasion) : Command → Option Contact
  | .publish publisher d => some (.errand (.provision (.generate (o.suffix 0)) publisher d))
  | .unpublish publisher id => some (.errand (.deprovision id publisher))
  | .onboard _ => some (.client (.generate (o.suffix 0)))
  | .offboard id => some (.errand (.removeClient id))
  | _ => none

/-- Two scripts tell the same of others and of the decisive call of a command. -/
structure Script.Agrees (p q : Script) (command : Command) (o : Occasion) : Prop where
  /-- Others do the same. -/
  others : p.others = q.others
  /-- The decisive call goes the same. -/
  decisive : ∀ n contact, command.decisive? o = some contact → p.reply n contact = q.reply n contact

namespace Flow

variable {α : Type} {c : Core}

/-- Surroundings that follow a script and write down the calls. -/
def Surroundings.scripted (p : Script) : Surroundings (StateM Contacts) where
  errand c e := fun log =>
    ((p.errand log.length e, p.others log.length c),
      log ++ [(.errand e, Outage.of? (p.errand log.length e))])
  register c id := fun log =>
    ((p.client log.length id, p.others log.length c),
      log ++ [(.client id, Outage.of? (p.client log.length id))])
  announce c change := fun log =>
    (p.others log.length c, log ++ [(.notice change, Outage.of? (p.notice log.length change))])

/-- The result is decided, and it is no outage. -/
def Decided (f : Flow α) : Prop := ∃ r, f.Settled r ∧ Outcome.IsOwn r

/-- A flow that fails on its own has been decided. -/
theorem decided_error {f : Failure} (h : Outcome.IsOwn (.error f : Outcome α)) :
    (done c (.error f : Outcome α)).Decided :=
  ⟨_, rfl, h⟩

/-- A flow that announces a change and ends has been decided, whatever becomes of the announcement.
-/
theorem decided_announce (change : Change) (a : α) :
    (announce c change (fun s => done s (.ok a))).Decided :=
  ⟨.ok a, fun _ => ⟨rfl, rfl⟩, Outcome.isOwn_ok a⟩

/-- A flow that only hands on what a registry decided has been decided. -/
theorem decided_ofOutcome {x : Outcome (α × Core)} (h : Outcome.IsOwn x) :
    (ofOutcome c x).Decided := by
  cases x with
  | error f => exact decided_error (h.error rfl)
  | ok r => exact ⟨.ok r.1, rfl, Outcome.isOwn_ok _⟩

/-- A flow waits for a call, hands on its outage and depends on no other. -/
def Hinges (contact : Contact) : Flow α → Prop
  | errand _ e next =>
    contact = .errand e ∧
      (∀ outage c, next (.error outage) c = done c (.error (.unavailable outage))) ∧
        ∀ u c, (next (.ok u) c).Decided
  | register _ id next =>
    contact = .client id ∧
      (∀ outage c, next (.error outage) c = done c (.error (.unavailable outage))) ∧
        ∀ credentials c, (next (.ok credentials) c).Decided
  | _ => False

/-- A flow that hinges on a call is open. -/
theorem Hinges.unsettled {contact : Contact} {f : Flow α} (h : f.Hinges contact)
    (r : Outcome α) : ¬ f.Settled r := by
  cases f with
  | errand d e next =>
    refine Command.unsettled_of_outages (c := d) (fun outage => ?_) r
    exact ⟨.errand (.error outage), congrArg some (h.2.1 outage d)⟩
  | register d id next =>
    refine Command.unsettled_of_outages (c := d) (fun outage => ?_) r
    exact ⟨.client (.error outage), congrArg some (h.2.1 outage d)⟩
  | _ => exact h.elim

/-- A flow that hinges on a call makes it and goes on with the reply; an outage ends it. -/
theorem Hinges.resume {contact : Contact} {f : Flow α} (h : f.Hinges contact) (p : Script)
    (log : Contacts) :
    ∃ g, f.resume (p.reply log.length contact) (p.others log.length f.state) = some g ∧
      f.perform (.scripted p) log =
        g.perform (.scripted p) (log ++ [(contact, (p.reply log.length contact).outage?)]) ∧
      ∀ outage, (p.reply log.length contact).outage? = some outage →
        g = done (p.others log.length f.state) (.error (.unavailable outage)) := by
  cases f with
  | errand d e next =>
    obtain ⟨rfl, hfails, _⟩ := h
    refine ⟨_, rfl, rfl, fun outage hout => ?_⟩
    dsimp only [Script.reply, Reply.outage?] at hout
    cases hr : p.errand log.length e with
    | ok u => simp [hr, Outage.of?] at hout
    | error _ =>
      rw [hr] at hout
      rw [← Option.some.inj hout]
      exact hfails _ _
  | register d id next =>
    obtain ⟨rfl, hfails, _⟩ := h
    refine ⟨_, rfl, rfl, fun outage hout => ?_⟩
    dsimp only [Script.reply, Reply.outage?] at hout
    cases hr : p.client log.length id with
    | ok u => simp [hr, Outage.of?] at hout
    | error _ =>
      rw [hr] at hout
      rw [← Option.some.inj hout]
      exact hfails _ _
  | _ => exact h.elim

/-- A flow that is decided runs through its deeds, however they go. -/
theorem Settled.perform_scripted {f : Flow α} {r : Outcome α} {deeds : List Deed}
    (hr : f.Settled r) (hdoes : f.Does deeds) (p : Script) (log : Contacts) :
    (f.perform (.scripted p) log).1 = (p.during log.length deeds.length f.state, r) ∧
      ∃ later : Contacts, (f.perform (.scripted p) log).2 = log ++ later ∧
        later.made = deeds.map Contact.ofDeed := by
  induction f generalizing deeds log with
  | done s result =>
    cases hdoes
    exact ⟨congrArg (Prod.mk s) hr, [], (List.append_nil _).symm, rfl⟩
  | errand s e next ih =>
    obtain ⟨left, rfl, hnext⟩ := hdoes
    obtain ⟨hstate, hr'⟩ := hr (p.errand log.length e) (p.others log.length s)
    obtain ⟨hend, later, hlog, hmade⟩ := ih _ _ hr' (hnext _ _)
      (log ++ [(.errand e, Outage.of? (p.errand log.length e))])
    rw [hstate, List.length_append] at hend
    exact ⟨hend, _ :: later, hlog.trans (List.append_assoc _ _ _), congrArg _ hmade⟩
  | register s id next ih => exact hdoes.elim
  | announce s change next ih =>
    obtain ⟨left, rfl, hnext⟩ := hdoes
    obtain ⟨hstate, hr'⟩ := hr (p.others log.length s)
    obtain ⟨hend, later, hlog, hmade⟩ := ih _ hr' (hnext _)
      (log ++ [(.notice change, Outage.of? (p.notice log.length change))])
    rw [hstate, List.length_append] at hend
    exact ⟨hend, _ :: later, hlog.trans (List.append_assoc _ _ _), congrArg _ hmade⟩

end Flow

namespace Command

open ApiExposure.Flow

variable {o : Occasion} {c : Core}

/-- Every case of a command that is decided as it starts or hinges on its decisive call. -/
def DecidedOrHinges (command : Command) (o : Occasion) (f : Flow command.Result) : Prop :=
  f.Decided ∨ ∃ contact, command.decisive? o = some contact ∧ f.Hinges contact

/-- A publication hinges on the provision of its endpoint, once it has passed the checks. -/
theorem publish_hinges (publisher : FunctionId) (d : ApiDescription) :
    (publish publisher d).DecidedOrHinges o ((publish publisher d).start o c) := by
  simp only [start, Core.publish]
  cases h : c.store.validate c.providers publisher d with
  | error f => exact .inl (decided_error ((c.store.isOwn_validate _ _ _).error h))
  | ok u =>
    refine .inr ⟨_, rfl, rfl, fun _ _ => rfl, fun _ found => ?_⟩
    dsimp only
    cases h : found.store.publishAs found.providers (.generate (o.suffix 0)) publisher d
        o.now with
    | error f =>
      exact ⟨.error f, fun _ _ => ⟨rfl, rfl⟩, (found.store.isOwn_publishAs _ _ _ _ _).error h⟩
    | ok r => exact decided_announce _ _

/-- A withdrawal hinges on the removal of the endpoint, if the API is the publisher's. -/
theorem unpublish_hinges (hc : c.store.WellFormed) (publisher : FunctionId) (id : ApiId) :
    (unpublish publisher id).DecidedOrHinges o ((unpublish publisher id).start o c) := by
  simp only [start, Core.unpublish]
  cases h : c.store.getFor publisher id with
  | error f => exact .inl (decided_error ((c.store.isOwn_getFor _ _).error h))
  | ok a =>
    have hid : a.id = id := hc.keyed id a (Publications.getFor_eq_ok_iff.mp h).1
    refine .inr ⟨_, rfl, by rw [hid], fun _ _ => rfl, fun _ found => ?_⟩
    dsimp only
    cases h : found.store.unpublish id with
    | error f => exact decided_error ((found.store.isOwn_unpublish id).error h)
    | ok r => exact decided_announce _ _

/-- An onboarding hinges on the client that the identity provider creates. -/
theorem onboard_hinges (e : Enrolment) :
    (onboard e).DecidedOrHinges o ((onboard e).start o c) := by
  simp only [start, Core.onboard]
  cases h : e.validate with
  | error f => exact .inl (decided_error (e.isOwn_validate.error h))
  | ok u =>
    refine .inr ⟨_, rfl, rfl, fun _ _ => rfl, fun _ found => ?_⟩
    dsimp only
    cases h : found.invokers.onboardAs (.generate (o.suffix 0)) e
        (found.store.grantable e.requested) o.now with
    | error f =>
      exact ⟨.error f, fun _ _ => ⟨rfl, rfl⟩, (found.invokers.isOwn_onboardAs _ _ _ _).error h⟩
    | ok r => exact decided_announce _ _

/-- An offboarding hinges on the removal of the client. -/
theorem offboard_hinges (id : InvokerId) :
    (offboard id).DecidedOrHinges o ((offboard id).start o c) := by
  simp only [start, Core.offboard]
  cases c.invokers.contains id with
  | false => exact .inl (decided_error (Outcome.isOwn_notFound _))
  | true =>
    refine .inr ⟨_, rfl, rfl, fun _ _ => rfl, fun _ found => ?_⟩
    dsimp only
    cases h : found.invokers.deregister id with
    | error f => exact decided_error ((found.invokers.isOwn_deregister id).error h)
    | ok r => exact decided_announce _ _

/-- A provider is gone before any endpoint is removed, so no reply matters to the result. -/
theorem deregisterProvider_decided (id : DomainId) :
    ((deregisterProvider id).start o c).Decided := by
  simp only [start, Core.deregisterProvider]
  cases h : c.providers.deregister id with
  | error f => exact decided_error ((c.providers.isOwn_deregister id).error h)
  | ok r => exact ⟨.ok r.1, (settled_withdrawAll _ _ _ _).2, Outcome.isOwn_ok _⟩

/-- A patch of an API asks nobody before it is done. -/
theorem updateApi_decided (publisher : FunctionId) (id : ApiId) (p : ApiPatch) :
    ((updateApi publisher id p).start o c).Decided := by
  simp only [start, Core.updateApi]
  cases h : c.store.updateFor c.providers publisher id p o.now with
  | error f => exact decided_error ((c.store.isOwn_updateFor _ _ _ _ _).error h)
  | ok r => exact decided_announce _ _

/-- A patch of an invoker asks nobody before it is done. -/
theorem updateInvoker_decided (id : InvokerId) (p : InvokerPatch) :
    ((updateInvoker id p).start o c).Decided := by
  simp only [start, Core.updateInvoker]
  cases h : c.invokers.update id p o.now with
  | error f => exact decided_error ((c.invokers.isOwn_update _ _ _).error h)
  | ok r => exact decided_announce _ _

theorem grant_decided (id : InvokerId) (g : Grant) : ((grant id g).start o c).Decided :=
  decided_ofOutcome ((Outcome.isOwn_require _ _).bind fun _ => (c.store.isOwn_get _).bind fun _ =>
    (Outcome.isOwn_require _ _).bind fun _ => (c.invokers.isOwn_grant id g).bind fun _ =>
      Outcome.isOwn_ok _)

theorem revoke_decided (call : Call) : ((revoke call).start o c).Decided := by
  simp only [start, Core.revoke]
  cases h : call.validate with
  | error f => exact decided_error ((Outcome.isOwn_require _ _).error h)
  | ok u => exact decided_announce _ _

/-- A revocation of many grants asks nobody, whether it succeeds or fails part-way. -/
theorem revokeAccess_decided (id : InvokerId) (scope : RevocationScope) :
    ((revokeAccess id scope).start o c).Decided := by
  simp only [start, Core.revokeAccess]
  cases scope.isEmpty with
  | true => exact decided_error (Outcome.isOwn_invalid _)
  | false =>
    cases h : c.invokers.grantsMatching id scope with
    | error f => exact decided_error ((c.invokers.isOwn_grantsMatching id scope).error h)
    | ok grants =>
      have hown := Core.isOwn_revokeEach id o.now grants c.ledger
      cases h : Core.revokeEach id o.now grants c.ledger with
      | mk ledger outcome =>
        rw [h] at hown
        simp only [h, Bool.false_eq_true, if_false]
        cases outcome with
        | error f => exact decided_error (hown.error rfl)
        | ok u =>
          dsimp only
          split
          · exact ⟨.ok grants, rfl, Outcome.isOwn_ok _⟩
          · exact decided_announce _ _

/-- A command that one registry decides. -/
theorem decided_bind {α β : Type} {x : Outcome α} (hx : Outcome.IsOwn x) (g : α → β × Core) :
    (Flow.ofOutcome c (x >>= fun a => .ok (g a))).Decided :=
  decided_ofOutcome (hx.bind fun _ => Outcome.isOwn_ok _)

/-- A command is decided as it starts, or it hinges on its decisive call. -/
theorem start_decided_or_hinges (hc : c.store.WellFormed) (command : Command) (o : Occasion) :
    command.DecidedOrHinges o (command.start o c) := by
  cases command with
  | registerProvider r => exact .inl (decided_bind (c.providers.isOwn_register r o) _)
  | updateProvider id p => exact .inl (decided_bind (c.providers.isOwn_update id p o) _)
  | deregisterProvider id => exact .inl (deregisterProvider_decided id)
  | publish publisher d => exact publish_hinges publisher d
  | updateApi publisher id p => exact .inl (updateApi_decided publisher id p)
  | unpublish publisher id => exact unpublish_hinges hc publisher id
  | onboard e => exact onboard_hinges e
  | updateInvoker id p => exact .inl (updateInvoker_decided id p)
  | offboard id => exact offboard_hinges id
  | grant id g => exact .inl (grant_decided id g)
  | removeGrant id g => exact .inl (decided_bind (c.invokers.isOwn_removeGrant id g) _)
  | revoke call => exact .inl (revoke_decided call)
  | revokeAccess id scope => exact .inl (revokeAccess_decided id scope)
  | createContext id context => exact .inl (decided_bind (c.trusted.isOwn_create _ _ id context) _)
  | updateContext id context => exact .inl (decided_bind (c.trusted.isOwn_update _ id context) _)
  | subscribe subscriber s =>
    exact .inl (decided_bind (c.subscriptions.isOwn_subscribe subscriber s) _)
  | unsubscribe subscriber id =>
    exact .inl (decided_bind (c.subscriptions.isOwn_unsubscribe subscriber id) _)
  | ask q => exact .inl ⟨_, rfl, q.isOwn_answer c o.now⟩

/-- The decisive call is not among what a command still does when it has taken effect. -/
theorem decisive?_ne_of_sequel {command : Command} {report : Option Report} {c d : Core}
    {r : Outcome command.Result} {deeds : List Deed} (h : Sequel o command report c r d deeds) :
    ∀ deed ∈ deeds, command.decisive? o ≠ some (.ofDeed deed) := by
  intro deed hdeed
  cases h with
  | accessRevoked _ _ _ hd => exact fun he => nomatch he
  | removed _ => exact fun he => nomatch he
  | failed _ | unavailable _ _ | quiet _ _ | alreadyWithdrawn _ | alreadyOffboarded _
  | accessPartlyRevoked _ _ => cases hdeed
  | _ =>
    obtain rfl := List.mem_singleton.mp hdeed
    simp [decisive?, Contact.ofDeed]

/-- What is left of a command depends on no call: its result is decided and no outage, and the
decisive call is not among what it still does. -/
structure Free (command : Command) (o : Occasion) (f : Flow command.Result)
    (r : Outcome command.Result) (deeds : List Deed) : Prop where
  /-- The result is decided. -/
  settled : f.Settled r
  /-- It is no outage. -/
  isOwn : Outcome.IsOwn r
  /-- These are the deeds. -/
  does : f.Does deeds
  /-- The decisive call is not among them. -/
  indecisive : ∀ deed ∈ deeds, command.decisive? o ≠ some (.ofDeed deed)

/-- A command that has been decided depends on no call: what it still does is not decisive. -/
theorem Concludes.free {command : Command} {report : Option Report} {f : Flow command.Result}
    (h : command.Concludes o report c f) (hf : f.Decided) :
    ∃ r deeds, command.Free o f r deeds := by
  obtain ⟨r, deeds, hr, hdoes, hsequel⟩ := h
  obtain ⟨q, hq, hown⟩ := hf
  exact ⟨r, deeds, hr, hr.unique hq ▸ hown, hdoes, decisive?_ne_of_sequel hsequel⟩

/-- A command that is decided as it starts depends on no call. -/
theorem free_of_decided {command : Command} (h : (command.start o c).Decided) :
    ∃ r deeds, command.Free o (command.start o c) r deeds := by
  rcases command.start_concludes o c with hc | hasks
  · exact hc.free h
  · obtain ⟨r, hr, _⟩ := h
    exact absurd hr (hasks.unsettled r)

/-- A command that hinges on a call depends on no other when that one succeeds. -/
theorem free_of_hinges {command : Command} {contact : Contact} (hc : c.store.WellFormed)
    (h : (command.start o c).Hinges contact) {reply : Reply} (hreply : reply.isSuccess = true)
    {d : Core} {g : Flow command.Result} (hg : (command.start o c).resume reply d = some g) :
    ∃ r deeds, command.Free o g r deeds := by
  have hasks : (command.start o c).Asks c := by
    refine (command.start_concludes o c).resolve_left fun ⟨r, _, hr, _⟩ => ?_
    exact h.unsettled r hr
  refine (resume_concludes hc hasks hg).free ?_
  cases hf : command.start o c <;> rw [hf] at h hg <;> cases reply <;>
    simp only [Flow.resume, Option.some.injEq, reduceCtorEq] at hg
  all_goals subst hg
  next r =>
    cases r with
    | error outage => cases hreply
    | ok u => exact h.2.2 u d
  next r =>
    cases r with
    | error outage => cases hreply
    | ok credentials => exact h.2.2 credentials d
  · exact h.elim

/-- A command performed against a script: the registries, the result and the calls made. -/
def scripted (command : Command) (o : Occasion) (c : Core) (p : Script) :
    (Core × Outcome command.Result) × Contacts :=
  (command.start o c).perform (.scripted p) []

/-- A command that is settled as it starts does its deeds, however the calls go, and ends as it is
settled; others come in while it does them. -/
theorem scripted_of_settled {command : Command} {r : Outcome command.Result} {deeds : List Deed}
    (hr : (command.start o c).Settled r) (hdoes : (command.start o c).Does deeds) (p : Script) :
    (command.scripted o c p).1 = (p.during 0 deeds.length (command.start o c).state, r) ∧
      (command.scripted o c p).2.made = deeds.map Contact.ofDeed := by
  obtain ⟨hend, later, hlog, hmade⟩ := hr.perform_scripted hdoes p []
  refine ⟨hend, ?_⟩
  rw [scripted, hlog, List.nil_append, hmade]

/-- What depends on no call goes on the same under scripts that tell the same of others. -/
theorem Free.perform_eq {command : Command} {f : Flow command.Result}
    {r : Outcome command.Result} {deeds : List Deed} (h : command.Free o f r deeds)
    {p q : Script} (hpq : p.others = q.others) {log log' : Contacts} (hmade : log.made = log'.made) :
    (f.perform (.scripted p) log).1 = (f.perform (.scripted q) log').1 ∧
      (f.perform (.scripted p) log).2.made = (f.perform (.scripted q) log').2.made := by
  have hlength : log.length = log'.length := by
    simpa [Contacts.made] using congrArg List.length hmade
  obtain ⟨hp, lp, hlp, hmp⟩ := h.settled.perform_scripted h.does p log
  obtain ⟨hq, lq, hlq, hmq⟩ := h.settled.perform_scripted h.does q log'
  refine ⟨?_, ?_⟩
  · rw [hp, hq, hlength, Script.during_congr hpq]
  · rw [hlp, hlq, Contacts.made_append, Contacts.made_append, hmp, hmq, hmade]

/-- What depends on no call does not make the decisive one. -/
theorem Free.mem_log {command : Command} {f : Flow command.Result} {r : Outcome command.Result}
    {deeds : List Deed} (h : command.Free o f r deeds) (p : Script) (log : Contacts)
    {contact : Contact} {outage : Option Outage} (hd : command.decisive? o = some contact)
    (hmem : (contact, outage) ∈ (f.perform (.scripted p) log).2) : (contact, outage) ∈ log := by
  obtain ⟨_, later, hlog, hmade⟩ := h.settled.perform_scripted h.does p log
  rw [hlog] at hmem
  refine (List.mem_append.mp hmem).resolve_right fun hlater => ?_
  obtain ⟨deed, hdeed, rfl⟩ := List.mem_map.mp (hmade ▸ Contacts.mem_made hlater)
  exact h.indecisive deed hdeed hd

end Command

namespace System

open Command

variable {s : System}

/-- A command fails with an outage exactly when its decisive call was made and ended with it. -/
theorem unavailable_iff (hs : s.Seen) (command : Command) (o : Occasion) (p : Script)
    (outage : Outage) :
    (command.scripted o s.core p).1.2 = .error (.unavailable outage) ↔
      ∃ contact, command.decisive? o = some contact ∧
        (contact, some outage) ∈ (command.scripted o s.core p).2 := by
  have hc : s.core.store.WellFormed := hs.tracked_and_wellFormed.2
  rcases command.start_decided_or_hinges hc o with hdecided | ⟨contact, hd, hinges⟩
  · obtain ⟨r, deeds, hfree⟩ := free_of_decided hdecided
    have hresult := congrArg Prod.snd (hfree.settled.perform_scripted hfree.does p []).1
    constructor
    · exact fun h => absurd (hresult.symm.trans h) (hfree.isOwn outage)
    · rintro ⟨contact, hd, hmem⟩
      cases hfree.mem_log p [] hd hmem
  · obtain ⟨g, hg, hperform, hout⟩ := hinges.resume p []
    have hscripted : command.scripted o s.core p = _ := hperform
    cases hr : (p.reply ([] : Contacts).length contact).outage? with
    | some found =>
      rw [hscripted, hr, hout found hr]
      constructor
      · intro h
        obtain rfl : found = outage := by injection h with h; injection h
        exact ⟨contact, hd, List.mem_singleton.mpr rfl⟩
      · rintro ⟨other, hd', hmem⟩
        obtain ⟨-, h⟩ := Prod.mk.inj (List.mem_singleton.mp hmem)
        rw [Option.some.inj h]
        rfl
    | none =>
      obtain ⟨r, deeds, hfree⟩ := free_of_hinges hc hinges (Reply.outage?_eq_none_iff.mp hr) hg
      have hresult := congrArg Prod.snd (hfree.settled.perform_scripted hfree.does p
        ([] ++ [(contact, (p.reply ([] : Contacts).length contact).outage?)])).1
      rw [hscripted]
      constructor
      · exact fun h => absurd (hresult.symm.trans h) (hfree.isOwn outage)
      · rintro ⟨other, hd', hmem⟩
        obtain ⟨-, h⟩ := Prod.mk.inj (List.mem_singleton.mp (hfree.mem_log p _ hd' hmem))
        rw [hr] at h
        cases h

/-- Calls that are not decisive may go as they like: the registries and the result stay the same,
and so do the calls that are made. -/
theorem scripted_congr (hs : s.Seen) {command : Command} {o : Occasion} {p q : Script}
    (h : p.Agrees q command o) :
    (command.scripted o s.core p).1 = (command.scripted o s.core q).1 ∧
      (command.scripted o s.core p).2.made = (command.scripted o s.core q).2.made := by
  have hc : s.core.store.WellFormed := hs.tracked_and_wellFormed.2
  rcases command.start_decided_or_hinges hc o with hdecided | ⟨contact, hd, hinges⟩
  · obtain ⟨r, deeds, hfree⟩ := free_of_decided hdecided
    exact hfree.perform_eq h.others rfl
  · obtain ⟨g, hg, hp, hout⟩ := hinges.resume p []
    obtain ⟨g', hg', hq, _⟩ := hinges.resume q []
    have hreply := h.decisive ([] : Contacts).length contact hd
    rw [← hreply, ← h.others] at hg'
    obtain rfl : g = g' := Option.some.inj (hg.symm.trans hg')
    have hscripted : command.scripted o s.core p = _ := hp
    have hscripted' : command.scripted o s.core q = _ := hq
    rw [hscripted, hscripted', ← hreply]
    cases hr : (p.reply ([] : Contacts).length contact).outage? with
    | some outage =>
      rw [hout outage hr]
      exact ⟨rfl, rfl⟩
    | none =>
      obtain ⟨r, deeds, hfree⟩ := free_of_hinges hc hinges (Reply.outage?_eq_none_iff.mp hr) hg
      exact hfree.perform_eq h.others rfl

/-- A removal of a domain takes effect as it starts and makes every call of its cascade, however
the calls go. -/
theorem scripted_deregisterProvider {o : Occasion} {id : DomainId} {functions : List FunctionId}
    {providers : Providers} {c : Core}
    (h : c.providers.deregister id = .ok (functions, providers)) (p : Script) :
    ((deregisterProvider id).scripted o c p).1 =
        (p.during 0 (c.store.invalidate functions o.now).2.deeds.length
          { c with providers, store := (c.store.invalidate functions o.now).1 }, .ok functions) ∧
      ((deregisterProvider id).scripted o c p).2.made =
        (c.store.invalidate functions o.now).2.deeds.map Contact.ofDeed := by
  have hstart : (deregisterProvider id).start o c = Core.withdrawAll functions
      (c.store.invalidate functions o.now).2.updated (c.store.invalidate functions o.now).2.removed
      { c with providers, store := (c.store.invalidate functions o.now).1 } := by
    simp only [start, Core.deregisterProvider, h]
  obtain ⟨hstate, hsettled⟩ := settled_withdrawAll functions
    (c.store.invalidate functions o.now).2.updated (c.store.invalidate functions o.now).2.removed
    { c with providers, store := (c.store.invalidate functions o.now).1 }
  have hdoes := Flow.does_withdrawAll functions (c.store.invalidate functions o.now).2.updated
    (c.store.invalidate functions o.now).2.removed
    { c with providers, store := (c.store.invalidate functions o.now).1 }
  rw [← hstart] at hstate hsettled hdoes
  have hscripted := scripted_of_settled hsettled hdoes p
  rwa [hstate] at hscripted

/-- A removal of a domain makes every call of its cascade, however the calls go. -/
theorem made_deregisterProvider {o : Occasion} {id : DomainId} {functions : List FunctionId}
    {providers : Providers} {c : Core}
    (h : c.providers.deregister id = .ok (functions, providers)) (p : Script) :
    ((deregisterProvider id).scripted o c p).2.made =
      (c.store.invalidate functions o.now).2.deeds.map Contact.ofDeed :=
  (scripted_deregisterProvider h p).2

/-- Outages are classified and contained. In every state that may be seen, a command fails with
something worth a retry exactly when its decisive call was made and failed, and it fails with that
outage. Compared with any other performance in which others do the same and the decisive call goes
the same, registries, result and the calls made are the same. The removal of a domain makes every
call of its cascade. -/
theorem outages_contained (hs : s.Seen) (command : Command) (o : Occasion) (p : Script) :
    (∀ f, (command.scripted o s.core p).1.2 = .error f ∧ f.isRetryable = true ↔
      ∃ contact outage, command.decisive? o = some contact ∧
        (contact, some outage) ∈ (command.scripted o s.core p).2 ∧ f = .unavailable outage) ∧
    (∀ q : Script, p.Agrees q command o →
      (command.scripted o s.core p).1 = (command.scripted o s.core q).1 ∧
        (command.scripted o s.core p).2.made = (command.scripted o s.core q).2.made) ∧
    ∀ id functions providers, command = .deregisterProvider id →
      s.core.providers.deregister id = .ok (functions, providers) →
        (command.scripted o s.core p).2.made =
          (s.core.store.invalidate functions o.now).2.deeds.map Contact.ofDeed := by
  refine ⟨fun f => ⟨fun ⟨hf, hretry⟩ => ?_, ?_⟩, fun q hq => scripted_congr hs hq, ?_⟩
  · obtain ⟨outage, rfl⟩ := Failure.isRetryable_iff.mp hretry
    obtain ⟨contact, hd, hmem⟩ := (unavailable_iff hs command o p outage).mp hf
    exact ⟨contact, outage, hd, hmem, rfl⟩
  · rintro ⟨contact, outage, hd, hmem, rfl⟩
    exact ⟨(unavailable_iff hs command o p outage).mpr ⟨contact, hd, hmem⟩, rfl⟩
  · rintro id functions providers rfl h
    exact made_deregisterProvider h p

/-- A script by which all calls go well and nobody else does anything. -/
def sampleService : Script where
  errand _ _ := .ok ()
  client _ id := .ok ⟨id.text, "secret"⟩
  notice _ _ := .ok ()
  others _ c := c

/-- A script by which every call fails and nobody else does anything. -/
def sampleBreakdown : Script where
  errand _ _ := .error ⟨.deploymentAutomation, "down"⟩
  client _ _ := .error ⟨.identityProvider, "down"⟩
  notice _ _ := .error ⟨.eventNotification, "down"⟩
  others _ c := c

/-- The removal of the sample domain. -/
def sampleDeregistration : Command := .deregisterProvider (.generate "a")

/-- The sample domain goes with its API although the endpoint cannot be taken down and the event
sink takes nothing, and it goes as it would otherwise. -/
theorem outages_contained_sample :
    ∃ (s : System) (functions : List FunctionId), s.Seen ∧
      (sampleDeregistration.scripted (.lettered 'c' default) s.core sampleBreakdown).2.map Prod.snd =
        [some ⟨.deploymentAutomation, "down"⟩, some ⟨.eventNotification, "down"⟩] ∧
      sampleBreakdown.Agrees sampleService sampleDeregistration (.lettered 'c' default) ∧
      (sampleDeregistration.scripted (.lettered 'c' default) s.core sampleBreakdown).1.2 =
        .ok functions ∧
      (sampleDeregistration.scripted (.lettered 'c' default) s.core sampleBreakdown).1 =
        (sampleDeregistration.scripted (.lettered 'c' default) s.core sampleService).1 ∧
      (sampleDeregistration.scripted (.lettered 'c' default) s.core sampleBreakdown).2.made =
        (s.core.store.invalidate functions (Occasion.lettered 'c' default).now).2.deeds.map
          Contact.ofDeed := by
  let o := Occasion.lettered 'c' default
  have hrun : (fresh.run sampleSchedule).map (fun s =>
      ((s.core.providers.deregister (.generate "a")).map Prod.fst,
        (sampleDeregistration.scripted o s.core sampleBreakdown).1.2,
        (sampleDeregistration.scripted o s.core sampleBreakdown).2.map Prod.snd)) =
      some (.ok [samplePublisher, .generate .exposer "aaa"],
        .ok [samplePublisher, .generate .exposer "aaa"],
        [some ⟨.deploymentAutomation, "down"⟩, some ⟨.eventNotification, "down"⟩]) := rfl
  obtain ⟨s, hs, hend⟩ := Option.map_eq_some_iff.mp hrun
  obtain ⟨hremoved, hend⟩ := Prod.mk.inj hend
  obtain ⟨hresult, hcalls⟩ := Prod.mk.inj hend
  have hseen : s.Seen := seen_run hs
  have hagrees : sampleBreakdown.Agrees sampleService sampleDeregistration o :=
    ⟨rfl, fun _ _ h => nomatch h⟩
  obtain ⟨_, hcompared, hcascade⟩ := outages_contained hseen sampleDeregistration o sampleBreakdown
  cases hd : s.core.providers.deregister (.generate "a") with
  | error f =>
    rw [hd] at hremoved
    cases hremoved
  | ok r =>
    rw [hd] at hremoved
    obtain ⟨functions, providers⟩ := r
    obtain rfl : functions = [samplePublisher, .generate .exposer "aaa"] :=
      Except.ok.inj hremoved
    exact ⟨s, _, hseen, hcalls, hagrees, hresult, (hcompared sampleService hagrees).1,
      hcascade _ _ providers rfl hd⟩

end System

end ApiExposure
