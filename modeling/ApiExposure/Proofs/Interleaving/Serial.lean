import ApiExposure.Proofs.Authorization.Decision
import ApiExposure.Proofs.Interleaving.Frame
import ApiExposure.Proofs.Publications.Ownership

/-!
# No windows at calls to collaborators

A command that asks a collaborator first goes on in the state found then, and
ends there as if it had only started there: what it checked before is checked
again, what it looked up before is still its own, and a refusal has the same
words whether it comes before the call or after. A removal of a domain is over
before its first call. So in either case the commands have an order.
-/

namespace ApiExposure

namespace Command

variable {o : Occasion} {c d : Core} {reply : Reply}
variable {errand : Errand → Except Outage Unit}
variable {client : InvokerId → Except Outage ClientCredentials}

/-- A command that asks first leaves the state when it starts. -/
theorem state_start {command : Command} (h : command.asksFirst = true) (o : Occasion)
    (c : Core) : (command.start o c).state = c := by
  cases command <;> simp only [asksFirst, Bool.false_eq_true] at h
  case publish publisher d =>
    simp only [start, Core.publish]
    split <;> rfl
  case unpublish publisher id =>
    simp only [start, Core.unpublish]
    split <;> rfl
  case onboard e =>
    simp only [start, Core.onboard]
    split <;> rfl
  case offboard id =>
    simp only [start, Core.offboard]
    split <;> rfl

/-- By the reply to its first call the result of a command is decided. -/
theorem settled_of_resume_start {command : Command} {g : Flow command.Result}
    (hg : (command.start o c).resume reply d = some g) : ∃ r, g.Settled r := by
  rcases command.start_cases o c with ⟨r, hr, _⟩ | ⟨_, hw⟩
  · exact ⟨r, (hr.resume hg).2⟩
  · obtain ⟨r, hr, _⟩ := hw.resume reply d g hg
    exact ⟨r, hr⟩

/-- What is left of a command is what it does when it starts in the state found: it makes the
same call and goes on in the same way, or it makes none and fails as it does now. -/
def SameAlone (command : Command) (o : Occasion) (d : Core) (s : Flow.Surroundings Id)
    (reply : Reply) (g : Flow command.Result) : Prop :=
  ((command.start o d).replyIn s = some reply ∧ (command.start o d).resume reply d = some g) ∨
    ∃ f, command.start o d = .done d (.error f) ∧ g.Settled (.error f) ∧ g.state = d

/-- Then it ends as the command does alone. -/
theorem SameAlone.perform {command : Command} {g : Flow command.Result}
    {r : Outcome command.Result}
    (h : command.SameAlone o d (.quiet errand client) reply g) (hr : g.Settled r)
    (hd : (command.start o d).state = d) :
    (command.start o d).perform (.quiet errand client) = (g.state, r) := by
  rcases h with ⟨hreply, hg⟩ | ⟨f, hstart, hf, hstate⟩
  · have hnext : (command.start o d).resume reply (command.start o d).state = some g := by
      rw [hd, hg]
    rw [Flow.perform_of_resume hreply hnext, hr.perform]
  · rw [hstart, hstate, hr.unique hf]
    rfl

/-- The call of a flow was an errand that was done. -/
theorem errand_ok_of_reply {α : Type} {e : Errand} {next : Except Outage Unit → Core → Flow α}
    (hreply : (Flow.errand c e next).replyIn (.quiet errand client) = some reply)
    (hsuccess : reply.isSuccess = true) : reply = .errand (.ok ()) := by
  obtain rfl := Option.some.inj hreply
  change (errand e).isOk = true at hsuccess
  change Reply.errand (errand e) = _
  cases h : errand e with
  | error outage =>
    rw [h] at hsuccess
    cases hsuccess
  | ok u => rfl

/-- A publication whose endpoint is provided enters the API, or fails, as it would in the state that
it finds then. Its checks are made again. -/
theorem publish_sameAlone {publisher : FunctionId} {description : ApiDescription}
    {g : Flow PublishedApi}
    (hreply : ((publish publisher description).start o c).replyIn (.quiet errand client) =
      some reply)
    (hsuccess : reply.isSuccess = true)
    (hg : ((publish publisher description).start o c).resume reply d = some g) :
    (publish publisher description).SameAlone o d (.quiet errand client) reply g := by
  simp only [start, Core.publish] at hreply hg
  cases hc : c.store.validate c.providers publisher description with
  | error f =>
    rw [hc] at hg
    cases hg
  | ok u =>
    rw [hc] at hreply hg
    obtain rfl := errand_ok_of_reply hreply hsuccess
    simp only [SameAlone, start, Core.publish]
    cases hd : d.store.validate d.providers publisher description with
    | ok u => exact .inl ⟨hreply, hg⟩
    | error f =>
      have hrefused : d.store.publishAs d.providers (.generate (o.suffix 0)) publisher
          description o.now = .error f := by
        rw [Publications.publishAs, hd]
        rfl
      simp only [Flow.resume, hrefused, Option.some.injEq] at hg
      subst hg
      exact .inr ⟨f, rfl, fun _ _ => ⟨rfl, rfl⟩, rfl⟩

/-- A withdrawal whose endpoint is removed takes the API out as it would in the state that it finds
then, since no API changes hands. -/
theorem unpublish_sameAlone {publisher : FunctionId} {id : ApiId} {g : Flow Unit}
    (hc : c.store.WellFormed) (hd : d.store.WellFormed)
    (howned : ∀ id a b, c.store.apis.get? id = some a → d.store.apis.get? id = some b →
      b.publisher = a.publisher)
    (hreply : ((unpublish publisher id).start o c).replyIn (.quiet errand client) = some reply)
    (hsuccess : reply.isSuccess = true)
    (hg : ((unpublish publisher id).start o c).resume reply d = some g) :
    (unpublish publisher id).SameAlone o d (.quiet errand client) reply g := by
  simp only [start, Core.unpublish] at hreply hg
  cases hheld : c.store.getFor publisher id with
  | error f =>
    rw [hheld] at hg
    cases hg
  | ok a =>
    obtain ⟨ha, hpublisher⟩ := Publications.getFor_eq_ok_iff.mp hheld
    rw [hheld] at hreply hg
    obtain rfl := errand_ok_of_reply hreply hsuccess
    simp only [SameAlone, start, Core.unpublish]
    cases hb : d.store.apis.get? id with
    | some b =>
      have hsame : d.store.getFor publisher id = .ok b :=
        Publications.getFor_eq_ok_iff.mpr ⟨hb, (howned id a b ha hb).trans hpublisher⟩
      have hid : b.id = a.id := (hd id b hb).own.trans (hc id a ha).own.symm
      rw [hsame]
      refine .inl ⟨?_, hg⟩
      dsimp only
      rw [hid]
      exact hreply
    | none =>
      have hmissing : d.store.getFor publisher id = .error (.notFound (.api id)) := by
        rw [Publications.getFor, hb]
      have hgone : d.store.unpublish id = .error (.notFound (.api id)) := by
        rw [Publications.unpublish, Publications.remove, hb]
        rfl
      simp only [Flow.resume, hgone, Option.some.injEq] at hg
      subst hg
      rw [hmissing]
      exact .inr ⟨_, rfl, rfl, rfl⟩

/-- An onboarding that has a client enters the invoker with the grants that the state offers then.
-/
theorem onboard_sameAlone {e : Enrolment} {g : Flow OnboardedInvoker}
    (hreply : ((onboard e).start o c).replyIn (.quiet errand client) = some reply)
    (hg : ((onboard e).start o c).resume reply d = some g) :
    (onboard e).SameAlone o d (.quiet errand client) reply g := by
  simp only [start, Core.onboard] at hreply hg
  simp only [SameAlone, start, Core.onboard]
  cases he : e.validate with
  | error f =>
    rw [he] at hg
    cases hg
  | ok u =>
    rw [he] at hreply hg
    obtain rfl := Option.some.inj hreply
    exact .inl ⟨rfl, hg⟩

/-- An offboarding whose client is removed takes the invoker out if it is still there. -/
theorem offboard_sameAlone {id : InvokerId} {g : Flow Unit}
    (hreply : ((offboard id).start o c).replyIn (.quiet errand client) = some reply)
    (hsuccess : reply.isSuccess = true)
    (hg : ((offboard id).start o c).resume reply d = some g) :
    (offboard id).SameAlone o d (.quiet errand client) reply g := by
  simp only [start, Core.offboard] at hreply hg
  cases hheld : c.invokers.contains id with
  | false =>
    rw [hheld] at hg
    cases hg
  | true =>
    rw [hheld, if_pos rfl] at hreply hg
    obtain rfl := errand_ok_of_reply hreply hsuccess
    simp only [SameAlone, start, Core.offboard]
    cases hd : d.invokers.contains id with
    | true => exact .inl ⟨hreply, hg⟩
    | false =>
      have hgone : d.invokers.deregister id = .error (.notFound (.invoker id)) := by
        have hnone : d.invokers.table.get? id = none := by
          simpa [Invokers.contains, Table.contains] using hd
        rw [Invokers.deregister, Invokers.get, hnone]
        rfl
      simp only [Flow.resume, hgone, Option.some.injEq] at hg
      subst hg
      exact .inr ⟨_, rfl, rfl, rfl⟩

/-- Every command that asks first ends after a successful call as if it had started in the state
found, provided that no API has changed hands. -/
theorem sameAlone {command : Command} {g : Flow command.Result} (hc : c.store.WellFormed)
    (hd : d.store.WellFormed)
    (howned : ∀ id a b, c.store.apis.get? id = some a → d.store.apis.get? id = some b →
      b.publisher = a.publisher)
    (hasks : command.asksFirst = true)
    (hreply : (command.start o c).replyIn (.quiet errand client) = some reply)
    (hsuccess : reply.isSuccess = true)
    (hg : (command.start o c).resume reply d = some g) :
    command.SameAlone o d (.quiet errand client) reply g := by
  cases command <;> simp only [asksFirst, Bool.false_eq_true] at hasks
  case publish => exact publish_sameAlone hreply hsuccess hg
  case unpublish => exact unpublish_sameAlone hc hd howned hreply hsuccess hg
  case onboard => exact onboard_sameAlone hreply hg
  case offboard => exact offboard_sameAlone hreply hsuccess hg

end Command

namespace System

/-- The command under a ticket has taken effect with a result. -/
def HasResult (s : System) (t : Ticket) (command : Command) (o : Occasion)
    (r : Outcome command.Result) : Prop :=
  ∃ f, s.jobs t = some ⟨command, o, f⟩ ∧ f.Settled r

variable {past ms : List Move} {s u : System} {t : Ticket} {command : Command} {o : Occasion}

/-- While a command waits, others do what they do without it, and it stands as it began. -/
theorem run_while_waiting {v : System} (hasks : command.asksFirst = true)
    (hms : ∀ m ∈ ms, m.ticket ≠ t) (h : s.run (.start t command o :: ms) = some v) :
    v.jobs t = some ⟨command, o, command.start o s.core⟩ ∧
      ∃ w, s.run ms = some w ∧ AgreeOff t v w := by
  obtain ⟨first, hfirst, hrest⟩ := run_cons_eq_some.mp h
  obtain ⟨_, rfl⟩ := step_start.mp hfirst
  refine ⟨?_, (agreeOff_advance (Command.state_start hasks o s.core)).run hms hrest⟩
  rw [jobs_run_of_ne hrest hms, jobs_advance_self]

/-- A command that asks first, with what others do during a successful call, does the same as the
command alone after the others. -/
theorem serial_of_asksFirst (hf : FreshIds (past ++ .start t command o :: ms))
    (hpast : fresh.run past = some s) {errand : Errand → Except Outage Unit}
    {client : InvokerId → Except Outage ClientCredentials} {reply : Reply}
    (hasks : command.asksFirst = true) (hms : ∀ m ∈ ms, m.ticket ≠ t)
    (hreply : (command.start o s.core).replyIn (.quiet errand client) = some reply)
    (hsuccess : reply.isSuccess = true)
    (h : s.run (.start t command o :: ms ++ [.resume t reply]) = some u) :
    ∃ v r, s.run ms = some v ∧ (∀ k, k ≠ t → u.jobs k = v.jobs k) ∧ u.HasResult t command o r ∧
      (command.start o v.core).perform (.quiet errand client) = (u.core, r) := by
  obtain ⟨w, hw, hresume⟩ := run_concat_eq_some.mp h
  obtain ⟨j, g, hj, hg, rfl⟩ := step_resume.mp hresume
  obtain ⟨hjob, v, hv, hagree⟩ := run_while_waiting hasks hms hw
  obtain rfl : j = ⟨command, o, command.start o s.core⟩ := Option.some.inj (hj.symm.trans hjob)
  obtain ⟨r, hr⟩ := Command.settled_of_resume_start hg
  have hwell := wellFormed_run hpast
  have hwell' : w.core.store.WellFormed :=
    wellFormed_run (run_append_eq_some.mpr ⟨s, hpast, hw⟩)
  have howned : ∀ id a b, s.core.store.apis.get? id = some a →
      w.core.store.apis.get? id = some b → b.publisher = a.publisher :=
    fun id a b ha hb => publisher_eq_of_run hf hpast hw ha hb
  have halone := Command.sameAlone hwell hwell' howned hasks hreply hsuccess hg
  refine ⟨v, r, hv, fun k hk => ?_, ⟨g, jobs_advance_self _ _ _, hr⟩, ?_⟩
  · rw [jobs_advance_of_ne _ _ hk, hagree.jobs k hk]
  · rw [hagree.core]
    exact halone.perform hr (Command.state_start hasks o w.core)

/-- What others do during the calls of a removal they can as well do after it. -/
theorem serial_of_deregisterProvider {id : DomainId}
    (h : s.run (.start t (.deregisterProvider id) o :: ms) = some u)
    (errand : Errand → Except Outage Unit) (client : InvokerId → Except Outage ClientCredentials) :
    ∃ c r v, (Command.start o s.core (.deregisterProvider id)).perform (.quiet errand client) =
        (c, r) ∧
      (s.advance t ⟨.deregisterProvider id, o, .done c r⟩).run
        (ms.filter (fun m => m.ticket ≠ t)) = some v ∧
      u.core = v.core ∧ (∀ k, k ≠ t → u.jobs k = v.jobs k) ∧
      u.HasResult t (.deregisterProvider id) o r := by
  obtain ⟨first, hfirst, hrest⟩ := run_cons_eq_some.mp h
  obtain ⟨_, rfl⟩ := step_start.mp hfirst
  obtain ⟨r, hr, _⟩ := Command.deregisterProvider_takesEffect (o := o) (c := s.core) id
  have hagree : AgreeOff t
      (s.advance t ⟨.deregisterProvider id, o, Command.start o s.core (.deregisterProvider id)⟩)
      (s.advance t ⟨.deregisterProvider id, o,
        .done (Command.start o s.core (.deregisterProvider id)).state r⟩) :=
    ⟨rfl, fun k hk => by rw [jobs_advance_of_ne _ _ hk, jobs_advance_of_ne _ _ hk]⟩
  obtain ⟨v, f, hv, hend, hj, hf⟩ :=
    hagree.run_filter (jobs_advance_self _ _ _) hr hrest
  exact ⟨_, r, v, hr.perform errand client, hv, hend.core.symm,
    fun k hk => (hend.jobs k hk).symm, f, hj, hf⟩

/-- Calls to collaborators open no windows. A command that asks first, with whatever others do
during its successful call, has the result and leaves the registries of the command performed
alone after the others. A removal of a domain, with whatever others do during its calls, has the
result and leaves the registries of the others run after the removal performed alone. -/
theorem calls_open_no_window (hf : FreshIds (past ++ .start t command o :: ms))
    (hpast : fresh.run past = some s) (errand : Errand → Except Outage Unit)
    (client : InvokerId → Except Outage ClientCredentials) :
    (∀ reply u, command.asksFirst = true → (∀ m ∈ ms, m.ticket ≠ t) →
      (command.start o s.core).replyIn (.quiet errand client) = some reply →
      reply.isSuccess = true →
      s.run (.start t command o :: ms ++ [.resume t reply]) = some u →
      ∃ v r, s.run ms = some v ∧ (∀ k, k ≠ t → u.jobs k = v.jobs k) ∧
        u.HasResult t command o r ∧
        (command.start o v.core).perform (.quiet errand client) = (u.core, r)) ∧
    ∀ id u, command = .deregisterProvider id → s.run (.start t command o :: ms) = some u →
      ∃ c r v, (command.start o s.core).perform (.quiet errand client) = (c, r) ∧
        (s.advance t ⟨command, o, .done c r⟩).run (ms.filter (fun m => m.ticket ≠ t)) = some v ∧
        u.core = v.core ∧ (∀ k, k ≠ t → u.jobs k = v.jobs k) ∧ u.HasResult t command o r := by
  refine ⟨fun reply u hasks hms hreply hsuccess h => ?_, fun id u hcommand h => ?_⟩
  · exact serial_of_asksFirst hf hpast hasks hms hreply hsuccess h
  · subst hcommand
    exact serial_of_deregisterProvider h errand client

/-- The sample domain is registered. -/
def sampleRegistration : List Move := [
  .start 0 (.registerProvider sampleDomain) (.lettered 'a' default)]

/-- The sample domain is removed. -/
def sampleRemoval : Command := .deregisterProvider (.generate "a")

/-- The publication of the sample API. -/
def samplePublication : Command := .publish samplePublisher sampleApi

/-- During the publication of the sample API the domain is removed, as if it had been removed
before; and during the removal of the domain a decision is asked for, as if it were asked for
afterwards. -/
theorem calls_open_no_window_sample :
    (∃ s u v r, fresh.run sampleRegistration = some s ∧
      s.run [.start 1 samplePublication (.lettered 'b' default),
        .start 2 sampleRemoval (.lettered 'c' default), .resume 1 (.errand (.ok ()))] = some u ∧
      s.run [.start 2 sampleRemoval (.lettered 'c' default)] = some v ∧
      u.HasResult 1 samplePublication (.lettered 'b' default) r ∧
      (samplePublication.start (.lettered 'b' default) v.core).perform
        (.quiet (fun _ => .ok ()) (fun _ => .ok ⟨"client", "secret"⟩)) = (u.core, r)) ∧
    ∃ s u c r v, fresh.run sampleSchedule = some s ∧
      s.run [.start 2 sampleRemoval (.lettered 'c' default),
        .start 3 (.ask (.decision sampleCall)) (.lettered 'd' default),
        .resume 2 (.errand (.ok ()))] = some u ∧
      (s.advance 2 ⟨sampleRemoval, .lettered 'c' default, .done c r⟩).run
        [.start 3 (.ask (.decision sampleCall)) (.lettered 'd' default)] = some v ∧
      u.core = v.core ∧ u.HasResult 2 sampleRemoval (.lettered 'c' default) r := by
  constructor
  · have hf : FreshIds (sampleRegistration ++
        .start 1 samplePublication (.lettered 'b' default) ::
          [.start 2 sampleRemoval (.lettered 'c' default)]) :=
      .of_letters ['a', 'b', 'c'] (by decide) rfl
    have hrun : ((fresh.run sampleRegistration).bind (fun s => s.run [
        .start 1 samplePublication (.lettered 'b' default),
        .start 2 sampleRemoval (.lettered 'c' default),
        .resume 1 (.errand (.ok ()))])).isSome = true := by decide
    have hreply : (fresh.run sampleRegistration).map (fun s =>
        (samplePublication.start (.lettered 'b' default) s.core).replyIn
          (.quiet (fun _ => .ok ()) (fun _ => .ok ⟨"client", "secret"⟩))) =
        some (some (.errand (.ok ()))) := rfl
    obtain ⟨u, h⟩ := Option.isSome_iff_exists.mp hrun
    obtain ⟨s, hs, hu⟩ := Option.bind_eq_some_iff.mp h
    rw [hs] at hreply
    obtain ⟨v, r, hv, _, hr, hperform⟩ := (calls_open_no_window hf hs _ _).1 _ u rfl
      (by decide) (Option.some.inj hreply) rfl hu
    exact ⟨s, u, v, r, hs, hu, hv, hr, hperform⟩
  · have hf : FreshIds (sampleSchedule ++ .start 2 sampleRemoval (.lettered 'c' default) :: [
        .start 3 (.ask (.decision sampleCall)) (.lettered 'd' default),
        .resume 2 (.errand (.ok ()))]) :=
      .of_letters ['a', 'b', 'c', 'd'] (by decide) rfl
    have hrun : ((fresh.run sampleSchedule).bind (fun s => s.run [
        .start 2 sampleRemoval (.lettered 'c' default),
        .start 3 (.ask (.decision sampleCall)) (.lettered 'd' default),
        .resume 2 (.errand (.ok ()))])).isSome = true := by decide
    obtain ⟨u, h⟩ := Option.isSome_iff_exists.mp hrun
    obtain ⟨s, hs, hu⟩ := Option.bind_eq_some_iff.mp h
    obtain ⟨c, r, v, _, hv, hcore, _, hr⟩ := (calls_open_no_window hf hs (fun _ => .ok ())
      (fun _ => .ok ⟨"client", "secret"⟩)).2 (.generate "a") u rfl hu
    exact ⟨s, u, c, r, v, hs, hu, hv, hcore, hr⟩

end System

end ApiExposure
