import ApiExposure.Proofs.Interleaving.Serial
import ApiExposure.Proofs.Invokers.Offboarding

/-!
# What is asked of the identity provider

An onboarding asks for the client of a new invoker, and an offboarding has the
client of an invoker removed that was onboarded when it began. Either asks once,
before it takes effect, and who comes or goes is decided by the reply. A removal
of the client of an invoker that is refused is never asked for: with fresh
identifiers no invoker is refused once it has a client. All other commands ask
nothing, and nobody comes or goes by them.
-/

namespace ApiExposure

/-- What is asked of the identity provider. -/
inductive Inquiry where
  /-- A client for a new invoker. -/
  | register (id : InvokerId)
  /-- The removal of a client. -/
  | remove (id : InvokerId)

/-- What an errand asks of the identity provider. -/
def Errand.inquiry? : Errand → Option Inquiry
  | removeClient id => some (.remove id)
  | _ => none

/-- No errand asks for a client. -/
theorem Errand.inquiry?_ne_register (e : Errand) (id : InvokerId) :
    e.inquiry? ≠ some (.register id) := by
  cases e <;> simp [inquiry?]

/-- What a deed asks of it. -/
def Deed.inquiry? (d : Deed) : Option Inquiry := d.errand?.bind Errand.inquiry?

namespace Flow

variable {α : Type} {f g : Flow α} {deeds : List Deed} {c : Core} {reply : Reply}

/-- What a flow asks of the identity provider. -/
def inquiry? : Flow α → Option Inquiry
  | register _ id _ => some (.register id)
  | errand _ e _ => e.inquiry?
  | _ => none

/-- A flow asks what its first deed asks. -/
theorem Does.inquiry?_eq (h : f.Does deeds) : f.inquiry? = deeds.head?.bind Deed.inquiry? := by
  cases f with
  | done _ _ =>
    cases h
    rfl
  | register _ _ _ => exact h.elim
  | errand _ _ _ | announce _ _ _ =>
    obtain ⟨left, rfl, _⟩ := h
    rfl

/-- An ended flow asks nothing. -/
theorem inquiry?_of_hasEnded (hf : f.hasEnded = true) : f.inquiry? = none := by
  cases f with
  | done _ _ => rfl
  | _ => cases hf

/-- A flow does deeds of which none has to do with the identity provider. -/
def Aloof (f : Flow α) : Prop := ∃ deeds, f.Does deeds ∧ ∀ d ∈ deeds, d.inquiry? = none

namespace Aloof

/-- A flow that is aloof asks the identity provider nothing. -/
theorem inquiry? (h : f.Aloof) : f.inquiry? = none := by
  obtain ⟨deeds, hdoes, hnone⟩ := h
  rw [hdoes.inquiry?_eq]
  cases deeds with
  | nil => rfl
  | cons d left => exact hnone d List.mem_cons_self

/-- A flow that is aloof stays so. -/
theorem resume (h : f.Aloof) (hg : f.resume reply c = some g) : g.Aloof := by
  obtain ⟨deeds, hdoes, hnone⟩ := h
  obtain ⟨_, left, rfl, hleft, _⟩ := hdoes.resume hg
  exact ⟨left, hleft, fun d hd => hnone d (List.mem_cons_of_mem _ hd)⟩

end Aloof

theorem aloof_done (s : Core) (r : Outcome α) : (done s r).Aloof :=
  ⟨[], rfl, fun _ hd => nomatch hd⟩

/-- Who asks for a client goes on with credentials or an outage. -/
theorem reply_of_register {id : InvokerId} (hq : f.inquiry? = some (.register id))
    (hg : f.resume reply c = some g) : ∃ r, reply = .client r := by
  cases f with
  | register _ _ _ =>
    cases reply with
    | client r => exact ⟨r, rfl⟩
    | _ => cases hg
  | errand _ e _ => exact absurd hq (e.inquiry?_ne_register id)
  | _ => cases hq

/-- Who asks for a removal goes on with its outcome. -/
theorem reply_of_remove {id : InvokerId} (hq : f.inquiry? = some (.remove id))
    (hg : f.resume reply c = some g) : ∃ r, reply = .errand r := by
  cases f with
  | errand _ _ _ =>
    cases reply with
    | errand r => exact ⟨r, rfl⟩
    | _ => cases hg
  | _ => cases hq

end Flow

/-- Only an invoker that is refused has its client removed by a command that has taken effect. -/
theorem Sequel.aloof {o : Occasion} {command : Command} {report : Option Report} {c d : Core}
    {r : Outcome command.Result} {deeds : List Deed} (h : Sequel o command report c r d deeds)
    (hcommand : ∀ e, command ≠ .onboard e) : ∀ x ∈ deeds, x.inquiry? = none := by
  cases h with
  | removed h =>
    rintro (e | change) hx
    · obtain ⟨a, _, rfl⟩ := Cascade.errand_mem_deeds.mp hx
      rfl
    · rfl
  | turnedAway f => exact absurd rfl (hcommand _)
  | accessRevoked hs hg h hd =>
    subst hd
    split
    · exact fun _ hx => nomatch hx
    · exact List.forall_mem_singleton.mpr rfl
  | takenBack _ | published _ | patched _ | withdrawn _ | onboarded _ | invokerUpdated _
  | offboarded _ | callRevoked _ => exact List.forall_mem_singleton.mpr rfl
  | _ => exact fun _ hx => nomatch hx

namespace Command

variable {command : Command} {o : Occasion} {c d : Core} {id : InvokerId}

/-- What a command asks of the identity provider if it comes to that. -/
def inquiry? (o : Occasion) : Command → Option Inquiry
  | onboard _ => some (.register (.generate (o.suffix 0)))
  | offboard id => some (.remove id)
  | _ => none

/-- Only an onboarding registers a client, under the identifier that it generates. -/
theorem inquiry?_eq_register_iff : command.inquiry? o = some (.register id) ↔
    (∃ e, command = .onboard e) ∧ id = .generate (o.suffix 0) := by
  cases command <;> simp [inquiry?, eq_comm]

/-- Only an offboarding begins with the removal of a client. -/
theorem inquiry?_eq_remove_iff :
    command.inquiry? o = some (.remove id) ↔ command = .offboard id := by
  cases command <;> simp [inquiry?]

/-- What is left of a command asks nothing more, and nobody comes or goes by it. -/
structure Aside (command : Command) (c : Core) (f : Flow command.Result) : Prop where
  /-- The command has taken effect. -/
  settled : ∃ r, f.Settled r
  /-- It asks nothing more. -/
  aloof : f.Aloof
  /-- The same invokers are onboarded. -/
  same : ∀ id, f.state.invokers.table.get? id ≠ none ↔ c.invokers.table.get? id ≠ none

/-- A command that fails where it starts is of no concern to the identity provider. -/
theorem aside_failed (f : Failure) : command.Aside c (.done c (.error f)) :=
  ⟨⟨_, rfl⟩, Flow.aloof_done _ _, fun _ => Iff.rfl⟩

/-- Nor is the conclusion of a command that asks nothing. -/
theorem Concludes.aside {report : Option Report} {f : Flow command.Result}
    (h : command.Concludes o report c f) (hcommand : command.inquiry? o = none) :
    command.Aside c f := by
  have honboard : ∀ e, command ≠ .onboard e := by
    rintro e rfl
    cases hcommand
  have hoffboard : ∀ id, command ≠ .offboard id := by
    rintro id rfl
    cases hcommand
  obtain ⟨r, deeds, hr, hdoes, hsequel⟩ := h
  refine ⟨⟨r, hr⟩, ⟨deeds, hdoes, hsequel.aloof honboard⟩, fun id => ?_⟩
  simp [hsequel.effect.enrolled_iff, honboard, hoffboard]

/-- A command takes effect without the identity provider, or asks first; whose client it wants
removed is onboarded then. -/
theorem start_aside_or_asks (command : Command) (o : Occasion) (c : Core) :
    command.Aside c (command.start o c) ∨ (command.start o c).Asks c ∧
      ∀ id, command = .offboard id → c.invokers.table.get? id ≠ none := by
  have hasks := command.start_concludes o c
  cases command with
  | onboard e =>
    cases he : e.validate with
    | error f =>
      simp only [start, Core.onboard, he]
      exact .inl (aside_failed f)
    | ok u =>
      refine .inr ⟨hasks.resolve_left ?_, fun id h => by cases h⟩
      rintro ⟨r, deeds, _, hdoes, _⟩
      simp only [start, Core.onboard, he] at hdoes
      exact hdoes
  | offboard id =>
    cases hid : c.invokers.contains id with
    | false =>
      simp only [start, Core.offboard, hid, Bool.false_eq_true, if_false]
      exact .inl (aside_failed _)
    | true =>
      refine .inr ⟨?_, fun k h => ?_⟩
      · simp only [start, Core.offboard, hid, if_true]
        exact Flow.asks_errand fun _ _ => rfl
      · cases h
        exact Invokers.contains_eq_true_iff.mp hid
  | _ => exact hasks.imp (fun h => h.aside rfl) fun h => ⟨h, fun id hid => by cases hid⟩

/-- A command that waits asks a collaborator first. -/
theorem asksFirst_of_asks (h : (command.start o c).Asks c) : command.asksFirst = true := by
  rcases start_cases command o c with ⟨r, hr, _⟩ | ⟨_, hwaits⟩
  · exact absurd hr (h.unsettled r)
  · exact hwaits.asksFirst

/-- A command that waits asks what such a command asks. -/
theorem inquiry?_start (h : (command.start o c).Asks c) :
    (command.start o c).inquiry? = command.inquiry? o := by
  have hfirst := asksFirst_of_asks h
  cases command with
  | publish publisher d =>
    simp only [start, Core.publish] at h ⊢
    cases hv : c.store.validate c.providers publisher d with
    | error f => exact absurd rfl ((hv ▸ h).unsettled (.error f))
    | ok u => rfl
  | unpublish publisher id =>
    simp only [start, Core.unpublish] at h ⊢
    cases hv : c.store.getFor publisher id with
    | error f => exact absurd rfl ((hv ▸ h).unsettled (.error f))
    | ok a => rfl
  | onboard e =>
    simp only [start, Core.onboard] at h ⊢
    cases hv : e.validate with
    | error f => exact absurd rfl ((hv ▸ h).unsettled (.error f))
    | ok u => rfl
  | offboard id =>
    simp only [start, Core.offboard] at h ⊢
    cases hv : c.invokers.contains id with
    | false => exact absurd rfl ((hv ▸ h).unsettled (.error (.notFound (.invoker id))))
    | true => rfl
  | _ => cases hfirst

/-- An onboarding that hears of an outage fails. -/
theorem onboard_resume_error {e : Enrolment} {outage : Outage} {g : Flow OnboardedInvoker}
    (hg : ((onboard e).start o c).resume (.client (.error outage)) d = some g) :
    g = .done d (.error (.unavailable outage)) := by
  simp only [start, Core.onboard] at hg
  cases hv : e.validate with
  | error f =>
    rw [hv] at hg
    cases hg
  | ok u =>
    rw [hv] at hg
    exact (Option.some.inj hg).symm

/-- An onboarding that has a client enters the invoker, if nobody has its identifier. -/
theorem onboard_resume_ok {e : Enrolment} {credentials : ClientCredentials}
    {g : Flow OnboardedInvoker} (hnew : d.invokers.table.get? (.generate (o.suffix 0)) = none)
    (hg : ((onboard e).start o c).resume (.client (.ok credentials)) d = some g) :
    ∃ identity, identity.id = .generate (o.suffix 0) ∧ g.Settled (.ok ⟨identity, credentials⟩) ∧
      g.Aloof ∧ ∀ k, g.state.invokers.table.get? k ≠ none ↔
        d.invokers.table.get? k ≠ none ∨ k = .generate (o.suffix 0) := by
  have hcontains : d.invokers.contains (.generate (o.suffix 0)) = false :=
    Table.contains_eq_false_iff.mpr hnew
  simp only [start, Core.onboard] at hg
  cases hv : e.validate with
  | error f =>
    rw [hv] at hg
    cases hg
  | ok u =>
    simp only [hv, Flow.resume, Invokers.onboardAs, hcontains, bind, Except.bind,
      Bool.false_eq_true, if_false, Option.some.injEq] at hg
    subst hg
    refine ⟨_, ?_, fun _ => ⟨rfl, rfl⟩, ⟨_, Flow.does_announce _ _ _, ?_⟩, fun k => ?_⟩
    · rw [InvokerIdentity.foldl_addGrant_eq]
      rfl
    · exact List.forall_mem_singleton.mpr rfl
    · exact Table.get?_insert_ne_none_iff

/-- An offboarding that goes on takes its invoker out if the client is removed, and nobody
otherwise. -/
theorem offboard_resume {r : Except Outage Unit} {g : Flow Unit} (hc : c.store.WellFormed)
    (hasks : ((offboard id).start o c).Asks c)
    (hg : ((offboard id).start o c).resume (.errand r) d = some g) :
    (∃ q, g.Settled q) ∧ g.Aloof ∧ ∀ k, g.state.invokers.table.get? k ≠ none ↔
      d.invokers.table.get? k ≠ none ∧ ¬ (k = id ∧ r.isOk = true) := by
  have hreport : ((offboard id).start o c).report? (.errand r) =
      some ⟨.removeClient id, r.isOk⟩ := by
    simp only [start, Core.offboard] at hasks ⊢
    cases hv : c.invokers.contains id with
    | false => exact absurd rfl ((hv ▸ hasks).unsettled (.error (.notFound (.invoker id))))
    | true => rfl
  obtain ⟨q, deeds, hq, hdoes, hsequel⟩ := resume_concludes hc hasks hg
  refine ⟨⟨q, hq⟩, ⟨deeds, hdoes, hsequel.aloof fun e h => by cases h⟩, fun k => ?_⟩
  rw [hreport] at hsequel
  generalize g.state = after at hsequel
  generalize r.isOk = done at hsequel
  cases hsequel with
  | unavailable _ _ => simp
  | offboarded h =>
    obtain ⟨_, rfl⟩ := Invokers.of_deregister_eq_ok h
    dsimp only
    rw [Table.get?_erase_ne_none_iff]
    simp
  | alreadyOffboarded h =>
    refine (and_iff_left_of_imp ?_).symm
    rintro hk ⟨rfl, _⟩
    exact hk h

end Command

/-- A job that waits asks what its command asks. -/
theorem Job.Pends.inquiry? {j : Job} (h : j.Pends) :
    j.flow.inquiry? = j.command.inquiry? j.occasion := by
  obtain ⟨c, _, hflow, hasks⟩ := h
  rw [hflow] at hasks ⊢
  exact Command.inquiry?_start hasks

namespace System

variable {s u : System} {m : Move} {t k : Ticket} {id : InvokerId} {j : Job} {q : Inquiry}

/-- What the command of a ticket asks of the identity provider. -/
def inquiry? (s : System) (t : Ticket) : Option Inquiry := (s.jobs t).bind (·.flow.inquiry?)

/-- The inquiry of a ticket is that of its command. -/
theorem inquiry?_of_job (h : s.jobs t = some j) : s.inquiry? t = j.flow.inquiry? := by
  rw [inquiry?, h, Option.bind_some]

/-- A move leaves what other commands ask. -/
theorem inquiry?_step_of_ne (h : s.step m = some u) (ht : t ≠ m.ticket) :
    u.inquiry? t = s.inquiry? t := by
  rw [inquiry?, jobs_step_of_ne h ht, inquiry?]

/-- Where no command is in progress nothing is asked. -/
theorem Idle.inquiry? (h : s.Idle) (t : Ticket) : s.inquiry? t = none := by
  cases hj : s.jobs t with
  | none => rw [System.inquiry?, hj, Option.bind_none]
  | some j => rw [inquiry?_of_job hj, Flow.inquiry?_of_hasEnded (h t j hj)]

/-- An invoker is onboarded. -/
def Onboarded (s : System) (id : InvokerId) : Prop := s.core.invokers.table.get? id ≠ none

/-- Every job has taken effect and asks nothing more, or waits as it began. -/
def Unburdened (s : System) : Prop :=
  ∀ t j, s.jobs t = some j → (j.IsSettled ∧ j.flow.Aloof) ∨ j.Pends

/-- A command that takes effect and asks nothing more, or waits as it began, adds no burden. -/
theorem Unburdened.advance (hs : s.Unburdened) (hj : (j.IsSettled ∧ j.flow.Aloof) ∨ j.Pends) :
    (s.advance t j).Unburdened := by
  intro k i hi
  rw [jobs_advance] at hi
  split at hi
  · cases hi
    exact hj
  · exact hs k i hi

/-- Who asks waits for the reply. -/
theorem Unburdened.exists_job (hs : s.Unburdened) (hq : s.inquiry? t = some q) :
    ∃ j, s.jobs t = some j ∧ j.Pends ∧ j.command.inquiry? j.occasion = some q := by
  obtain ⟨j, hj, hflow⟩ := Option.bind_eq_some_iff.mp hq
  rcases hs t j hj with ⟨_, haloof⟩ | hpends
  · rw [haloof.inquiry?] at hflow
    cases hflow
  · exact ⟨j, hj, hpends, hpends.inquiry?.symm.trans hflow⟩

/-- The identifier of a new invoker is not spent while its client is asked for. -/
theorem Unburdened.not_spent (hs : s.Unburdened) (ho : s.Orderly)
    (hq : s.inquiry? t = some (.register id)) : ¬ s.InvokerSpent id := by
  rintro ⟨suffix, hused, hid⟩
  obtain ⟨j, hj, hpends, hasked⟩ := hs.exists_job hq
  obtain ⟨_, hnew⟩ := Command.inquiry?_eq_register_iff.mp hasked
  obtain rfl : suffix = j.occasion.suffix 0 :=
    InvokerId.generate_injective (hid.symm.trans hnew)
  exact ho.not_used hj hpends.unsettled hused

/-- It is asked for once. -/
theorem Unburdened.register_unique (hs : s.Unburdened) (ho : s.Orderly)
    (ht : s.inquiry? t = some (.register id)) (hk : s.inquiry? k = some (.register id)) :
    k = t := by
  obtain ⟨i, hi, _, hi'⟩ := hs.exists_job ht
  obtain ⟨j, hj, _, hj'⟩ := hs.exists_job hk
  have hsuffix := InvokerId.generate_injective
    ((Command.inquiry?_eq_register_iff.mp hj').2.symm.trans
      (Command.inquiry?_eq_register_iff.mp hi').2)
  by_contra hne
  exact ho.apart k t j i hne hj hi 0 0 hsuffix

/-- A result once reached stays. -/
theorem HasResult.step {command : Command} {o : Occasion} {r : Outcome command.Result}
    (hr : s.HasResult t command o r) (h : s.step m = some u) : u.HasResult t command o r := by
  obtain ⟨f, hj, hf⟩ := hr
  by_cases ht : t = m.ticket
  · subst ht
    cases m with
    | start k _ _ => cases (step_start.mp h).1.symm.trans hj
    | resume k reply =>
      obtain ⟨i, g, hi, hg, rfl⟩ := step_resume.mp h
      obtain rfl := Option.some.inj (hi.symm.trans hj)
      exact ⟨g, jobs_advance_self _ _ _, (hf.resume hg).2⟩
  · exact ⟨f, (jobs_step_of_ne h ht).trans hj, hf⟩

/-- A result was there before a move or is decided by it. -/
theorem HasResult.of_step {command : Command} {o : Occasion} {r : Outcome command.Result}
    (hr : u.HasResult t command o r) (h : s.step m = some u) :
    s.HasResult t command o r ∨ ∃ f, s.Settles m u ⟨command, o, f⟩ r := by
  obtain ⟨f, hj, hf⟩ := hr
  by_cases ht : t = m.ticket
  · subst ht
    by_cases hsettled : ∃ i, s.jobs m.ticket = some i ∧ i.IsSettled
    · obtain ⟨i, hi, q, hq⟩ := hsettled
      cases m with
      | start k _ _ => cases (step_start.mp h).1.symm.trans hi
      | resume k reply =>
        obtain ⟨_, g, hi', hg, rfl⟩ := step_resume.mp h
        obtain rfl := Option.some.inj (hi.symm.trans hi')
        rw [Move.ticket, jobs_advance_self] at hj
        cases hj
        exact .inl ⟨i.flow, hi, (hq.resume hg).2.unique hf ▸ hq⟩
    · exact .inr ⟨f, h, hj, hf, fun i hi hi' => hsettled ⟨i, hi, hi'⟩⟩
  · exact .inl ⟨f, (jobs_step_of_ne h ht).symm.trans hj, hf⟩

/-- Every result comes with an effect. -/
theorem HasResult.effect {ms : List Move} {command : Command} {o : Occasion}
    {r : Outcome command.Result} (hr : s.HasResult t command o r)
    (h : fresh.run ms = some s) : ∃ c d, Effect o command c r d := by
  refine run_induction (P := fun _ s => s.HasResult t command o r → ∃ c d, Effect o command c r d)
    (fun hr => ?_) (fun ms m s u hrun ih hm hr => ?_) h hr
  · obtain ⟨_, hj, _⟩ := hr
    cases hj
  · rcases hr.of_step hm with hr | ⟨f, hsettles⟩
    · exact ih hr
    · exact ⟨_, _, hsettles.effect (tracked_run hrun)⟩

/-- What a move is to the identity provider, and who comes and goes by it. -/
inductive Dealing (s : System) (m : Move) (u : System) : Prop
  /-- The command asked nothing; whose client it now wants removed is onboarded. -/
  | aside (before : s.inquiry? m.ticket = none) (same : ∀ id, u.Onboarded id ↔ s.Onboarded id)
      (held : ∀ id, u.inquiry? m.ticket = some (.remove id) → s.Onboarded id)
  /-- The command hears of an outage. -/
  | refused {q : Inquiry} (before : s.inquiry? m.ticket = some q)
      (reply : ∃ outage, m = .resume m.ticket (.client (.error outage)) ∨
        m = .resume m.ticket (.errand (.error outage)))
      (after : u.inquiry? m.ticket = none) (same : ∀ id, u.Onboarded id ↔ s.Onboarded id)
  /-- A new invoker is entered and told its credentials. -/
  | enters {id : InvokerId} {credentials : ClientCredentials} {e : Enrolment} {o : Occasion}
      {identity : InvokerIdentity} (before : s.inquiry? m.ticket = some (.register id))
      (reply : m = .resume m.ticket (.client (.ok credentials)))
      (after : u.inquiry? m.ticket = none) (named : identity.id = id)
      (result : u.HasResult m.ticket (.onboard e) o (.ok ⟨identity, credentials⟩))
      (more : ∀ k, u.Onboarded k ↔ s.Onboarded k ∨ k = id)
  /-- An invoker without client is taken out. -/
  | leaves {id : InvokerId} (before : s.inquiry? m.ticket = some (.remove id))
      (reply : m = .resume m.ticket (.errand (.ok ())))
      (after : u.inquiry? m.ticket = none)
      (fewer : ∀ k, u.Onboarded k ↔ s.Onboarded k ∧ k ≠ id)

/-- What is known of inquiries where identifiers are fresh. -/
structure Inquiring (s : System) : Prop where
  /-- The state may be seen. -/
  seen : s.Seen
  /-- No two commands share a suffix. -/
  orderly : s.Orderly
  /-- Who is onboarded has an identifier that is spent. -/
  spent : s.InvokersSpent
  /-- What has taken effect asks nothing more. -/
  unburdened : s.Unburdened
  /-- Whose client is to be removed has been onboarded once. -/
  leavers : ∀ t id, s.inquiry? t = some (.remove id) → s.InvokerSpent id

/-- A command that stands aside. -/
theorem Unburdened.dealing_of_aside (hs : s.Unburdened) (ht : m.ticket = t)
    (before : s.inquiry? t = none) (h : j.command.Aside s.core j.flow) :
    (s.advance t j).Unburdened ∧ s.Dealing m (s.advance t j) := by
  subst ht
  refine ⟨hs.advance (.inl ⟨h.settled, h.aloof⟩), .aside before h.same fun id hid => ?_⟩
  rw [inquiry?_of_job (jobs_advance_self _ _ _), h.aloof.inquiry?] at hid
  cases hid

/-- A command that begins to wait. -/
theorem Unburdened.dealing_of_asks (hs : s.Unburdened) (ht : m.ticket = t)
    (before : s.inquiry? t = none) (hwell : s.core.store.WellFormed) {command : Command}
    {o : Occasion} (hasks : (command.start o s.core).Asks s.core)
    (hheld : ∀ id, command = .offboard id → s.Onboarded id) :
    (s.advance t ⟨command, o, command.start o s.core⟩).Unburdened ∧
      s.Dealing m (s.advance t ⟨command, o, command.start o s.core⟩) := by
  subst ht
  have hpends : Job.Pends ⟨command, o, command.start o s.core⟩ := ⟨s.core, hwell, rfl, hasks⟩
  refine ⟨hs.advance (.inr hpends), .aside before (fun id => ?_) fun id hid => ?_⟩
  · rw [Onboarded, System.advance, hasks.state, Onboarded]
  · rw [inquiry?_of_job (jobs_advance_self _ _ _), hpends.inquiry?] at hid
    exact hheld id (Command.inquiry?_eq_remove_iff.mp hid)

variable {o : Occasion} {c : Core} {reply : Reply}

/-- An onboarding that hears of its client. Nobody has its identifier, so it is not refused. -/
theorem Inquiring.dealing_of_onboard (hs : s.Inquiring) {e : Enrolment} {f : Flow OnboardedInvoker}
    (before : s.inquiry? t = some (.register (.generate (o.suffix 0))))
    (hasked : ((Command.onboard e).start o c).inquiry? =
      some (.register (.generate (o.suffix 0))))
    (hf : ((Command.onboard e).start o c).resume reply s.core = some f) :
    (s.advance t ⟨.onboard e, o, f⟩).Unburdened ∧
      s.Dealing (.resume t reply) (s.advance t ⟨.onboard e, o, f⟩) := by
  have hj := jobs_advance_self s t ⟨.onboard e, o, f⟩
  have hnew : s.core.invokers.table.get? (.generate (o.suffix 0)) = none := by
    by_contra hheld
    exact hs.unburdened.not_spent hs.orderly before (hs.spent _ hheld)
  obtain ⟨r, rfl⟩ := Flow.reply_of_register hasked hf
  cases r with
  | error outage =>
    obtain rfl := Command.onboard_resume_error hf
    have haloof := Flow.aloof_done (α := OnboardedInvoker) s.core (.error (.unavailable outage))
    exact ⟨hs.unburdened.advance (.inl ⟨⟨_, rfl⟩, haloof⟩),
      .refused before ⟨outage, .inl rfl⟩ ((inquiry?_of_job hj).trans haloof.inquiry?)
        fun _ => Iff.rfl⟩
  | ok credentials =>
    obtain ⟨identity, hid, hr, haloof, hmore⟩ := Command.onboard_resume_ok hnew hf
    exact ⟨hs.unburdened.advance (.inl ⟨⟨_, hr⟩, haloof⟩),
      .enters before rfl ((inquiry?_of_job hj).trans haloof.inquiry?) hid ⟨f, hj, hr⟩ hmore⟩

/-- An offboarding that hears of the removal. -/
theorem Unburdened.dealing_of_offboard (hs : s.Unburdened) {f : Flow Unit}
    (before : s.inquiry? t = some (.remove id)) (hwell : c.store.WellFormed)
    (hasks : ((Command.offboard id).start o c).Asks c)
    (hf : ((Command.offboard id).start o c).resume reply s.core = some f) :
    (s.advance t ⟨.offboard id, o, f⟩).Unburdened ∧
      s.Dealing (.resume t reply) (s.advance t ⟨.offboard id, o, f⟩) := by
  have hj := jobs_advance_self s t ⟨.offboard id, o, f⟩
  obtain ⟨r, rfl⟩ := Flow.reply_of_remove (Command.inquiry?_start hasks) hf
  obtain ⟨hsettled, haloof, hfewer⟩ := Command.offboard_resume hwell hasks hf
  refine ⟨hs.advance (.inl ⟨hsettled, haloof⟩), ?_⟩
  have hafter := (inquiry?_of_job hj).trans haloof.inquiry?
  cases r with
  | error outage =>
    refine .refused before ⟨outage, .inr rfl⟩ hafter fun k => ?_
    exact (hfewer k).trans (and_iff_left fun h => nomatch h.2)
  | ok done =>
    refine .leaves before rfl hafter fun k => ?_
    exact (hfewer k).trans (and_congr_right fun _ => not_congr (and_iff_left rfl))

/-- With fresh identifiers no invoker is refused once it has a client, so every move deals with the
identity provider in one of these ways. -/
theorem Inquiring.dealing (hs : s.Inquiring) (h : s.step m = some u) :
    u.Unburdened ∧ s.Dealing m u := by
  cases m with
  | start t command o =>
    obtain ⟨hnone, rfl⟩ := step_start.mp h
    have before : s.inquiry? t = none := by rw [inquiry?, hnone, Option.bind_none]
    rcases command.start_aside_or_asks o s.core with haside | ⟨hasks, hheld⟩
    · exact hs.unburdened.dealing_of_aside rfl before haside
    · exact hs.unburdened.dealing_of_asks (m := .start t command o) rfl before
        hs.seen.tracked_and_wellFormed.2 hasks hheld
  | resume t reply =>
    obtain ⟨⟨command, o, flow⟩, f, hi, hf, rfl⟩ := step_resume.mp h
    rcases hs.unburdened t _ hi with ⟨⟨r, hr⟩, haloof⟩ | hpends
    · obtain ⟨hstate, hr'⟩ := hr.resume hf
      have haside : command.Aside s.core f :=
        ⟨⟨r, hr'⟩, haloof.resume hf, fun _ => by rw [hstate]⟩
      exact hs.unburdened.dealing_of_aside rfl ((inquiry?_of_job hi).trans haloof.inquiry?) haside
    · have hasked : flow.inquiry? = command.inquiry? o := hpends.inquiry?
      have before : s.inquiry? t = command.inquiry? o := (inquiry?_of_job hi).trans hasked
      obtain ⟨c, hwell, hflow, hasks⟩ := hpends
      obtain rfl : flow = command.start o c := hflow
      cases command with
      | onboard e => exact hs.dealing_of_onboard before hasked hf
      | offboard id => exact hs.unburdened.dealing_of_offboard before hwell hasks hf
      | _ =>
        exact hs.unburdened.dealing_of_aside rfl before
          ((Command.resume_concludes (o := o) hwell hasks hf).aside rfl)

theorem inquiring_fresh : fresh.Inquiring where
  seen := .fresh
  orderly := orderly_fresh
  spent _ h := absurd rfl h
  unburdened _ _ h := nomatch h
  leavers _ _ h := nomatch h

/-- With fresh identifiers every move keeps what is known of inquiries. -/
theorem Inquiring.step (hs : s.Inquiring) (hm : s.Admits m) (h : s.step m = some u) :
    u.Inquiring where
  seen := hs.seen.step h
  orderly := hs.orderly.step hm h
  spent := hs.spent.pass hs.seen (.move h)
  unburdened := (hs.dealing h).1
  leavers := by
    intro t id hid
    by_cases ht : t = m.ticket
    · subst ht
      refine InvokerSpent.step ?_ h
      cases (hs.dealing h).2 with
      | aside _ _ held => exact hs.spent id (held id hid)
      | refused _ _ after _ | enters _ _ after _ _ _ | leaves _ _ after _ =>
        cases after.symm.trans hid
    · exact (hs.leavers t id ((inquiry?_step_of_ne h ht).symm.trans hid)).step h

/-- So it is along every run with fresh identifiers. -/
theorem inquiring_run {ms : List Move} (hf : FreshIds ms) (h : fresh.run ms = some s) :
    s.Inquiring :=
  fresh_run_induction (P := fun _ s => s.Inquiring) inquiring_fresh
    (fun _ _ _ _ _ _ hm hs hstep => hs.step hm hstep) hf h

end System

end ApiExposure
