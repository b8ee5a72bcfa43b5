import ApiExposure.Proofs.Invokers.Attended

/-!
# The clients of onboarded invokers

The client of an invoker is issued before the invoker is entered, and removed before
it is taken out, while other commands go on, another offboarding among them. So for
a while there is a client whose invoker is still to come, or an invoker whose client
has gone. Nothing else is amiss in between, and when no command is in progress there
are clients for exactly the onboarded invokers, each with the secret that the
onboarding returned.
-/

namespace ApiExposure

namespace Inquiry

/-- Whose client an inquiry is about. -/
def invoker : Inquiry → InvokerId
  | register id | remove id => id

/-- A reply says that the inquiry was granted, and the clients are accordingly. -/
def Granted (c : Clients) (reply : Reply) : Inquiry → Prop
  | register id =>
    ∃ credentials, reply = .client (.ok credentials) ∧ c.table.get? id = some credentials
  | remove id => reply = .errand (.ok ()) ∧ c.table.get? id = none

/-- Whether it is so depends on the one client only. -/
theorem Granted.congr {c d : Clients} {reply : Reply} {q : Inquiry} (h : q.Granted c reply)
    (hclient : d.table.get? q.invoker = c.table.get? q.invoker) : q.Granted d reply := by
  cases q with
  | register id =>
    obtain ⟨credentials, hreply, hheld⟩ := h
    exact ⟨credentials, hreply, hclient.trans hheld⟩
  | remove id => exact ⟨h.1, hclient.trans h.2⟩

end Inquiry

namespace System

variable {s u : System} {m : Move} {t k : Ticket} {id : InvokerId}

/-- An onboarding has returned credentials to an invoker. -/
def Returned (s : System) (id : InvokerId) (credentials : ClientCredentials) : Prop :=
  ∃ t e o identity,
    s.HasResult t (.onboard e) o (.ok ⟨identity, credentials⟩) ∧ identity.id = id

/-- Credentials once returned stay returned. -/
theorem Returned.step {credentials : ClientCredentials} (hs : s.Returned id credentials)
    (h : s.step m = some u) : u.Returned id credentials := by
  obtain ⟨t, e, o, identity, hresult, hid⟩ := hs
  exact ⟨t, e, o, identity, hresult.step h, hid⟩

/-- No invoker is returned credentials twice. -/
theorem Returned.unique {ms : List Move} {first second : ClientCredentials}
    (h : fresh.run ms = some s) (ho : s.Orderly) (hfirst : s.Returned id first)
    (hsecond : s.Returned id second) : first = second := by
  have hnamed : ∀ {t e o identity credentials},
      s.HasResult t (.onboard e) o (.ok ⟨identity, credentials⟩) →
        identity.id = .generate (o.suffix 0) := by
    intro t e o identity credentials hresult
    obtain ⟨_, _, heffect⟩ := hresult.effect h
    exact heffect.id_of_onboard
  obtain ⟨t, e, o, identity, hresult, hid⟩ := hfirst
  obtain ⟨k, e', o', identity', hresult', hid'⟩ := hsecond
  have hsuffix : o.suffix 0 = o'.suffix 0 := InvokerId.generate_injective
    ((hnamed hresult).symm.trans ((hid.trans hid'.symm).trans (hnamed hresult')))
  obtain ⟨f, hj, hf⟩ := hresult
  obtain ⟨g, hj', hg⟩ := hresult'
  obtain rfl : k = t := by
    by_contra hne
    exact ho.apart t k _ _ (Ne.symm hne) hj hj' 0 0 hsuffix
  cases hj.symm.trans hj'
  cases hf.unique hg
  rfl

/-- A new invoker is not onboarded while its client is asked for. -/
theorem Inquiring.not_onboarded (hs : s.Inquiring)
    (ht : s.inquiry? t = some (.register id)) : ¬ s.Onboarded id :=
  fun h => hs.unburdened.not_spent hs.orderly ht (hs.spent id h)

/-- No other inquiry is about it. -/
theorem Inquiring.invoker_ne (hs : s.Inquiring) (ht : s.inquiry? t = some (.register id))
    (hkt : k ≠ t) {q : Inquiry} (hk : s.inquiry? k = some q) : q.invoker ≠ id := by
  rintro rfl
  cases q with
  | register id => exact hkt (hs.unburdened.register_unique hs.orderly ht hk)
  | remove id => exact hs.unburdened.not_spent hs.orderly ht (hs.leavers k id hk)

/-- A command by which somebody comes or goes. -/
inductive Engaged (s : System) (t : Ticket) : Prop
  /-- It is an offboarding. -/
  | offboards {j : Job} {id : InvokerId} (job : s.jobs t = some j)
      (command : j.command = .offboard id)
  /-- It is an onboarding that asks for a client. -/
  | asks {id : InvokerId} (asked : s.inquiry? t = some (.register id))
  /-- It is an onboarding that has succeeded. -/
  | onboards {e : Enrolment} {o : Occasion} {a : OnboardedInvoker}
      (result : s.HasResult t (.onboard e) o (.ok a))

/-- A command that is neither an onboarding nor an offboarding, or is an onboarding that has
failed. -/
inductive Bystands (s : System) (t : Ticket) : Prop
  /-- It is another command. -/
  | other {j : Job} (job : s.jobs t = some j) (onboards : ∀ e, j.command ≠ .onboard e)
      (offboards : ∀ id, j.command ≠ .offboard id)
  /-- The onboarding has failed. -/
  | failed {e : Enrolment} {o : Occasion} {f : Failure}
      (result : s.HasResult t (.onboard e) o (.error f))

/-- Who asks the identity provider is engaged. -/
theorem Inquiring.engaged (hs : s.Inquiring) {q : Inquiry} (hq : s.inquiry? t = some q) :
    s.Engaged t := by
  cases q with
  | register id => exact .asks hq
  | remove id =>
    obtain ⟨j, hj, _, hasked⟩ := hs.unburdened.exists_job hq
    exact .offboards hj (Command.inquiry?_eq_remove_iff.mp hasked)

/-- No bystander is engaged. -/
theorem Engaged.not_bystands (hs : s.Inquiring) (he : s.Engaged t) : ¬ s.Bystands t := by
  intro hb
  cases he with
  | @offboards j id job command =>
    cases hb with
    | other job' _ offboards =>
      obtain rfl := Option.some.inj (job.symm.trans job')
      exact offboards id command
    | failed result =>
      obtain ⟨_, job', _⟩ := result
      obtain rfl := Option.some.inj (job.symm.trans job')
      cases command
  | asks asked =>
    obtain ⟨j, hj, hpends, hasked⟩ := hs.unburdened.exists_job asked
    cases hb with
    | other job onboards _ =>
      obtain rfl := Option.some.inj (hj.symm.trans job)
      obtain ⟨⟨e, he⟩, _⟩ := Command.inquiry?_eq_register_iff.mp hasked
      exact onboards e he
    | failed result =>
      obtain ⟨_, job, hr⟩ := result
      obtain rfl := Option.some.inj (hj.symm.trans job)
      exact hpends.unsettled ⟨_, hr⟩
  | @onboards e o a result =>
    obtain ⟨f, hj, hr⟩ := result
    cases hb with
    | other job onboards _ =>
      obtain rfl := Option.some.inj (hj.symm.trans job)
      exact onboards e rfl
    | failed result =>
      obtain ⟨_, hj', hr'⟩ := result
      cases hj.symm.trans hj'
      cases hr.unique hr'

end System

namespace Attended

variable {a b c : Attended} {x : Act} {xs : List Act} {t : Ticket} {id : InvokerId}

/-- How an invoker and its client stand to each other. -/
inductive Standing (a : Attended) (id : InvokerId) : Prop
  /-- There is neither. -/
  | outside (client : a.clients.table.get? id = none) (absent : ¬ a.system.Onboarded id)
  /-- The client has been issued, and the onboarding has not heard of it. -/
  | coming {t : Ticket} (asked : a.system.inquiry? t = some (.register id))
      (served : a.replies t ≠ none)
  /-- The client is the one that came with the onboarding. -/
  | inside {credentials : ClientCredentials}
      (client : a.clients.table.get? id = some credentials) (onboarded : a.system.Onboarded id)
      (returned : a.system.Returned id credentials)
  /-- The client has been removed, and some offboarding has not heard of it. -/
  | leaving {t : Ticket} (client : a.clients.table.get? id = none)
      (onboarded : a.system.Onboarded id) (asked : a.system.inquiry? t = some (.remove id))

/-- Every reply on its way is true of the clients, and every identifier has a standing. -/
structure Agrees (a : Attended) : Prop where
  /-- Replies are true. -/
  granted : ∀ t reply, a.replies t = some reply →
    ∃ q, a.system.inquiry? t = some q ∧ q.Granted a.clients reply
  /-- Invokers have a standing. -/
  standing : ∀ id, a.Standing id

/-- What an act does to clients, replies and invokers. -/
inductive Happens (a : Attended) (x : Act) (b : Attended) : Prop
  /-- A command goes on without the identity provider. -/
  | aside (asks : a.system.inquiry? x.ticket = none) (clients : b.clients = a.clients)
      (replies : b.replies = a.replies)
      (same : ∀ id, b.system.Onboarded id ↔ a.system.Onboarded id)
  /-- A client is issued. -/
  | issues {id : InvokerId} {credentials : ClientCredentials}
      (asks : a.system.inquiry? x.ticket = some (.register id)) (system : b.system = a.system)
      (clients : b.clients = ⟨a.clients.table.insert id credentials⟩)
      (replies : b.replies =
        Function.update a.replies x.ticket (some (.client (.ok credentials))))
  /-- A client is removed. -/
  | removes {id : InvokerId} (asks : a.system.inquiry? x.ticket = some (.remove id))
      (system : b.system = a.system)
      (clients : b.clients = a.clients.remove id)
      (replies : b.replies = Function.update a.replies x.ticket (some (.errand (.ok ()))))
  /-- An onboarding hears of the client. -/
  | enters {id : InvokerId} {credentials : ClientCredentials} {e : Enrolment} {o : Occasion}
      {identity : InvokerIdentity} (asks : a.system.inquiry? x.ticket = some (.register id))
      (client : a.clients.table.get? id = some credentials) (clients : b.clients = a.clients)
      (replies : b.replies = Function.update a.replies x.ticket none)
      (named : identity.id = id)
      (result : b.system.HasResult x.ticket (.onboard e) o (.ok ⟨identity, credentials⟩))
      (more : ∀ k, b.system.Onboarded k ↔ a.system.Onboarded k ∨ k = id)
  /-- An offboarding hears of the removal. -/
  | leaves {id : InvokerId} (asks : a.system.inquiry? x.ticket = some (.remove id))
      (client : a.clients.table.get? id = none) (clients : b.clients = a.clients)
      (replies : b.replies = Function.update a.replies x.ticket none)
      (fewer : ∀ k, b.system.Onboarded k ↔ a.system.Onboarded k ∧ k ≠ id)

/-- A new invoker has no client before its onboarding is served. -/
theorem Agrees.unissued (ha : a.Agrees) (hs : a.system.Inquiring)
    (ht : a.system.inquiry? t = some (.register id)) (hreply : a.replies t = none) :
    a.clients.table.get? id = none := by
  cases ha.standing id with
  | outside client _ => exact client
  | coming asked served =>
    obtain rfl := hs.unburdened.register_unique hs.orderly ht asked
    exact absurd hreply served
  | inside _ onboarded _ => exact absurd onboarded (hs.not_onboarded ht)
  | leaving client _ _ => exact client

/-- Every act is one of these. -/
theorem Agrees.happens (ha : a.Agrees) (hs : a.system.Inquiring) (h : a.step x = some b) :
    a.Happens x b := by
  cases x with
  | core m =>
    obtain ⟨hnone, _, hm, rfl⟩ := step_core.mp h
    cases (hs.dealing hm).2 with
    | aside _ same _ => exact .aside hnone rfl rfl same
    | refused before _ _ _ | enters before _ _ _ _ _ | leaves before _ _ _ =>
      cases hnone.symm.trans before
  | serve t secret =>
    obtain ⟨q, hq, hreply, rfl⟩ := step_serve.mp h
    cases q with
    | register id =>
      rw [Inquiry.serve_register (ha.unissued hs hq hreply)]
      exact .issues hq rfl rfl rfl
    | remove id => exact .removes hq rfl rfl rfl
  | deliver t =>
    obtain ⟨reply, hreply, _, hm, rfl⟩ := step_deliver.mp h
    obtain ⟨q, hq, hgranted⟩ := ha.granted t reply hreply
    cases (hs.dealing hm).2 with
    | aside before _ _ => cases hq.symm.trans before
    | refused _ hrefused _ _ =>
      obtain ⟨outage, hrefused | hrefused⟩ := hrefused <;> cases hrefused <;> cases q <;>
        simp [Inquiry.Granted] at hgranted
    | enters before heard _ named result more =>
      cases heard
      obtain rfl := Option.some.inj (hq.symm.trans before)
      obtain ⟨_, heq, hclient⟩ := hgranted
      cases heq
      exact .enters hq hclient rfl rfl named result more
    | leaves before _ _ fewer =>
      obtain rfl := Option.some.inj (hq.symm.trans before)
      exact .leaves hq hgranted.2 rfl rfl fewer

/-- Credentials once returned stay returned, whatever the identity provider does. -/
theorem returned_step {credentials : ClientCredentials} (h : a.step x = some b)
    (hreturned : a.system.Returned id credentials) : b.system.Returned id credentials := by
  rcases system_step h with hsame | ⟨_, _, hstep⟩
  · rwa [hsame]
  · exact hreturned.step hstep

namespace Happens

/-- An act that is not about an invoker leaves the invoker and its client. -/
theorem of_ne (hx : a.Happens x b)
    (hother : ∀ q, a.system.inquiry? x.ticket = some q → id ≠ q.invoker) :
    b.clients.table.get? id = a.clients.table.get? id ∧
      (b.system.Onboarded id ↔ a.system.Onboarded id) := by
  cases hx with
  | aside _ clients _ same => exact ⟨by rw [clients], same id⟩
  | @issues k _ asks system clients _ =>
    have hid : id ≠ k := hother _ asks
    exact ⟨by rw [clients, Table.get?_insert_of_ne _ _ hid], by rw [system]⟩
  | @removes k asks system clients _ =>
    have hid : id ≠ k := hother _ asks
    exact ⟨by simp [clients, Clients.remove, hid], by rw [system]⟩
  | @enters k _ _ _ _ asks _ clients _ _ _ more =>
    have hid : id ≠ k := hother _ asks
    exact ⟨by rw [clients], (more id).trans (or_iff_left hid)⟩
  | leaves asks _ clients _ fewer =>
    exact ⟨by rw [clients], (fewer id).trans (and_iff_left (hother _ asks))⟩

/-- Replies to others stay on their way. -/
theorem replies_of_ne (hx : a.Happens x b) (ht : t ≠ x.ticket) : b.replies t = a.replies t := by
  cases hx with
  | aside _ _ replies _ => rw [replies]
  | issues _ _ _ replies | removes _ _ _ replies | enters _ _ _ replies _ _ _
  | leaves _ _ _ replies _ => rw [replies, Function.update_of_ne ht]

/-- They stay true: nobody else asks about a new invoker, and a client that has been removed does
not come back. -/
theorem granted_of_ne (hx : a.Happens x b) (hs : a.system.Inquiring) (ht : t ≠ x.ticket)
    {q : Inquiry} {reply : Reply} (hq : a.system.inquiry? t = some q)
    (h : q.Granted a.clients reply) : q.Granted b.clients reply := by
  by_cases hother : ∀ p, a.system.inquiry? x.ticket = some p → q.invoker ≠ p.invoker
  · exact h.congr (hx.of_ne hother).1
  · push Not at hother
    obtain ⟨p, hp, hsame⟩ := hother
    cases q with
    | register id => exact absurd hsame.symm (hs.invoker_ne hq (Ne.symm ht) hp)
    | remove id =>
      cases p with
      | register k => exact absurd hsame (hs.invoker_ne hp ht hq)
      | remove k =>
        obtain rfl : id = k := hsame
        refine ⟨h.1, ?_⟩
        cases hx with
        | aside asks _ _ _ => cases asks.symm.trans hp
        | issues asks _ _ _ | enters asks _ _ _ _ _ _ => cases asks.symm.trans hp
        | removes asks _ clients _ =>
          cases asks.symm.trans hp
          simp [clients, Clients.remove]
        | leaves _ _ clients _ _ => exact clients ▸ h.2

/-- A reply that the act has brought about is true. -/
theorem granted_self (hx : a.Happens x b) (ha : a.Agrees) {reply : Reply}
    (hreply : b.replies x.ticket = some reply) :
    ∃ q, b.system.inquiry? x.ticket = some q ∧ q.Granted b.clients reply := by
  cases hx with
  | aside asks _ replies _ =>
    rw [replies] at hreply
    obtain ⟨q, hq, _⟩ := ha.granted _ reply hreply
    cases asks.symm.trans hq
  | @issues id credentials asks system clients replies =>
    rw [replies, Function.update_self] at hreply
    cases hreply
    exact ⟨.register id, system ▸ asks, credentials, rfl, by rw [clients, Table.get?_insert_self]⟩
  | @removes id asks system clients replies =>
    rw [replies, Function.update_self] at hreply
    cases hreply
    exact ⟨.remove id, system ▸ asks, rfl, by simp [clients, Clients.remove]⟩
  | enters _ _ _ replies _ _ _ | leaves _ _ _ replies _ =>
    rw [replies, Function.update_self] at hreply
    cases hreply

/-- An invoker that an act is not about keeps its standing. -/
theorem standing_of_ne (hx : a.Happens x b) (h : a.step x = some b) (hs : a.Standing id)
    (hother : ∀ q, a.system.inquiry? x.ticket = some q → id ≠ q.invoker) : b.Standing id := by
  obtain ⟨hclient, hsame⟩ := hx.of_ne hother
  have hticket : ∀ {t q}, a.system.inquiry? t = some q → id = q.invoker → t ≠ x.ticket := by
    rintro t q hq hid rfl
    exact hother q hq hid
  cases hs with
  | outside client absent => exact .outside (hclient.trans client) (mt hsame.mp absent)
  | coming asked served =>
    have ht := hticket asked rfl
    exact .coming ((inquiry?_step_of_ne h ht).trans asked) ((hx.replies_of_ne ht).symm ▸ served)
  | inside client onboarded returned =>
    exact .inside (hclient.trans client) (hsame.mpr onboarded) (returned_step h returned)
  | leaving client onboarded asked =>
    have ht := hticket asked rfl
    exact .leaving (hclient.trans client) (hsame.mpr onboarded)
      ((inquiry?_step_of_ne h ht).trans asked)

/-- An invoker that an act is about moves on to its next standing. -/
theorem standing_self (hx : a.Happens x b) (hs : a.system.Inquiring) {q : Inquiry}
    (hstanding : a.Standing q.invoker) (hq : a.system.inquiry? x.ticket = some q) :
    b.Standing q.invoker := by
  cases hx with
  | aside asks _ _ _ => cases asks.symm.trans hq
  | issues asks system _ replies =>
    cases asks.symm.trans hq
    refine .coming (t := x.ticket) (system ▸ asks) ?_
    rw [replies, Function.update_self]
    exact Option.some_ne_none _
  | @removes id asks system clients _ =>
    cases asks.symm.trans hq
    have hgone : b.clients.table.get? id = none := by simp [clients, Clients.remove]
    cases hstanding with
    | outside _ absent => exact .outside hgone (system ▸ absent)
    | coming asked _ =>
      exact absurd rfl (hs.invoker_ne asked (by rintro rfl; cases asks.symm.trans asked) asks)
    | inside _ onboarded _ | leaving _ onboarded _ =>
      exact .leaving hgone (system ▸ onboarded) (system ▸ asks)
  | enters asks client clients _ named result more =>
    cases asks.symm.trans hq
    exact .inside (clients ▸ client) ((more _).mpr (.inr rfl)) ⟨_, _, _, _, result, named⟩
  | leaves asks client clients _ fewer =>
    cases asks.symm.trans hq
    exact .outside (clients ▸ client) fun h => ((fewer _).mp h).2 rfl

end Happens

/-- Every act keeps the agreement. -/
theorem Agrees.step (ha : a.Agrees) (hs : a.system.Inquiring) (h : a.step x = some b) :
    b.Agrees := by
  have hx := ha.happens hs h
  constructor
  · intro t reply hreply
    by_cases ht : t = x.ticket
    · subst ht
      exact hx.granted_self ha hreply
    · rw [hx.replies_of_ne ht] at hreply
      obtain ⟨q, hq, hgranted⟩ := ha.granted t reply hreply
      exact ⟨q, (inquiry?_step_of_ne h ht).trans hq, hx.granted_of_ne hs ht hq hgranted⟩
  · intro id
    by_cases hother : ∀ q, a.system.inquiry? x.ticket = some q → id ≠ q.invoker
    · exact hx.standing_of_ne h (ha.standing id) hother
    · push Not at hother
      obtain ⟨q, hq, rfl⟩ := hother
      exact hx.standing_self hs (ha.standing _) hq

theorem agrees_fresh : fresh.Agrees where
  granted _ _ h := nomatch h
  standing _ := .outside rfl fun h => h rfl

/-- So they agree at the end of every run with fresh identifiers. -/
theorem agrees_run (hf : FreshIds (xs.filterMap Act.move?)) (h : fresh.run xs = some a) :
    a.Agrees := by
  refine run_induction (P := fun xs a => FreshIds (xs.filterMap Act.move?) → a.Agrees)
    (fun _ => agrees_fresh) (fun xs x a b hrun ih hx hf => ?_) h hf
  rw [List.filterMap_append] at hf
  exact (ih hf.left).step (inquiring_run hf.left hrun) hx

/-- A command that is engaged stays so. -/
theorem engaged_step (ha : a.Agrees) (hs : a.system.Inquiring) (h : a.step x = some b)
    (he : a.system.Engaged t) : b.system.Engaged t := by
  cases he with
  | offboards job command =>
    rcases system_step h with hsame | ⟨m, _, hstep⟩
    · exact .offboards (hsame ▸ job) command
    · obtain ⟨k, hk, hcommand, _⟩ := System.step_keeps_job hstep job
      exact .offboards hk (hcommand.trans command)
  | asks asked =>
    by_cases ht : t = x.ticket
    · subst ht
      cases ha.happens hs h with
      | issues _ system _ _ => exact .asks (system ▸ asked)
      | enters _ _ _ _ _ result _ => exact .onboards result
      | aside asks _ _ _ | removes asks _ _ _ | leaves asks _ _ _ _ =>
        cases asks.symm.trans asked
    · exact .asks ((inquiry?_step_of_ne h ht).trans asked)
  | onboards result =>
    rcases system_step h with hsame | ⟨m, _, hstep⟩
    · exact .onboards (hsame ▸ result)
    · exact .onboards (result.step hstep)

/-- An act of a command that is not engaged changes no client and lets nobody in or out. -/
theorem Happens.engaged_of_changed (hx : a.Happens x b) (hs : a.system.Inquiring) :
    (b.clients = a.clients ∧ ∀ id, b.system.Onboarded id ↔ a.system.Onboarded id) ∨
      a.system.Engaged x.ticket := by
  cases hx with
  | aside _ clients _ same => exact .inl ⟨clients, same⟩
  | issues asks _ _ _ | removes asks _ _ _ | enters asks _ _ _ _ _ _ | leaves asks _ _ _ _ =>
    exact .inr (hs.engaged asks)

/-- What the acts of bystanders have changed in a run: nothing. -/
theorem unchanged_of_bystands (hf : FreshIds (xs.filterMap Act.move?)) (h : fresh.run xs = some a)
    {ys zs : List Act} (hxs : xs = ys ++ x :: zs) (hb : fresh.run ys = some b)
    (hc : b.step x = some c) (hbystands : a.system.Bystands x.ticket) :
    c.clients = b.clients ∧ ∀ id, c.system.Onboarded id ↔ b.system.Onboarded id := by
  have hengaged : (c.clients = b.clients ∧ ∀ id, c.system.Onboarded id ↔ b.system.Onboarded id) ∨
      a.system.Engaged x.ticket := by
    refine run_induction (P := fun xs a => FreshIds (xs.filterMap Act.move?) →
      ∀ zs, xs = ys ++ x :: zs → (c.clients = b.clients ∧
        ∀ id, c.system.Onboarded id ↔ b.system.Onboarded id) ∨ a.system.Engaged x.ticket)
      (fun _ zs hnil => ?_) (fun xs y a d hrun ih hy hf zs hxs => ?_) h hf zs hxs
    · cases ys <;> cases hnil
    · rw [List.filterMap_append] at hf
      have ha := agrees_run hf.left hrun
      have hs := inquiring_run hf.left hrun
      rcases concat_eq_split_iff.mp hxs with ⟨rfl, rfl, rfl⟩ | ⟨rest, rfl, hrest⟩
      · obtain rfl := Option.some.inj (hrun.symm.trans hb)
        obtain rfl := Option.some.inj (hy.symm.trans hc)
        exact ((ha.happens hs hy).engaged_of_changed hs).imp_right (engaged_step ha hs hy)
      · exact (ih hf.left rest hrest).imp_right (engaged_step ha hs hy)
  exact hengaged.resolve_right fun he => he.not_bystands (inquiring_run hf h) hbystands

/-- Clients and invokers agree. -/
structure Matches (a : Attended) : Prop where
  /-- There are clients for the onboarded invokers. -/
  held : ∀ id, a.clients.table.contains id = a.system.core.invokers.contains id
  /-- Onboarding has returned credentials to each of them, and no others. -/
  returned : ∀ id, a.system.core.invokers.contains id = true →
    ∃! credentials, a.system.Returned id credentials
  /-- A secret verifies when the onboarding has returned it. -/
  verified : ∀ id secret, a.clients.verify id secret = true ↔
    a.system.core.invokers.contains id = true ∧
      ∃ credentials, a.system.Returned id credentials ∧ credentials.clientSecret = secret

/-- When no command is in progress an invoker and its client are both there or both not. -/
theorem Agrees.standing_of_idle (ha : a.Agrees) (hidle : a.system.Idle) (id : InvokerId) :
    (a.clients.table.get? id = none ∧ ¬ a.system.Onboarded id) ∨
      ∃ credentials, a.clients.table.get? id = some credentials ∧ a.system.Onboarded id ∧
        a.system.Returned id credentials := by
  cases ha.standing id with
  | outside client absent => exact .inl ⟨client, absent⟩
  | inside client onboarded returned => exact .inr ⟨_, client, onboarded, returned⟩
  | coming asked _ | leaving _ _ asked => cases (hidle.inquiry? _).symm.trans asked

/-- So they agree then, if no invoker has been returned two credentials. -/
theorem Agrees.matches (ha : a.Agrees) (hidle : a.system.Idle)
    (hunique : ∀ {id first second}, a.system.Returned id first → a.system.Returned id second →
      first = second) : a.Matches where
  held id := by
    rw [Bool.eq_iff_iff, Invokers.contains_eq_true_iff, Table.contains, Option.isSome_iff_ne_none]
    rcases ha.standing_of_idle hidle id with ⟨client, absent⟩ | ⟨_, client, onboarded, _⟩
    · exact ⟨fun h => absurd client h, fun h => absurd h absent⟩
    · exact ⟨fun _ => onboarded, fun _ => client ▸ Option.some_ne_none _⟩
  returned id h := by
    rcases ha.standing_of_idle hidle id with ⟨_, absent⟩ | ⟨_, _, _, returned⟩
    · exact absurd (Invokers.contains_eq_true_iff.mp h) absent
    · exact ⟨_, returned, fun _ other => hunique other returned⟩
  verified id secret := by
    rw [Invokers.contains_eq_true_iff, Clients.verify]
    rcases ha.standing_of_idle hidle id with ⟨client, absent⟩ | ⟨_, client, onboarded, returned⟩
    · rw [client]
      exact iff_of_false Bool.false_ne_true fun h => absent h.1
    · rw [client, Option.any_some, beq_iff_eq]
      constructor
      · exact fun h => ⟨onboarded, _, returned, h⟩
      · rintro ⟨_, _, other, rfl⟩
        rw [hunique returned other]

/-- Clients match onboarded invokers. Along every run with fresh identifiers, in which anything may
happen before, between and after the calls of a command and their replies: whenever no command
is in progress the identity provider holds clients for exactly the onboarded invokers, and a
secret verifies exactly when its invoker is onboarded and it is the one that the onboarding
returned; and no step of a command that is neither an onboarding nor an offboarding, or of an
onboarding that fails, changes a client or who is onboarded. -/
theorem clients_match_invokers (hf : FreshIds (xs.filterMap Act.move?))
    (h : fresh.run xs = some a) :
    (a.system.Idle → a.Matches) ∧
      ∀ ys x zs b c, xs = ys ++ x :: zs → fresh.run ys = some b → b.step x = some c →
        a.system.Bystands x.ticket → c.clients = b.clients ∧
          ∀ id, c.system.core.invokers.contains id = b.system.core.invokers.contains id := by
  refine ⟨fun hidle => ?_, fun ys x zs b c hxs hb hc hbystands => ?_⟩
  · obtain ⟨ms, hms, _⟩ := exists_run h
    exact (agrees_run hf h).matches hidle fun hfirst hsecond =>
      hfirst.unique hms (inquiring_run hf h).orderly hsecond
  · obtain ⟨hclients, hsame⟩ := unchanged_of_bystands hf h hxs hb hc hbystands
    refine ⟨hclients, fun id => ?_⟩
    rw [Bool.eq_iff_iff, Invokers.contains_eq_true_iff, Invokers.contains_eq_true_iff]
    exact hsame id

/-- An invoker is onboarded; while another one is, it is offboarded twice, and then the other one is
patched and granted the sample API. -/
def sampleTraffic : List Act := System.sampleSchedule.map .core ++ [
  .core (.resume 1 .announced),
  .core (.start 2 (.onboard { onboarding := { publicKey := "key" } }) (.lettered 'c' default)),
  .serve 2 "first", .deliver 2, .core (.resume 2 .announced),
  .core (.start 3 (.onboard { onboarding := { publicKey := "key" } }) (.lettered 'd' default)),
  .serve 3 "second",
  .core (.start 4 (.offboard (.generate "c")) (.lettered 'e' default)),
  .core (.start 5 (.offboard (.generate "c")) (.lettered 'f' default)),
  .serve 4 "", .deliver 3, .serve 5 "", .deliver 5, .deliver 4,
  .core (.resume 3 .announced), .core (.resume 5 .announced),
  .core (.start 6 (.updateInvoker (.generate "d") { onboarding := some { publicKey := "new" } })
    (.lettered 'g' default)),
  .core (.resume 6 .announced),
  .core (.start 7 (.grant (.generate "d")
    ⟨.generate "b", .generate .exposer "aaa", "maps", "v1"⟩) (.lettered 'h' default))]

/-- Somebody without key asks to be onboarded. -/
def sampleRefusal : Act :=
  .core (.start 8 (.onboard { onboarding := { publicKey := "" } }) (.lettered 'i' default))

theorem freshIds_sampleRefusal :
    FreshIds ((sampleTraffic ++ [sampleRefusal]).filterMap Act.move?) :=
  .of_letters ['a', 'b', 'c', 'd', 'e', 'f', 'g', 'h', 'i'] (by decide) rfl

/-- In the end the second invoker is left with its secret, and the refusal has changed nothing. -/
theorem clients_match_invokers_sample :
    ∃ (b c : Attended) (credentials : ClientCredentials),
      fresh.run sampleTraffic = some b ∧ b.step sampleRefusal = some c ∧
      c.system.Idle ∧ c.Matches ∧
      c.system.core.invokers.contains (.generate "c") = false ∧
      c.clients.verify (.generate "c") "first" = false ∧
      c.system.core.invokers.contains (.generate "d") = true ∧
      c.system.Returned (.generate "d") credentials ∧ credentials.clientSecret = "second" ∧
      c.system.Bystands sampleRefusal.ticket ∧ c.clients = b.clients := by
  have hend : (fresh.run (sampleTraffic ++ [sampleRefusal])).map (fun c =>
      (c.system.core.invokers.contains (.generate "c"),
        c.system.core.invokers.contains (.generate "d"),
        c.clients.verify (.generate "c") "first", c.clients.verify (.generate "d") "second",
        ((sampleTraffic ++ [sampleRefusal]).map Act.ticket).all (fun t =>
          (c.system.jobs t).all (·.flow.hasEnded)))) =
      some (false, true, false, true, true) := by decide +kernel
  obtain ⟨c, hc, hend⟩ := Option.map_eq_some_iff.mp hend
  simp only [Prod.mk.injEq] at hend
  obtain ⟨hgone, hheld, hrefused, hverified, hended⟩ := hend
  obtain ⟨b, hb, hstep⟩ := run_concat_eq_some.mp hc
  have hidle := idle_of_run hc hended
  have hbystands : c.system.Bystands sampleRefusal.ticket := by
    obtain ⟨_, _, hstart, rfl⟩ := step_core.mp hstep
    obtain ⟨_, rfl⟩ := System.step_start.mp hstart
    exact .failed (f := .invalid .missingInvokerKey) ⟨_, System.jobs_advance_self _ _ _, rfl⟩
  obtain ⟨hmatches, hunchanged⟩ := clients_match_invokers freshIds_sampleRefusal hc
  have hmatch := hmatches hidle
  obtain ⟨_, credentials, hreturned, hsecret⟩ := (hmatch.verified _ _).mp hverified
  exact ⟨b, c, credentials, hb, hstep, hidle, hmatch, hgone, hrefused, hheld, hreturned, hsecret,
    hbystands, (hunchanged _ _ [] b c rfl hb hstep hbystands).1⟩

end Attended

end ApiExposure
