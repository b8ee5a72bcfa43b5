import ApiExposure.Proofs.Invokers.Enrolled
import ApiExposure.Proofs.Publications.Removal
import ApiExposure.Proofs.Security.Contexts
import ApiExposure.Proofs.System.Atomicity
import ApiExposure.Proofs.System.Turn

/-!
# Offboarding is final

What stands for an invoker is in three registries: its identity with the grants,
the marks of the ledger and its security context. An offboarding clears all three
in one move, with the grants as they are then, and nothing brings any of it back:
an invoker comes in only under the identifier that its own command generated, a
context only where an invoker or a context is, and a mark goes only when the call
is granted to an onboarded invoker. Commands that were waiting meanwhile are
included; an offboarding among them finds that it has nothing to do.
-/

namespace ApiExposure

/-- A command fails where it starts and changes nothing. -/
def Command.IsRefused (command : Command) (c : Core) (f : Failure) : Prop :=
  ∀ o, command.start o c = .done c (.error f)

namespace Core

/-- Every operation turns an invoker away. What looks at its other arguments first does so when
these pass. -/
structure Offboarded (c : Core) (id : InvokerId) : Prop where
  /-- Its calls are denied. -/
  decision : ∀ (call : Call) (now : Instant), call.invoker = id → call.hasBlank = false →
    c.check call now = .ok (.deny .unknownInvoker)
  /-- It discovers nothing. -/
  discovery : ∀ criteria, c.discover id criteria = .error (.denied .unknownInvoker)
  /-- It has no security context. -/
  noContext : c.trusted.table.get? id = none
  /-- None can be read. -/
  readContext : ∀ authentication authorization,
    c.trusted.get id authentication authorization = .error (.notFound (.trustedInvoker id))
  /-- None can be stored, whatever it says. -/
  createContext : ∀ context, ∃ fault,
    (Command.createContext id context).IsRefused c (.invalid fault) ∧
      ∀ prepared, TrustedInvokers.prepare c.store context = .ok prepared →
        fault = .notOnboarded id
  /-- None can be replaced. -/
  updateContext : ∀ context prepared, TrustedInvokers.prepare c.store context = .ok prepared →
    (Command.updateContext id context).IsRefused c (.notFound (.trustedInvoker id))
  /-- It is granted nothing. -/
  grant : ∀ (g : Grant) (a : PublishedApi), g.validate = .ok () → c.store.get g.api = .ok a →
    fits a g = true → (Command.grant id g).IsRefused c (.notFound (.invoker id))
  /-- No grant can be taken away from it. -/
  removeGrant : ∀ g, (Command.removeGrant id g).IsRefused c (.notFound (.invoker id))
  /-- It cannot be changed. -/
  update : ∀ p : InvokerPatch, p.validate = .ok () →
    (Command.updateInvoker id p).IsRefused c (.notFound (.invoker id))
  /-- Its access cannot be revoked. -/
  revokeAccess : ∀ scope : RevocationScope, scope.isEmpty = false →
    (Command.revokeAccess id scope).IsRefused c (.notFound (.invoker id))
  /-- It cannot be offboarded again. -/
  offboard : (Command.offboard id).IsRefused c (.notFound (.invoker id))

/-- Where there is neither an invoker nor a context, the invoker is turned away. -/
theorem offboarded_of_absent {c : Core} {id : InvokerId}
    (hi : c.invokers.table.get? id = none) (ht : c.trusted.table.get? id = none) :
    c.Offboarded id := by
  have hget : c.invokers.get id = .error (.notFound (.invoker id)) := by rw [Invokers.get, hi]
  have hcontains : c.invokers.contains id = false := Table.contains_eq_false_iff.mpr hi
  refine ⟨?_, fun _ => discover_eq_error_iff.mpr ⟨hi, rfl⟩, ht, ?_, ?_, ?_, ?_, ?_, ?_, ?_, ?_⟩
  · rintro call now rfl hb
    rw [check_of_not_hasBlank hb, hi]
  · intro _ _
    rw [TrustedInvokers.get, ht]
  · intro context
    cases hp : TrustedInvokers.prepare c.store context with
    | error f =>
      obtain ⟨fault, rfl⟩ := TrustedInvokers.isCheck_prepare c.store context f hp
      refine ⟨fault, fun o => ?_, fun prepared h => by cases h⟩
      simp [Command.start, Core.createContext, TrustedInvokers.create, hp, bind, Except.bind,
        Flow.ofOutcome]
    | ok prepared =>
      refine ⟨.notOnboarded id, fun o => ?_, fun _ _ => rfl⟩
      simp [Command.start, Core.createContext, TrustedInvokers.create, hp,
        Invokers.requireOnboarded, require, hcontains, bind, Except.bind, Flow.ofOutcome]
  · intro context prepared hp o
    have hnone : c.trusted.contains id = false := Table.contains_eq_false_iff.mpr ht
    simp [Command.start, Core.updateContext, TrustedInvokers.update, hp, hnone, bind,
      Except.bind, Flow.ofOutcome]
  · intro g a hv ha hf o
    simp [Command.start, Core.grant, hv, ha, require, hf, Invokers.grant, hget, bind,
      Except.bind, Flow.ofOutcome]
  · intro g o
    simp [Command.start, Core.removeGrant, Invokers.removeGrant, hget, bind, Except.bind,
      Flow.ofOutcome]
  · intro p hv o
    simp [Command.start, Core.updateInvoker, Invokers.update, hv, hget, bind, Except.bind]
  · intro scope hs o
    simp [Command.start, Core.revokeAccess, hs, Invokers.grantsMatching, Invokers.grantsOf, hget,
      Except.map]
  · intro o
    simp [Command.start, Core.offboard, hcontains]

end Core

namespace Effect

variable {o : Occasion} {command : Command} {c d : Core} {r : Outcome command.Result}

/-- Under an identifier is an invoker that was there, or the one just onboarded. -/
theorem enrolled_cases (h : Effect o command c r d) {id : InvokerId}
    (hd : d.invokers.table.get? id ≠ none) :
    c.invokers.table.get? id ≠ none ∨ id = .generate (o.suffix 0) :=
  (h.enrolled_iff.mp hd).imp (·.1) (·.2.2)

/-- An offboarding takes out the invoker with its context and revokes all calls of its grants. -/
theorem of_offboard {id : InvokerId} {a : Unit} (h : Effect o (.offboard id) c (.ok a) d) :
    ∃ i, c.invokers.table.get? id = some i ∧ d.invokers.table.get? id = none ∧
      d.trusted.table.get? id = none ∧
      ∀ g ∈ i.grants, d.ledger.isRevoked (g.call id) = true := by
  cases h with
  | @offboarded _ _ i _ h =>
    obtain ⟨hi, rfl⟩ := Invokers.of_deregister_eq_ok h
    refine ⟨i, hi, by simp, by simp [TrustedInvokers.remove], fun g hg => ?_⟩
    exact (Core.isRevoked_revokeGrants _ _ _ _ _).mpr (.inl ⟨g, hg, rfl⟩)

/-- A call is granted to an onboarded invoker only. -/
theorem enrolled_of_reinstates {a : command.Result} (h : Effect o command c (.ok a) d)
    {call : Call} (hcall : command.Reinstates call) :
    c.invokers.table.get? call.invoker ≠ none := by
  cases h with
  | granted _ _ _ h =>
    obtain ⟨held, hheld, _⟩ := Invokers.of_grant_eq_ok h
    have hinvoker := congrArg Call.invoker hcall
    rw [← hinvoker]
    simpa [Grant.call] using hheld ▸ Option.some_ne_none held
  | _ => cases hcall

end Effect

namespace System

/-- An identifier was generated by a command that has taken effect. -/
def InvokerSpent (s : System) (id : InvokerId) : Prop :=
  ∃ suffix, s.Used suffix ∧ id = .generate suffix

/-- An identifier is spent, and neither an invoker nor a context is under it. -/
structure Departed (s : System) (id : InvokerId) : Prop where
  /-- The identifier is spent. -/
  spent : s.InvokerSpent id
  /-- There is no invoker. -/
  absent : s.core.invokers.table.get? id = none
  /-- There is no context. -/
  noContext : s.core.trusted.table.get? id = none

/-- Every identifier in the registry of invokers is spent. -/
def InvokersSpent (s : System) : Prop :=
  ∀ id, s.core.invokers.table.get? id ≠ none → s.InvokerSpent id

variable {s u : System} {m : Option Move} {id : InvokerId}

theorem InvokerSpent.step {m : Move} (hs : s.InvokerSpent id) (h : s.step m = some u) :
    u.InvokerSpent id := by
  obtain ⟨suffix, hused, rfl⟩ := hs
  exact ⟨suffix, hused.step h, rfl⟩

theorem InvokerSpent.pass (hs : s.InvokerSpent id) (h : s.Passes m u) : u.InvokerSpent id := by
  cases h with
  | move h => exact hs.step h
  | deregistered _ => exact hs
  | invalidated _ _ => exact hs

/-- Who is onboarded along a passage has the identifier of the command that takes effect. -/
theorem InvokersSpent.pass (hseen : s.Seen) (hs : s.InvokersSpent) (h : s.Passes m u) :
    u.InvokersSpent := by
  cases h with
  | move h =>
    intro id hid
    rcases (step_cases hseen.tracked_and_wellFormed.1 h).2 with ⟨j, r, hj, he, _⟩ | ⟨hcore, _⟩
    · rcases he.enrolled_cases hid with hheld | rfl
      · exact (hs id hheld).step h
      · exact ⟨_, hj.used, rfl⟩
    · exact (hs id (hcore ▸ hid)).step h
  | deregistered _ => exact hs
  | invalidated _ _ => exact hs

/-- With fresh identifiers, who has departed stays away. -/
theorem Departed.pass (hseen : s.Seen) (ho : s.Orderly) (hs : s.Departed id)
    (hfresh : ∀ n ∈ m, s.Admits n) (h : s.Passes m u) : u.Departed id := by
  have hspent := hs.spent.pass h
  cases h with
  | move h =>
    rcases (step_cases hseen.tracked_and_wellFormed.1 h).2 with ⟨j, r, hj, he, _⟩ | ⟨hcore, _⟩
    · refine ⟨hspent, ?_, ?_⟩
      · by_contra hne
        rcases he.enrolled_cases hne with hheld | hid
        · exact hheld hs.absent
        · obtain ⟨suffix, hused, rfl⟩ := hs.spent
          exact hused.ne_of_settles (ho.step (hfresh _ rfl) h) hj
            (InvokerId.generate_injective hid).symm
      · by_contra hne
        exact (he.context_cases hne).elim (· hs.noContext) (· hs.absent)
    · exact ⟨hspent, hcore ▸ hs.absent, hcore ▸ hs.noContext⟩
  | deregistered _ => exact ⟨hspent, hs.absent, hs.noContext⟩
  | invalidated _ _ => exact ⟨hspent, hs.absent, hs.noContext⟩

/-- The marks of a departed invoker stay in the ledger. -/
theorem Departed.isRevoked_pass {call : Call} (hseen : s.Seen) (hs : s.Departed call.invoker)
    (hr : s.core.ledger.isRevoked call = true) (h : s.Passes m u) :
    u.core.ledger.isRevoked call = true := by
  cases h with
  | move h =>
    rcases (step_cases hseen.tracked_and_wellFormed.1 h).2 with ⟨j, r, hj, he, _⟩ | ⟨hcore, _⟩
    · refine (he.isRevoked_iff hseen.complete call).mpr (.inr ⟨hr, ?_⟩)
      rintro ⟨⟨a, rfl⟩, hreinstates⟩
      exact he.enrolled_of_reinstates hreinstates hs.absent
    · rwa [hcore]
  | deregistered _ => exact hr
  | invalidated _ _ => exact hr

/-- Commands go on as planned along a passage. -/
theorem Planned.pass (hseen : s.Seen) (hs : s.Planned) (h : s.Passes m u) : u.Planned := by
  cases h with
  | move h => exact hs.step hseen.tracked_and_wellFormed.2 h
  | deregistered _ => exact hs
  | invalidated _ _ => exact hs

/-- In every state that may be seen, the commands are as planned. -/
theorem Precedes.planned (h : fresh.Precedes s) : s.Planned :=
  h.invariant (P := Planned) .fresh orderly_fresh (fun _ _ hj => nomatch hj)
    fun _ _ _ ht _ hplanned _ hpass => hplanned.pass ht hpass

/-- Whoever is onboarded has a spent identifier. -/
theorem Precedes.invokersSpent (h : fresh.Precedes s) : s.InvokersSpent :=
  h.invariant (P := InvokersSpent) .fresh orderly_fresh (fun _ hid => absurd rfl hid)
    fun _ _ _ ht _ hspent _ hpass => hspent.pass ht hpass

/-- In every run the onboarded invokers have spent identifiers. -/
theorem invokersSpent_run {ms : List Move} (h : fresh.run ms = some s) : s.InvokersSpent :=
  run_induction (P := fun _ s => s.InvokersSpent) (fun _ hid => absurd rfl hid)
    (fun _ _ _ _ hs ih hm => ih.pass (seen_run hs) (.move hm)) h

/-- What an offboarding leaves of its invoker. -/
theorem departed_of_settles {m : Move} {j : Job} {a : j.command.Result} (hseen : s.Seen)
    (hs : s.InvokersSpent) (h : s.Settles m u j (.ok a)) (hj : j.command = .offboard id) :
    ∃ i, s.core.invokers.table.get? id = some i ∧ u.Departed id ∧
      ∀ g ∈ i.grants, u.core.ledger.isRevoked (g.call id) = true := by
  have he := h.effect hseen.tracked_and_wellFormed.1
  obtain ⟨command, occasion, flow⟩ := j
  obtain rfl : command = .offboard id := hj
  obtain ⟨i, hi, habsent, hcontext, hrevoked⟩ := he.of_offboard
  exact ⟨i, hi, ⟨(hs id (by simp [hi])).step h.step, habsent, hcontext⟩, hrevoked⟩

/-- Another offboarding that goes on with the client removed finds nobody. -/
theorem Departed.offboard_again {m : Move} {j : Job} {r : Outcome j.command.Result}
    (hs : s.Departed id) (hp : s.Planned) (hc : s.core.store.WellFormed)
    (h : s.Settles m u j r) (hj : j.command = .offboard id)
    (hreport : s.report? m = some ⟨.removeClient id, true⟩) :
    r = .error (.notFound (.invoker id)) := by
  obtain ⟨deeds, _, hsequel⟩ := h.sequel hp hc
  obtain ⟨command, occasion, flow⟩ := j
  obtain rfl : command = .offboard id := hj
  rw [hreport] at hsequel
  generalize u.core = d at hsequel
  cases hsequel with
  | offboarded hi =>
    obtain ⟨hheld, _⟩ := Invokers.of_deregister_eq_ok hi
    rw [hs.absent] at hheld
    cases hheld
  | alreadyOffboarded _ => rfl

/-- Offboarding is final and complete: from the move on by which an invoker is offboarded, all calls
of the grants that it held then are revoked, every operation turns it away, and no other
offboarding of it succeeds. -/
theorem offboarding_final {s u v : System} {m : Move} {j : Job} {a : j.command.Result}
    {id : InvokerId} (hs : fresh.Precedes s) (hm : s.Admits m) (h : s.Settles m u j (.ok a))
    (hj : j.command = .offboard id) (hv : u.Precedes v) :
    ∃ i, s.core.invokers.table.get? id = some i ∧
      (∀ g ∈ i.grants, v.core.ledger.isRevoked (g.call id) = true) ∧ v.core.Offboarded id ∧
      ∀ (n : Move) (w : System) (k : Job) (r : Outcome k.command.Result),
        v.Settles n w k r → k.command = .offboard id →
          v.report? n = some ⟨.removeClient id, true⟩ → r = .error (.notFound (.invoker id)) := by
  have hseen := hs.seen .fresh
  have horderly := hs.orderly orderly_fresh
  obtain ⟨i, hi, hdeparted, hrevoked⟩ := departed_of_settles hseen hs.invokersSpent h hj
  let P : System → Prop := fun t => t.Departed id ∧ t.Planned ∧
    ∀ g ∈ i.grants, t.core.ledger.isRevoked (g.call id) = true
  have hu : P u := ⟨hdeparted, hs.planned.step hseen.tracked_and_wellFormed.2 h.step, hrevoked⟩
  have hpass : ∀ t n w, t.Seen → t.Orderly → P t → (∀ l ∈ n, t.Admits l) → t.Passes n w →
      P w := by
    rintro t n w ht ho ⟨hgone, hplan, hmarks⟩ hfresh hw
    exact ⟨hgone.pass ht ho hfresh hw, hplan.pass ht hw,
      fun g hg => Departed.isRevoked_pass ht hgone (hmarks g hg) hw⟩
  have huSeen := hseen.step h.step
  obtain ⟨hgone, hplan, hmarks⟩ := hv.invariant huSeen (horderly.step hm h.step) hu hpass
  have hvSeen := hv.seen huSeen
  exact ⟨i, hi, hmarks, Core.offboarded_of_absent hgone.absent hgone.noContext,
    fun _ _ _ _ hk hcommand hreport => hgone.offboard_again hplan
      hvSeen.tracked_and_wellFormed.2 hk hcommand hreport⟩

/-- A security context on an interface. -/
def sampleContext : SecurityContext where
  entries := [{ interface := some {}, preferred := [.pki] }]
  destination := "http://a"

/-- While the client of the sample invoker is being removed another offboarding begins, and the
invoker gets a security context. -/
def overlappedOffboarding : List Move := sampleGranting ++ [
  .start 3 (.offboard (.generate "c")) (.lettered 'd' default),
  .start 4 (.offboard (.generate "c")) (.lettered 'e' default),
  .start 5 (.createContext (.generate "c") sampleContext) (.lettered 'f' default)]

/-- After the offboarding somebody tries to store the context again. -/
def afterOffboarding : List Move :=
  [.start 6 (.createContext (.generate "c") sampleContext) (.lettered 'g' default)]

theorem freshIds_afterOffboarding :
    FreshIds ((overlappedOffboarding ++ [.resume 3 (.errand (.ok ()))]) ++ afterOffboarding) :=
  .of_letters ['a', 'b', 'c', 'd', 'e', 'f', 'g'] (by decide) rfl

/-- The sample invoker had a grant and a context and has nothing any more. -/
theorem offboarding_final_sample :
    ∃ (s u v : System) (j : Job) (a : j.command.Result) (i : InvokerIdentity),
      fresh.Precedes s ∧ s.Settles (.resume 3 (.errand (.ok ()))) u j (.ok a) ∧
      j.command = .offboard (.generate "c") ∧ u.Precedes v ∧
      s.core.trusted.contains (.generate "c") = true ∧
      s.core.invokers.table.get? (.generate "c") = some i ∧
      i.grants = [⟨.generate "b", .generate .exposer "aaa", "maps", "v1"⟩] ∧
      v.core.ledger.isRevoked sampleCall = true ∧ v.core.Offboarded (.generate "c") ∧
      v.report? (.resume 4 (.errand (.ok ()))) = some ⟨.removeClient (.generate "c"), true⟩ ∧
      ∀ (w : System) (k : Job) (r : Outcome k.command.Result),
        v.Settles (.resume 4 (.errand (.ok ()))) w k r → k.command = .offboard (.generate "c") →
          r = .error (.notFound (.invoker (.generate "c"))) := by
  have hrun : (fresh.run overlappedOffboarding).bind (fun s =>
      (s.step (.resume 3 (.errand (.ok ())))).bind (fun u =>
        (u.run afterOffboarding).map (fun _ =>
          (s.core.trusted.contains (.generate "c"), s.core.invokers.contains (.generate "c"),
            (s.core.invokers.table.get? (.generate "c")).map (·.grants),
            u.core.invokers.contains (.generate "c"))))) =
      some (true, true, some [⟨.generate "b", .generate .exposer "aaa", "maps", "v1"⟩], false) := by
    decide +kernel
  have hjobs : (fresh.run overlappedOffboarding).bind (fun s =>
      (s.step (.resume 3 (.errand (.ok ())))).bind (fun u =>
        (u.run afterOffboarding).map (fun v =>
          ((u.jobs 3).map (·.command), v.report? (.resume 4 (.errand (.ok ()))))))) =
      some (some (.offboard (.generate "c")),
        some ⟨.removeClient (.generate "c"), true⟩) := rfl
  obtain ⟨s, hs, hrun⟩ := Option.bind_eq_some_iff.mp hrun
  obtain ⟨u, hu, hrun⟩ := Option.bind_eq_some_iff.mp hrun
  obtain ⟨v, hv, hrun⟩ := Option.map_eq_some_iff.mp hrun
  simp only [hs, hu, hv, Option.bind_some, Option.map_some, Option.some.injEq,
    Prod.mk.injEq] at hrun hjobs
  obtain ⟨hcontext, hheld, hgrants, hleft⟩ := hrun
  obtain ⟨hcommand, hreport⟩ := hjobs
  have hfresh := freshIds_afterOffboarding
  have hrunU : fresh.run (overlappedOffboarding ++ [.resume 3 (.errand (.ok ()))]) = some u :=
    run_concat_eq_some.mpr ⟨s, hs, hu⟩
  have hfs : fresh.Precedes s :=
    precedes_of_run (show FreshIds ([] ++ overlappedOffboarding) from hfresh.left.left) rfl hs
  have huv : u.Precedes v := precedes_of_run hfresh hrunU hv
  have hchanged : u.core ≠ s.core := by
    intro hcore
    rw [hcore, hheld] at hleft
    cases hleft
  obtain ⟨j, r, hj, he, _⟩ := (step_cases (tracked_run hs) hu).2.resolve_right
    fun hnothing => hchanged hnothing.1
  have hjob : j.command = .offboard (.generate "c") := by
    have hmap := congrArg (Option.map Job.command) hj.job
    exact Option.some.inj (hmap.symm.trans hcommand)
  obtain ⟨a, rfl⟩ : ∃ a, r = .ok a := by
    cases r with
    | error f => exact absurd (he.eq_of_error (complete_run hs).2) hchanged
    | ok a => exact ⟨a, rfl⟩
  have hadmits : s.Admits (.resume 3 (.errand (.ok ()))) := by
    intro _ ho
    cases ho
  obtain ⟨i, hi, hrevoked, hoffboarded, hagain⟩ :=
    offboarding_final hfs hadmits hj hjob huv
  rw [hi, Option.map_some, Option.some.injEq] at hgrants
  refine ⟨s, u, v, j, a, i, hfs, hj, hjob, huv, hcontext, hi, hgrants, ?_, hoffboarded, hreport,
    fun w k r hk hcommand => hagain _ w k r hk hcommand hreport⟩
  exact hrevoked ⟨.generate "b", .generate .exposer "aaa", "maps", "v1"⟩ (by rw [hgrants]; simp)

end System

end ApiExposure
