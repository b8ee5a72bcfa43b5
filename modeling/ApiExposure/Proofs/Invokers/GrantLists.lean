import ApiExposure.Proofs.Authorization.Granting
import ApiExposure.Proofs.Registry.Table
import ApiExposure.Proofs.Revocation.Scope

/-!
# Grant lists are sets

An onboarding brings its grants, an explicit grant adds one, and a removal takes
one out. None of them leaves a grant twice in the list of an invoker, so the
removal of a grant ends what it alone allowed: there is no second copy that would
still cover the call. What was added at the end of a list and is taken out again
leaves the list that was there before, and of the rest only the line of the call
in the ledger may have changed.
-/

namespace ApiExposure

namespace InvokerIdentity

/-- Grants that are added one after the other leave no repetition. -/
theorem nodup_foldl_addGrant {i : InvokerIdentity} (hi : i.grants.Nodup) (grants : List Grant) :
    (grants.foldl addGrant i).grants.Nodup := by
  induction grants generalizing i with
  | nil => exact hi
  | cons g gs ih => exact ih (nodup_addGrant hi g)

end InvokerIdentity

/-- No invoker has a grant twice. -/
def Invokers.Distinct (r : Invokers) : Prop := r.table.All (·.grants.Nodup)

/-- Every effect leaves the grants of every invoker without repetition. -/
theorem Effect.distinct {o : Occasion} {command : Command} {c d : Core}
    {r : Outcome command.Result} (h : Effect o command c r d) (hc : c.invokers.Distinct) :
    d.invokers.Distinct := by
  cases h with
  | onboarded h =>
    obtain ⟨_, rfl, rfl⟩ := Invokers.of_onboardAs_eq_ok h
    refine hc.insert (InvokerIdentity.nodup_foldl_addGrant ?_ _) _
    exact List.nodup_nil
  | invokerUpdated h =>
    obtain ⟨held, hheld, rfl, rfl⟩ := Invokers.of_update_eq_ok h
    refine hc.insert ?_ _
    exact hc _ held hheld
  | offboarded h =>
    obtain ⟨_, rfl⟩ := Invokers.of_deregister_eq_ok h
    exact hc.erase _
  | granted _ _ _ h =>
    obtain ⟨held, hheld, _, rfl⟩ := Invokers.of_grant_eq_ok h
    exact hc.insert (InvokerIdentity.nodup_addGrant (hc _ held hheld) _) _
  | grantRemoved h =>
    obtain ⟨held, hheld, rfl⟩ := Invokers.of_removeGrant_eq_ok h
    have hgrants : held.grants.Nodup := hc _ held hheld
    exact hc.insert (hgrants.filter _) _
  | _ => exact hc

/-- In every state that may be seen no invoker has a grant twice. -/
theorem System.Seen.distinct {s : System} (hs : s.Seen) : s.core.invokers.Distinct :=
  hs.core_invariant (P := fun c => c.invokers.Distinct) Table.all_empty
    (fun _ hc he => he.distinct hc) (fun _ hc => hc) fun _ _ hc => hc

namespace Core

/-- A grant that is taken back comes to this: the state that is left. -/
structure TakesBack (c : Core) (id : InvokerId) (g : Grant) (after : Core) : Prop where
  /-- The invoker loses that one grant and has the others in their order. -/
  identity : ∃ i before others, c.invokers.table.get? id = some i ∧
    i.grants = before ++ g :: others ∧ g ∉ before ++ others ∧
    after.invokers.table.get? id = some { i with grants := before ++ others }
  /-- No other invoker is changed. -/
  others : ∀ k, k ≠ id → after.invokers.table.get? k = c.invokers.table.get? k
  /-- All invokers keep their places. -/
  places : after.invokers.table.keys = c.invokers.table.keys
  /-- Nothing is revoked and nothing reinstated. -/
  ledger : after.ledger = c.ledger
  /-- Nothing else is changed. -/
  rest : after = { c with invokers := after.invokers }
  /-- A call that the invoker had no other grant for is not granted any more. -/
  denied : ∀ call, call.invoker = id → g.covers call = true →
    (∀ h, c.invokers.Holds id h → h.covers call = true → h = g) →
    ∀ now, after.check call now = .ok (.deny .notGranted)
  /-- What the grant was not for is decided as before. -/
  decisions : ∀ call, ¬ (call.invoker = id ∧ g.covers call = true) →
    ∀ now, after.check call now = c.check call now

variable {c : Core} {id : InvokerId} {g : Grant} {i : InvokerIdentity} {call : Call}
  {now : Instant} {grants : List Grant}

/-- The invoker is looked up first, then the grant. -/
theorem removeGrant_eq (c : Core) (id : InvokerId) (g : Grant) :
    c.removeGrant id g =
      match c.invokers.table.get? id with
      | none => .error (.notFound (.invoker id))
      | some i =>
        if g ∈ i.grants then .ok ((), c.withGrants id i (i.grants.filter (· != g)))
        else .error (.notFound (.grant g.api g.exposer id)) := by
  unfold removeGrant Invokers.removeGrant Invokers.get
  cases c.invokers.table.get? id with
  | none => rfl
  | some i =>
    simp only [InvokerIdentity.holds, List.contains_eq_mem, decide_eq_true_eq, bind, Except.bind]
    by_cases hg : g ∈ i.grants
    · simp only [hg, if_true]
      rfl
    · simp only [hg, if_false]

/-- Only a grant that is held can be taken back. -/
theorem removeGrant_of_not_holds (h : ¬ c.invokers.Holds id g) :
    c.removeGrant id g = .error (if c.invokers.contains id then .notFound (.grant g.api g.exposer id)
      else .notFound (.invoker id)) := by
  rw [removeGrant_eq, Invokers.contains, Table.contains]
  cases hi : c.invokers.table.get? id with
  | none => rfl
  | some i => exact if_neg fun hg => h ⟨i, hi, hg⟩

/-- Where no grant covers a call nothing is granted. -/
theorem judge_of_not_covers (h : ∀ k ∈ grants, k.covers call = false) :
    c.judge call now grants = .deny .notGranted := by
  have hnone : grants.filter (·.covers call) = [] :=
    List.filter_eq_nil_iff.mpr fun k hk => Bool.eq_false_iff.mp (h k hk)
  rw [judge, granted?, hnone]
  rfl

/-- A grant that does not cover a call does not matter to it. -/
theorem judge_of_covers_eq_false {before others : List Grant} (h : g.covers call = false) :
    c.judge call now (before ++ others) = c.judge call now (before ++ g :: others) := by
  have hsame : (before ++ others).filter (·.covers call) =
      (before ++ g :: others).filter (·.covers call) := by
    simp only [List.filter_append, List.filter_cons, h, Bool.false_eq_true, if_false]
  rw [judge, judge, granted?, granted?, hsame]

/-- A grant that stands once in the list of its invoker is taken back. -/
theorem takesBack_withGrants (hcomplete : c.invokers.Complete)
    (hi : c.invokers.table.get? id = some i) {before others : List Grant}
    (hgrants : i.grants = before ++ g :: others) (hg : g ∉ before ++ others) :
    c.TakesBack id g (c.withGrants id i (before ++ others)) := by
  have hheld : g ∈ i.grants := hgrants ▸ List.mem_append_right _ List.mem_cons_self
  refine ⟨⟨i, before, others, hi, hgrants, hg, Table.get?_insert_self _ _ _⟩,
    fun k hk => Table.get?_insert_of_ne _ _ hk, ?_, rfl, rfl, ?_, ?_⟩
  · have hthere : c.invokers.table.contains id = true := by rw [Table.contains, hi]; rfl
    exact Table.keys_insert_of_contains hthere
  · intro call hcall hcovers honly now
    subst hcall
    have hcomplete : call.hasBlank = false := by
      have hblank := Grant.hasBlank_call (hcomplete _ i hi).1 ((hcomplete _ i hi).2 g hheld)
      rwa [Grant.covers_iff.mp hcovers] at hblank
    have huncovered : ∀ h ∈ before ++ others, h.covers call = false := by
      intro h hh
      have hin : h ∈ i.grants := by
        rw [hgrants]
        exact List.mem_append.mpr ((List.mem_append.mp hh).imp_right (List.mem_cons_of_mem _))
      exact Bool.eq_false_iff.mpr fun hc => hg (honly h ⟨i, hi, hin⟩ hc ▸ hh)
    rw [check_withGrants hcomplete, judge_of_not_covers huncovered]
  · intro call hcall now
    by_cases hid : call.invoker = id
    · subst hid
      have hcovers : g.covers call = false := Bool.eq_false_iff.mpr fun hc => hcall ⟨rfl, hc⟩
      cases hb : call.hasBlank with
      | true => rw [check_of_hasBlank hb, check_of_hasBlank hb]
      | false =>
        rw [check_withGrants hb, check_eq_judge hb hi, hgrants, judge_of_covers_eq_false hcovers]
    · exact check_withGrants_of_ne hid

/-- What is given at the end of a list and taken back leaves the list that was there. -/
theorem removeGrant_given (hi : c.invokers.table.get? id = some i) (hg : g ∉ i.grants)
    (now : Instant) :
    (c.given id i g now).removeGrant id g =
      .ok ((), { c with ledger := (c.given id i g now).ledger }) := by
  have hadded : i.addGrant g = { i with grants := i.grants ++ [g] } := by
    rw [InvokerIdentity.addGrant, InvokerIdentity.holds, if_neg (by simpa using hg)]
  have hself : (c.given id i g now).invokers.table.get? id =
      some { i with grants := i.grants ++ [g] } := by
    rw [← hadded]
    exact Table.get?_insert_self _ _ _
  have hleft : (i.grants ++ [g]).filter (· != g) = i.grants := by
    have hothers : i.grants.filter (· != g) = i.grants :=
      List.filter_eq_self.mpr fun h hh => bne_iff_ne.mpr fun heq => hg (heq ▸ hh)
    rw [List.filter_append, hothers, List.filter_cons_of_neg (by simp), List.filter_nil,
      List.append_nil]
  have htable : (c.invokers.table.insert id (i.addGrant g)).insert id i = c.invokers.table := by
    rw [Table.insert_insert, Table.insert_of_get? hi]
  rw [removeGrant_eq, hself]
  dsimp only
  rw [if_pos (List.mem_append_right _ (List.mem_singleton_self g)), hleft]
  simp only [withGrants, given, htable]

end Core

namespace System

/-- Grant lists are sets: in every state that may be seen no invoker has a grant twice or one with
a blank field. A grant that an invoker holds is taken back on request, and nothing else is. One
that it does not hold cannot be taken back, and if it is given first, then both together leave
the lists of all invokers as they were. -/
theorem grant_lists_are_sets {s : System} (hs : s.Seen) :
    (∀ id i, s.core.invokers.table.get? id = some i →
      i.grants.Nodup ∧ ∀ g ∈ i.grants, g.hasBlank = false) ∧
    ∀ (id : InvokerId) (g : Grant) (o p : Occasion),
      (s.core.invokers.Holds id g →
        ∃ after, (Command.removeGrant id g).start o s.core = .done after (.ok ()) ∧
          s.core.TakesBack id g after) ∧
      (¬ s.core.invokers.Holds id g →
        (Command.removeGrant id g).start o s.core = .done s.core
          (.error (if s.core.invokers.contains id then .notFound (.grant g.api g.exposer id)
            else .notFound (.invoker id))) ∧
        ∃ given r q, (Command.grant id g).start o s.core = .done given r ∧
          (Command.removeGrant id g).start p given =
            .done { s.core with ledger := given.ledger } q ∧
          (q = .ok () ↔ r = .ok ())) := by
  have hwell : s.core.store.WellFormed := hs.tracked_and_wellFormed.2
  refine ⟨fun id i hi => ⟨hs.distinct id i hi, (hs.complete id i hi).2⟩,
    fun id g o p => ⟨fun hholds => ?_, fun hnot => ?_⟩⟩
  · obtain ⟨i, hi, hg⟩ := hholds
    have hnodup : i.grants.Nodup := hs.distinct id i hi
    obtain ⟨before, others, -, hgrants, herase⟩ := List.exists_erase_eq hg
    have hleft : i.grants.filter (· != g) = before ++ others := by
      rw [← hnodup.erase_eq_filter, herase]
    have hgone : g ∉ before ++ others := herase ▸ hnodup.not_mem_erase
    refine ⟨_, ?_, Core.takesBack_withGrants hs.complete hi hgrants hgone⟩
    rw [Command.start, Core.removeGrant_eq, hi]
    dsimp only
    rw [if_pos hg, hleft]
    rfl
  · have hrefused : ∀ o, (Command.removeGrant id g).start o s.core = .done s.core
        (.error (if s.core.invokers.contains id then .notFound (.grant g.api g.exposer id)
          else .notFound (.invoker id))) := fun o => by
      rw [Command.start, Core.removeGrant_of_not_holds hnot]
      rfl
    refine ⟨hrefused o, ?_⟩
    by_cases hgiven : s.core.invokers.contains id = true ∧ s.core.store.Offers g
    · obtain ⟨i, hi⟩ := Option.isSome_iff_exists.mp hgiven.1
      have hg : g ∉ i.grants := fun hg => hnot ⟨i, hi, hg⟩
      refine ⟨s.core.given id i g o.now, .ok (), .ok (), ?_, ?_, Iff.rfl⟩
      · rw [Command.start, Core.grant_eq_ok hwell hi hgiven.2]
        rfl
      · rw [Command.start, Core.removeGrant_given hi hg]
        rfl
    · obtain ⟨f, hf⟩ := Core.exists_refusesGrant hwell hgiven
      refine ⟨s.core, .error f, _, ?_, hrefused p, by simp⟩
      rw [Command.start, hf.grant_eq_error hwell]
      rfl

/-- The invoker with two grants for the shared call loses the first one. -/
def firstTakenBack : List Move := sharedSchedule ++ [
  .start 4 (.removeGrant (.generate "d") firstGrant) (.lettered 'e' default)]

/-- The second one is taken back as well, and then the call is not granted. The first one may be
given again and taken back. -/
theorem grant_lists_are_sets_sample :
    ∃ s after given, Seen s ∧ s.core.check sharedCall default = .ok .allow ∧
      (Command.removeGrant (.generate "d") secondGrant).start (.lettered 'f' default) s.core =
        .done after (.ok ()) ∧
      s.core.TakesBack (.generate "d") secondGrant after ∧
      after.check sharedCall default = .ok (.deny .notGranted) ∧
      (Command.grant (.generate "d") firstGrant).start (.lettered 'f' default) s.core =
        .done given (.ok ()) ∧
      (Command.removeGrant (.generate "d") firstGrant).start (.lettered 'g' default) given =
        .done { s.core with ledger := given.ledger } (.ok ()) := by
  let giving (s : System) := performAlone
    ((Command.grant (.generate "d") firstGrant).start (.lettered 'f' default) s.core)
  have hrun : (fresh.run firstTakenBack).bind (fun s =>
      (s.core.invokers.table.get? (.generate "d")).map (fun i =>
        (s.core.check sharedCall default, i.grants, (giving s).2))) =
      some (.ok .allow, [secondGrant], .ok ()) := rfl
  obtain ⟨s, hs, h⟩ := Option.bind_eq_some_iff.mp hrun
  obtain ⟨i, hi, h⟩ := Option.map_eq_some_iff.mp h
  simp only [Prod.mk.injEq] at h
  obtain ⟨hallow, hgrants, hresult⟩ := h
  have hholds : ∀ g, s.core.invokers.Holds (.generate "d") g ↔ g = secondGrant := by
    intro g
    simp only [Invokers.Holds, hi, Option.some.injEq, exists_eq_left', hgrants, List.mem_singleton]
  have hseen : s.Seen := seen_run hs
  obtain ⟨-, hcommands⟩ := grant_lists_are_sets hseen
  obtain ⟨after, hremoved, hafter⟩ := (hcommands (.generate "d") secondGrant
    (.lettered 'f' default) (.lettered 'g' default)).1 ((hholds _).mpr rfl)
  obtain ⟨-, given, r, q, hgiven, hleft, hiff⟩ := (hcommands (.generate "d") firstGrant
    (.lettered 'f' default) (.lettered 'g' default)).2 fun h => absurd ((hholds _).mp h) (by decide)
  have hr : r = .ok () := by
    have hperform : (giving s).2 = r := by
      simp only [giving, hgiven]
      rfl
    exact hperform.symm.trans hresult
  obtain rfl := hiff.mpr hr
  have hdenied := hafter.denied sharedCall rfl (by decide) (fun h hh _ => (hholds h).mp hh) default
  exact ⟨s, after, given, hseen, hallow, hremoved, hafter, hdenied, hr ▸ hgiven, hleft⟩

end System

end ApiExposure
