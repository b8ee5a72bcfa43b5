import ApiExposure.Proofs.Authorization.Granting
import ApiExposure.Proofs.Interleaving.Serial
import ApiExposure.Proofs.Invokers.Isolation
import ApiExposure.Proofs.Invokers.Offboarding
import ApiExposure.Proofs.Revocation.History
import ApiExposure.Proofs.WriteBack.Held

/-!
# What an onboarding grants

An invoker asks for APIs before its client is registered, and it is granted what
these offer when the registration is over: the store is read again then. What
comes more than once stays where it comes first. As the APIs in the store have
live functions, each grant is live, so of the grants for one call the first one
decides. A call of somebody who was never onboarded is revoked only by its name;
if nobody did that, nothing but an expiry is in the way of the new invoker.
-/

namespace ApiExposure

namespace InvokerIdentity

/-- Grants that are added to none stay where they come first. -/
theorem grants_foldl_addGrant {i : InvokerIdentity} (hi : i.grants = []) (grants : List Grant) :
    (grants.foldl addGrant i).grants = grants.eraseDups := by
  induction grants using List.reverseRecOn with
  | nil => exact hi
  | append_singleton gs g ih =>
    rw [List.foldl_concat, addGrant, holds, ih, List.eraseDups_append, List.removeAll]
    by_cases hg : g ∈ gs
    · have hheld : gs.eraseDups.contains g = true := by simpa using hg
      rw [if_pos hheld, ih]
      simp [hg]
    · have hnew : gs.eraseDups.contains g = false := by simpa using hg
      rw [if_neg (Bool.eq_false_iff.mp hnew)]
      simp [hg, List.eraseDups_cons]

end InvokerIdentity

/-- The version that a grant is for, in the stored API that it names. -/
def Publications.versionFor? (s : Publications) (g : Grant) : Option ApiVersion :=
  (s.apis.get? g.api).bind (fun a => a.version? g.version)

namespace Publications.WellFormed

variable {s : Publications}

/-- What some APIs offer, written out: for each one that is stored, each profile with each
version. -/
theorem grantable_eq (hs : s.WellFormed) (ids : List ApiId) :
    s.grantable ids = ids.flatMap (fun id =>
      match s.apis.get? id with
      | some a => a.description.profiles.flatMap (fun p =>
          a.description.versions.map (fun v => ⟨id, p.exposer, a.name, v.name⟩))
      | none => []) := by
  refine List.flatMap_congr fun id _ => ?_
  cases ha : s.apis.get? id with
  | none => rfl
  | some a =>
    dsimp only
    rw [PublishedApi.grantable, (hs id a ha).own]

end Publications.WellFormed

namespace Core

/-- What an onboarding comes to in the state that it finds when the client is registered: the
identity, and the state that is left. -/
structure Onboards (c : Core) (id : InvokerId) (e : Enrolment) (now : Instant)
    (i : InvokerIdentity) (after : Core) : Prop where
  /-- The grants are for the APIs asked for that are stored, in this order: each profile with each
  version, and each grant where it comes first. -/
  grants : i.grants = (e.requested.flatMap (fun api =>
    match c.store.apis.get? api with
    | some a => a.description.profiles.flatMap (fun p =>
        a.description.versions.map (fun v => ⟨api, p.exposer, a.name, v.name⟩))
    | none => [])).eraseDups
  /-- The rest is as the invoker enrolled. -/
  identity : i = { InvokerIdentity.ofEnrolment id e now with grants := i.grants }
  /-- Nobody was onboarded under the identifier. -/
  free : c.invokers.table.get? id = none
  /-- The invoker is the last one; those before it are as they were. -/
  invokers : after.invokers.table.entries = c.invokers.table.entries ++ [(id, i)]
  /-- Nothing else is changed. -/
  rest : after = { c with invokers := after.invokers }
  /-- The call of a grant is allowed unless the version has expired, when no grant before it is for
  the same call. -/
  decision : ∀ before g others, i.grants = before ++ g :: others →
    (∀ h ∈ before, h.covers (g.call id) = false) →
    ∃ v, c.store.versionFor? g = some v ∧ ∀ later, after.check (g.call id) later =
      .ok (if ApiVersion.hasPassed v.expiry later then .deny .expired else .allow)

variable {c : Core} {id : InvokerId} {e : Enrolment} {o : Occasion} {now : Instant}

/-- The version through which a grant is live is the one that it is for. -/
theorem versionFor?_of_liveFor (hc : c.store.WellFormed) {call : Call} {g : Grant}
    {a : PublishedApi} {v : ApiVersion} (h : c.LiveFor call g a v) :
    c.store.versionFor? g = some v := by
  rw [Publications.versionFor?, h.stored, Option.bind_some]
  have hversion : v.name = g.version := h.version.trans h.covers.2.2.symm
  exact (PublishedApi.version?_eq_some_iff (hc g.api a h.stored).sound).mpr ⟨h.listed, hversion⟩

/-- A live grant is the first live one for a call when none before it is for the call. -/
theorem exists_firstLive {call : Call} {grants before others : List Grant} {g : Grant}
    (hgrants : grants = before ++ g :: others) (hlive : c.HasLive call g)
    (hbefore : ∀ h ∈ before, h.covers call = false) :
    ∃ a v, c.FirstLive call grants g a v := by
  obtain ⟨a, v, hlive⟩ := hlive
  refine ⟨a, v, hlive, before, others, hgrants, ?_⟩
  rintro h hh ⟨_, _, hother⟩
  have hcovers : h.covers call = true := by simpa [Grant.covers, and_assoc] using hother.covers
  rw [hbefore h hh] at hcovers
  cases hcovers

/-- The identity of an invoker that is onboarded in a state. -/
def newcomer (c : Core) (id : InvokerId) (e : Enrolment) (now : Instant) : InvokerIdentity :=
  { InvokerIdentity.ofEnrolment id e now with grants := (c.store.grantable e.requested).eraseDups }

/-- The state with the invoker. -/
def withNewcomer (c : Core) (id : InvokerId) (e : Enrolment) (now : Instant) : Core :=
  { c with invokers := ⟨c.invokers.table.insert id (c.newcomer id e now)⟩ }

/-- A valid enrolment is entered under an identifier that is free. -/
theorem onboardAs_eq_ok (he : e.validate = .ok ()) (hfree : c.invokers.table.get? id = none)
    (now : Instant) :
    c.invokers.onboardAs id e (c.store.grantable e.requested) now =
      .ok (c.newcomer id e now, (c.withNewcomer id e now).invokers) := by
  have hidentity : (c.store.grantable e.requested).foldl InvokerIdentity.addGrant
      (.ofEnrolment id e now) = c.newcomer id e now := by
    rw [InvokerIdentity.foldl_addGrant_eq, InvokerIdentity.grants_foldl_addGrant rfl, newcomer]
  have hcontains : c.invokers.contains id = false := Table.contains_eq_false_iff.mpr hfree
  refine Outcome.andThen_eq_ok_iff.mpr ⟨he, ?_⟩
  dsimp only
  rw [hidentity, hcontains, if_neg Bool.false_ne_true, withNewcomer]

/-- Before that its result is open. -/
theorem unsettled_onboard (he : e.validate = .ok ()) (r : Outcome OnboardedInvoker) :
    ¬ (c.onboard e o).Settled r :=
  Command.unsettled_of_outages (c := c)
    (fun outage => ⟨.client (.error outage), by simp only [onboard, he, Flow.resume]⟩) r

/-- With the client registered an onboarding goes on in the state that it finds then. -/
theorem resume_onboard (he : e.validate = .ok ()) {found : Core}
    (hfree : found.invokers.table.get? (.generate (o.suffix 0)) = none)
    (credentials : ClientCredentials) :
    (c.onboard e o).resume (.client (.ok credentials)) found =
      some (.announce (found.withNewcomer (.generate (o.suffix 0)) e o.now)
        (.ofInvoker .invokerOnboarded (.generate (o.suffix 0))) (fun c =>
          .done c (.ok ⟨found.newcomer (.generate (o.suffix 0)) e o.now, credentials⟩))) := by
  simp only [onboard, he, Flow.resume, onboardAs_eq_ok he hfree, withNewcomer]

/-- An invoker that is entered where functions have not left their APIs behind, and under an
identifier of which no call is revoked, can make its calls. -/
theorem onboards_withNewcomer (hc : c.store.WellFormed) (hb : c.Backed)
    (hid : Text.isBlank id.text = false) (hfree : c.invokers.table.get? id = none)
    (hr : ∀ call, call.invoker = id → c.ledger.isRevoked call = false)
    (e : Enrolment) (now : Instant) :
    c.Onboards id e now (c.newcomer id e now) (c.withNewcomer id e now) where
  grants := congrArg List.eraseDups (hc.grantable_eq e.requested)
  identity := rfl
  free := hfree
  invokers := Table.entries_insert_of_not_contains (Table.contains_eq_false_iff.mpr hfree)
  rest := rfl
  decision := by
    intro before g others hgrants hbefore
    have hmem : g ∈ (c.store.grantable e.requested).eraseDups := by
      rw [show (c.store.grantable e.requested).eraseDups = before ++ g :: others from hgrants]
      exact List.mem_append_right _ List.mem_cons_self
    obtain ⟨_, hoffered⟩ := hc.mem_grantable_iff_offers.mp (List.mem_eraseDups.mp hmem)
    have hcall : (g.call id).hasBlank = false :=
      Grant.hasBlank_call hid (hc.complete_of_offers hoffered)
    have hlive : (c.withNewcomer id e now).HasLive (g.call id) g :=
      hasLive_of_offers (c := c.withNewcomer id e now) hc hb hoffered id
    obtain ⟨a, v, hfirst⟩ := exists_firstLive hgrants hlive hbefore
    have hself : (c.withNewcomer id e now).invokers.table.get? (g.call id).invoker =
        some (c.newcomer id e now) := Table.get?_insert_self _ _ _
    exact ⟨v, versionFor?_of_liveFor (c := c.withNewcomer id e now) hc hfirst.live,
      hfirst.check (c := c.withNewcomer id e now) hc hcall hself (hr _ rfl)⟩

end Core

/-- A command revokes a call by its name, or the caller is onboarded. -/
theorem Command.Revokes.named_or_enrolled {command : Command} {c : Core} {call : Call}
    (h : command.Revokes c call) :
    command = .revoke call ∨ c.invokers.table.get? call.invoker ≠ none := by
  cases command with
  | revoke named => exact .inl (congrArg Command.revoke h)
  | revokeAccess id scope =>
    obtain ⟨i, hi, g, _, _, rfl⟩ := h
    exact .inr (by simp [Grant.call, hi])
  | offboard id =>
    obtain ⟨i, hi, g, _, rfl⟩ := h
    exact .inr (by simp [Grant.call, hi])
  | _ => cases h

namespace System

variable {s u v : System} {past ms : List Move} {t : Ticket} {e : Enrolment} {o : Occasion}

/-- A call that is revoked was so by its name, or its invoker has been onboarded. -/
theorem spent_or_named_of_isRevoked (h : fresh.run ms = some s) {call : Call}
    (hr : s.core.ledger.isRevoked call = true) :
    s.InvokerSpent call.invoker ∨ .revoke call ∈ ms.filterMap Move.command? := by
  refine run_induction (P := fun ms s => s.core.ledger.isRevoked call = true →
    s.InvokerSpent call.invoker ∨ .revoke call ∈ ms.filterMap Move.command?) ?_ ?_ h hr
  · exact fun hr => nomatch hr
  · intro ms m s u hs ih hm hr
    rcases (isRevoked_step (tracked_run hs) (complete_run hs).2 hm call).mp hr with
      ⟨j, a, hj, hrevokes⟩ | ⟨hr, _⟩
    · rcases hrevokes.named_or_enrolled with hnamed | henrolled
      · have hstart := start_mem_run (run_concat_eq_some.mpr ⟨s, hs, hm⟩) hj.job
        exact .inr (List.mem_filterMap.mpr ⟨_, hstart, congrArg some hnamed⟩)
      · exact .inl ((invokersSpent_run hs _ henrolled).step hm)
    · rw [List.filterMap_append]
      exact (ih hr).imp (·.step hm) (List.mem_append_left _)

/-- What an onboarding finds when its client is registered: nobody is under the identifier that it
has generated, and no call of this one is revoked unless by its name. -/
theorem untouched_of_onboarding (hf : FreshIds (past ++ .start t (.onboard e) o :: ms))
    (hpast : fresh.run past = some s) (he : e.validate = .ok ())
    (hms : ∀ m ∈ ms, m.ticket ≠ t) (hrun : s.run (.start t (.onboard e) o :: ms) = some v)
    (hunnamed : ∀ call, .revoke call ∈ (past ++ ms).filterMap Move.command? →
      call.invoker ≠ .generate (o.suffix 0)) :
    v.jobs t = some ⟨.onboard e, o, s.core.onboard e o⟩ ∧
      v.core.invokers.table.get? (.generate (o.suffix 0)) = none ∧
      ∀ call, call.invoker = .generate (o.suffix 0) → v.core.ledger.isRevoked call = false := by
  have hv : fresh.run (past ++ .start t (.onboard e) o :: ms) = some v :=
    run_append_eq_some.mpr ⟨s, hpast, hrun⟩
  obtain ⟨hjob, _⟩ := run_while_waiting rfl hms hrun
  have hwaits : ¬ (Job.mk (.onboard e) o (s.core.onboard e o)).IsSettled :=
    fun ⟨r, hr⟩ => Core.unsettled_onboard he r hr
  have hspent : ¬ v.InvokerSpent (.generate (o.suffix 0)) := by
    rintro ⟨suffix, hused, hid⟩
    obtain rfl := InvokerId.generate_injective hid
    exact (orderly_run hf hv).not_used hjob hwaits hused
  refine ⟨hjob, ?_, fun call hcall => Bool.eq_false_iff.mpr fun hr => ?_⟩
  · by_contra hne
    exact hspent (invokersSpent_run hv _ hne)
  · rcases spent_or_named_of_isRevoked hv hr with h | hnamed
    · exact hspent (hcall ▸ h)
    · refine hunnamed call ?_ hcall
      simpa [List.filterMap_append, Move.command?] using hnamed

/-- Onboardings are exact. Whatever others do while the client is registered, a valid enrolment is
entered with the grants for what it asks for as it is stored then, and this changes nothing but the
registry of invokers, to which it adds one at the end; what the others did is what they do without
it. The new invoker can make the calls of its grants, but for expired versions, if no operation has
revoked a call by the name of the generated identifier; of several grants for one call the first
one decides. -/
theorem onboarding_exact (hf : FreshIds (past ++ .start t (.onboard e) o :: ms))
    (hpast : fresh.run past = some s) (he : e.validate = .ok ())
    (hms : ∀ m ∈ ms, m.ticket ≠ t) (hrun : s.run (.start t (.onboard e) o :: ms) = some v)
    (hunnamed : ∀ call, .revoke call ∈ (past ++ ms).filterMap Move.command? →
      call.invoker ≠ .generate (o.suffix 0)) (credentials : ClientCredentials) :
    (∃ w, s.run ms = some w ∧ w.core = v.core) ∧
    ∃ u i, v.step (.resume t (.client (.ok credentials))) = some u ∧
      u.HasResult t (.onboard e) o (.ok ⟨i, credentials⟩) ∧
      v.core.Onboards (.generate (o.suffix 0)) e o.now i u.core := by
  obtain ⟨hjob, hfree, hrevoked⟩ := untouched_of_onboarding hf hpast he hms hrun hunnamed
  have hv : fresh.run (past ++ .start t (.onboard e) o :: ms) = some v :=
    run_append_eq_some.mpr ⟨s, hpast, hrun⟩
  obtain ⟨_, w, hw, hagree⟩ := run_while_waiting rfl hms hrun
  have hgoes := Core.resume_onboard (c := s.core) he hfree credentials
  refine ⟨⟨w, hw, hagree.core⟩, _, v.core.newcomer (.generate (o.suffix 0)) e o.now,
    step_resume.mpr ⟨_, _, hjob, hgoes, rfl⟩, ⟨_, jobs_advance_self _ _ _, ?_⟩, ?_⟩
  · exact fun _ => ⟨rfl, rfl⟩
  · exact Core.onboards_withNewcomer (wellFormed_run hv) (integral_run hf hv).backed
      (InvokerId.generate_not_blank _) hfree hrevoked e o.now

/-- An enrolment that asks for one API twice, for one that is not there, and for one that is not
there yet. -/
def eagerEnrolment : Enrolment where
  onboarding := { publicKey := "key" }
  requested := [.generate "b", ⟨"unknown"⟩, .generate "b", .generate "d"]

/-- The last one is published while the client is registered. -/
def publishedMeanwhile : List Move := [
  .start 3 otherPublication (.lettered 'd' default), .resume 3 (.errand (.ok ()))]

/-- The grant for the API that is published meanwhile. -/
def lateGrant : Grant := ⟨.generate "d", .generate .exposer "aaa", "tiles", "v1"⟩

/-- The invoker is granted both APIs, each once, and may call the one that was published while its
client was registered. -/
theorem onboarding_exact_sample :
    FreshIds (sampleSchedule ++
        .start 2 (.onboard eagerEnrolment) (.lettered 'c' default) :: publishedMeanwhile) ∧
      ∃ s v u i, fresh.run sampleSchedule = some s ∧
        s.run (.start 2 (.onboard eagerEnrolment) (.lettered 'c' default) :: publishedMeanwhile) =
          some v ∧
        v.step (.resume 2 (.client (.ok ⟨"client", "secret"⟩))) = some u ∧
        v.core.Onboards (.generate "c") eagerEnrolment default i u.core ∧
        i.grants = [sampleGrant, lateGrant] ∧
        u.core.check (lateGrant.call (.generate "c")) default = .ok .allow := by
  have hf : FreshIds (sampleSchedule ++
      .start 2 (.onboard eagerEnrolment) (.lettered 'c' default) :: publishedMeanwhile) :=
    .of_letters ['a', 'b', 'c', 'd'] (by decide) rfl
  have hrun : (fresh.run sampleSchedule).bind (fun s =>
      (s.run (.start 2 (.onboard eagerEnrolment) (.lettered 'c' default) ::
        publishedMeanwhile)).map (fun v =>
          ((v.core.store.grantable eagerEnrolment.requested).eraseDups,
            (v.core.store.versionFor? lateGrant).map (·.expiry)))) =
      some ([sampleGrant, lateGrant], some none) := by
    decide +kernel
  have hunnamed : ∀ call, .revoke call ∈
      (sampleSchedule ++ publishedMeanwhile).filterMap Move.command? →
        call.invoker ≠ .generate "c" := by
    intro call h
    simp [sampleSchedule, publishedMeanwhile, otherPublication, Move.command?] at h
  obtain ⟨s, hs, h⟩ := Option.bind_eq_some_iff.mp hrun
  obtain ⟨v, hv, h⟩ := Option.map_eq_some_iff.mp h
  obtain ⟨hgrants, hexpiry⟩ := Prod.mk.inj h
  have hothers : ∀ m ∈ publishedMeanwhile, m.ticket ≠ 2 := by
    simp [publishedMeanwhile, Move.ticket]
  obtain ⟨-, u, i, hu, -, honboards⟩ :=
    onboarding_exact hf hs rfl hothers hv hunnamed ⟨"client", "secret"⟩
  have hwell : v.core.store.WellFormed :=
    wellFormed_run (run_append_eq_some.mpr ⟨s, hs, hv⟩)
  have hlist : i.grants = [sampleGrant, lateGrant] := by
    rw [honboards.grants, ← hwell.grantable_eq, hgrants]
  obtain ⟨version, hversion, hcheck⟩ := honboards.decision [sampleGrant] lateGrant [] hlist
    (by decide)
  refine ⟨hf, s, v, u, i, hs, hv, hu, honboards, hlist, (hcheck default).trans ?_⟩
  rw [hversion, Option.map_some, Option.some.injEq] at hexpiry
  rw [hexpiry]
  rfl

end System

end ApiExposure
