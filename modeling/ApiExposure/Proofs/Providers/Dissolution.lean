import ApiExposure.Proofs.Collaborators.Outages
import ApiExposure.Proofs.Providers.Departures
import ApiExposure.Proofs.Publications.Fallout

/-!
# What the removal of a domain does

A domain goes with its functions, and with it everything that goes with these. All
of this happens as the removal starts. What follows are calls that can fail without
any consequence: the endpoint of each API that went is taken down and the withdrawal
made known, in the order of publication, and after that the updates of the APIs that
lost profiles, in the same order. Nothing else is touched, in the store or elsewhere.
-/

namespace ApiExposure

open PublishedApi

namespace Core

/-- What the removal of a domain with these functions comes to: the state that it leaves and the
calls that it makes. -/
structure Dissolves (c : Core) (id : DomainId) (functions : List FunctionId) (now : Instant)
    (after : Core) (calls : List Contact) : Prop where
  /-- The APIs that do not go stay in their order, without the profiles of the functions. -/
  apis : after.store.apis.entries =
    (c.store.apis.entries.filter (fun e => ¬ e.2.GoesWith functions)).map
      (fun e => (e.1, e.2.cut functions now))
  /-- An API that names none of the functions stays as it was. -/
  untouched : ∀ key a, c.store.apis.get? key = some a → a.publisher ∉ functions →
    (∀ e ∈ a.description.exposers, e ∉ functions) → after.store.apis.get? key = some a
  /-- The names of the APIs that stay are kept, in their order. -/
  names : after.store.names.entries =
    c.store.names.entries.filter (fun e => after.store.contains e.2)
  /-- The domain is gone. -/
  domains : after.providers.domains = c.providers.domains.erase id
  /-- So are its functions. -/
  index : after.providers.functions.entries =
    c.providers.functions.entries.filter (fun e => e.1 ∉ functions)
  /-- Invokers keep their grants. -/
  invokers : after.invokers = c.invokers
  /-- No call is revoked or let in again. -/
  ledger : after.ledger = c.ledger
  /-- No security context changes. -/
  trusted : after.trusted = c.trusted
  /-- No subscription changes. -/
  subscriptions : after.subscriptions = c.subscriptions
  /-- For every API that went its endpoint is taken down and its withdrawal made known; then the
  updates of the APIs that lost profiles are made known. -/
  calls : calls =
    (c.store.apis.values.filter (GoesWith functions)).flatMap (fun a =>
        [.errand (.deprovision a.id a.publisher), .notice (a.withdrawal functions)]) ++
      (c.store.apis.values.filter (LosesTo functions)).map (fun a =>
        .notice (.ofApi .apiUpdated (a.cut functions now)))

/-- So does the removal of a domain from a state with a well-formed store and a right index. -/
theorem dissolves_without {c : Core} (hs : c.store.WellFormed) (hi : c.store.Indexed)
    (id : DomainId) (functions : List FunctionId) (now : Instant) :
    c.Dissolves id functions now (c.without id functions now)
      ((c.store.invalidate functions now).2.deeds.map Contact.ofDeed) where
  apis := hs.entries_invalidate functions now
  untouched := fun key a ha hpublisher hexposers => by
    have hdepends : Publications.dependsOn functions a = false := by
      simpa [Publications.dependsOn] using ⟨hpublisher, hexposers⟩
    have hsurvivor : a.survivor functions now = some a :=
      Publications.survivor_of_not_dependsOn (hs key a ha).sound.profiles.nonempty hdepends
    exact (hs.get?_invalidate functions now key).trans (by rw [ha, Option.bind_some, hsurvivor])
  names := hi.names_invalidate hs functions now
  domains := rfl
  index := Table.entries_foldl_erase _ _
  invokers := rfl
  ledger := rfl
  trusted := rfl
  subscriptions := rfl
  calls := by
    rw [hs.deeds_invalidate, List.map_append, List.map_flatMap, List.map_map]
    rfl

end Core

namespace System

/-- Cascade exactness: in every state that may be seen, the removal of a registered domain succeeds
with the functions of the domain. What it leaves and which calls it makes does not depend on its
collaborators, nor on what others do during the calls; that comes on top of the state it leaves. -/
theorem deregistration_exact {s : System} (hs : s.Seen) {id : DomainId} {d : ProviderDomain}
    (hd : s.core.providers.domains.get? id = some d) (o : Occasion) :
    ∃ after calls, s.core.Dissolves id d.functionIds o.now after calls ∧
      (∀ t u, s.step (.start t (.deregisterProvider id) o) = some u → u.core = after) ∧
      ∀ p : Script,
        ((Command.deregisterProvider id).scripted o s.core p).1 =
            (p.during 0 calls.length after, .ok d.functionIds) ∧
          ((Command.deregisterProvider id).scripted o s.core p).2.made = calls := by
  have hderegister := Providers.deregister_eq_ok hd
  refine ⟨_, _, Core.dissolves_without hs.tracked_and_wellFormed.2 hs.reachable.indexed id
    d.functionIds o.now, fun t u hu => ?_, fun p => ?_⟩
  · obtain ⟨_, rfl⟩ := step_start.mp hu
    simp only [advance, Command.start, Core.deregisterProvider, hderegister]
    exact (Command.settled_withdrawAll _ _ _ _).1
  · rw [List.length_map]
    exact scripted_deregisterProvider hderegister p

/-- The second of three domains goes while all calls fail. One API is left as it was, one has lost
one of its two exposers, and one that had no other exposer is gone. -/
theorem deregistration_exact_sample :
    ∃ (s : System) (d : ProviderDomain) (after : Core), s.Seen ∧
      s.core.providers.domains.get? (.generate "b") = some d ∧
      s.core.Dissolves (.generate "b") d.functionIds default after [
        .errand (.deprovision (.generate "e") samplePublisher),
        .notice ⟨.apiUnavailable, { apis := [.generate "e"] }⟩,
        .notice ⟨.apiUpdated,
          { apis := [.generate "d"], exposers := [.generate .exposer "aaa"] }⟩] ∧
      ((Command.deregisterProvider (.generate "b")).scripted (.lettered 'g' default) s.core
        sampleBreakdown).1 = (after, .ok d.functionIds) ∧
      after.store.apis.keys = [.generate "d", .generate "f"] := by
  let removal := Command.deregisterProvider (.generate "b")
  let o := Occasion.lettered 'g' default
  have hdomain : (fresh.run threeDomains).map (fun s =>
      ((s.core.providers.domains.get? (.generate "b")).isSome,
        (removal.scripted o s.core sampleBreakdown).1.1.store.apis.keys)) =
      some (true, [.generate "d", .generate "f"]) := by
    decide +kernel
  have hmade : (fresh.run threeDomains).map (fun s =>
      (removal.scripted o s.core sampleBreakdown).2.made) = some [
        .errand (.deprovision (.generate "e") samplePublisher),
        .notice ⟨.apiUnavailable, { apis := [.generate "e"] }⟩,
        .notice ⟨.apiUpdated,
          { apis := [.generate "d"], exposers := [.generate .exposer "aaa"] }⟩] := rfl
  obtain ⟨s, hs, hend⟩ := Option.map_eq_some_iff.mp hdomain
  obtain ⟨hregistered, hkeys⟩ := Prod.mk.inj hend
  obtain ⟨d, hd⟩ := Option.isSome_iff_exists.mp hregistered
  rw [hs, Option.map_some, Option.some.injEq] at hmade
  have hseen := seen_run hs
  obtain ⟨after, calls, hdissolves, _, hscripted⟩ := deregistration_exact hseen hd o
  obtain ⟨hstate, hcalls⟩ := hscripted sampleBreakdown
  rw [Script.during_eq_self fun _ _ => rfl] at hstate
  have hafter : (removal.scripted o s.core sampleBreakdown).1.1 = after :=
    congrArg Prod.fst hstate
  obtain rfl := hcalls.symm.trans hmade
  exact ⟨s, d, after, hseen, hd, hdissolves, hstate, hafter ▸ hkeys⟩

end System

end ApiExposure
