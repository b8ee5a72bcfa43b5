import ApiExposure.Proofs.Providers.Listing
import ApiExposure.Proofs.Publications.Remainder
import ApiExposure.Proofs.System.Atomicity

/-!
# Domains that go one after the other

When two domains go it makes no difference which goes first. An API may be dropped
by the first removal in one order and by the second in the other, because its
publisher is gone or because its last profile is; what is left in the end is the
same. The removals return the functions of their own domains in both orders,
whatever the collaborators reply meanwhile.
-/

namespace ApiExposure

/-- With nothing else happening a command leads from a state to another with this result, whatever
its collaborators reply. -/
def Command.Yields (command : Command) (o : Occasion) (c : Core) (r : Outcome command.Result)
    (d : Core) : Prop :=
  ∀ {σ : Type} (k : Collaborators σ) (memory : σ) (record : List Change),
    ∃ scene, (command.start o c).perform (.recording k) (memory, record) = ((d, r), scene)

namespace Core

/-- The state without the times at which APIs were last changed. -/
def undated (c : Core) : Core := { c with store := c.store.undated }

/-- The state after the removal of a domain. -/
def without (c : Core) (id : DomainId) (functions : List FunctionId) (now : Instant) : Core :=
  { c with
    providers := ⟨c.providers.domains.erase id, functions.foldl Table.erase c.providers.functions⟩
    store := (c.store.invalidate functions now).1 }

/-- A removal returns the functions of its domain and leads to that state. -/
theorem deregisterProvider_yields {c : Core} {id : DomainId} {d : ProviderDomain}
    (hd : c.providers.domains.get? id = some d) (o : Occasion) :
    (Command.deregisterProvider id).Yields o c (.ok d.functionIds)
      (c.without id d.functionIds o.now) := by
  intro σ k memory record
  obtain ⟨hstate, hsettled⟩ := Command.settled_withdrawAll d.functionIds
    (c.store.invalidate d.functionIds o.now).2.updated
    (c.store.invalidate d.functionIds o.now).2.removed (c.without id d.functionIds o.now)
  obtain ⟨scene, hscene⟩ := hsettled.perform_recording k memory record
  refine ⟨scene, ?_⟩
  simp only [Command.start, deregisterProvider, Providers.deregister_eq_ok hd]
  rw [hstate] at hscene
  exact hscene

/-- Two domains with these functions go in either order, on these occasions, and the states in the
end are these. -/
structure Departures (c : Core) (first second : DomainId) (d e : List FunctionId)
    (o₁ o₂ p₁ p₂ : Occasion) (c₁₂ c₂₁ : Core) : Prop where
  /-- First the one, then the other. -/
  firstThenSecond : ∃ c₁, (Command.deregisterProvider first).Yields o₁ c (.ok d) c₁ ∧
    (Command.deregisterProvider second).Yields o₂ c₁ (.ok e) c₁₂
  /-- The other way round. -/
  secondThenFirst : ∃ c₂, (Command.deregisterProvider second).Yields p₁ c (.ok e) c₂ ∧
    (Command.deregisterProvider first).Yields p₂ c₂ (.ok d) c₂₁
  /-- Up to the times all registries are equal in the end. -/
  same : c₁₂.undated = c₂₁.undated
  /-- One cascade of all functions leaves the same APIs. -/
  atOnce : ∀ functions now, (∀ f, f ∈ functions ↔ f ∈ d ∨ f ∈ e) →
    (c.store.invalidate functions now).1.undated = c₁₂.store.undated
  /-- No cascade of these functions does anything afterwards. -/
  again : ∀ functions now, (∀ f ∈ functions, f ∈ d ∨ f ∈ e) →
    c₁₂.store.invalidate functions now = (c₁₂.store, ⟨[], []⟩) ∧
      c₂₁.store.invalidate functions now = (c₂₁.store, ⟨[], []⟩)

/-- From a state with a well-formed store and a right index, two domains may go in any order. -/
theorem departures_of_domains {c : Core} (hs : c.store.WellFormed) (hi : c.store.Indexed)
    {first second : DomainId} {d e : ProviderDomain}
    (hd : c.providers.domains.get? first = some d)
    (he : c.providers.domains.get? second = some e) (hne : first ≠ second)
    (o₁ o₂ p₁ p₂ : Occasion) :
    c.Departures first second d.functionIds e.functionIds o₁ o₂ p₁ p₂
      ((c.without first d.functionIds o₁.now).without second e.functionIds o₂.now)
      ((c.without second e.functionIds p₁.now).without first d.functionIds p₂.now) where
  firstThenSecond := by
    refine ⟨_, deregisterProvider_yields hd o₁, deregisterProvider_yields ?_ o₂⟩
    exact (Table.get?_erase _ _ _).trans ((if_neg hne.symm).trans he)
  secondThenFirst := by
    refine ⟨_, deregisterProvider_yields he p₁, deregisterProvider_yields ?_ p₂⟩
    exact (Table.get?_erase _ _ _).trans ((if_neg hne).trans hd)
  same := by
    have hdomains : (c.providers.domains.erase first).erase second =
        (c.providers.domains.erase second).erase first :=
      Table.foldl_erase_comm c.providers.domains [first] [second]
    have hfunctions := Table.foldl_erase_comm c.providers.functions d.functionIds e.functionIds
    have hstore : ((c.store.invalidate d.functionIds o₁.now).1.invalidate e.functionIds
        o₂.now).1.undated =
        ((c.store.invalidate e.functionIds p₁.now).1.invalidate d.functionIds p₂.now).1.undated :=
      (hs.undated_invalidate_twice hi (fun f => List.mem_append) o₁.now o₂.now default).symm.trans
        (hs.undated_invalidate_twice hi (fun f => List.mem_append.trans or_comm) p₁.now p₂.now
          default)
    simp only [undated, without, hdomains, hfunctions, hstore]
  atOnce := fun functions now h => hs.undated_invalidate_twice hi h o₁.now o₂.now now
  again := by
    refine fun functions now h => ⟨?_, ?_⟩
    · exact Publications.invalidate_eq_self fun id a ha f hf =>
        hs.not_dependsOn_of_invalidate_twice ha (h f hf)
    · exact Publications.invalidate_eq_self fun id a ha f hf =>
        hs.not_dependsOn_of_invalidate_twice ha (h f hf).symm

end Core

namespace System

/-- Provider deregistrations commute: in every state that may be seen, two distinct domains may go
in any order. Both removals succeed and return the same functions for each domain, the states in
the end are equal up to the times of change of APIs, the store is what one cascade of all functions
leaves, and cascades of these functions change nothing any more. -/
theorem deregistrations_commute {s : System} (hs : s.Seen) {first second : DomainId}
    {d e : ProviderDomain} (hd : s.core.providers.domains.get? first = some d)
    (he : s.core.providers.domains.get? second = some e) (hne : first ≠ second)
    (o₁ o₂ p₁ p₂ : Occasion) :
    ∃ c₁₂ c₂₁, s.core.Departures first second d.functionIds e.functionIds o₁ o₂ p₁ p₂ c₁₂ c₂₁ :=
  ⟨_, _, Core.departures_of_domains hs.tracked_and_wellFormed.2 hs.reachable.indexed hd he hne
    o₁ o₂ p₁ p₂⟩

/-- Three domains with an API that the first two expose for the third, one that the second exposes
for the first, and one that the third exposes too. -/
def threeDomains : List Move := [
  .start 0 (.registerProvider sampleDomain) (.lettered 'a' default),
  .start 1 (.registerProvider sampleDomain) (.lettered 'b' default),
  .start 2 (.registerProvider sampleDomain) (.lettered 'c' default),
  .start 3 (.publish (.generate .publisher "cc") { sampleApi with profiles := [
    { exposer := .generate .exposer "aaa" }, { exposer := .generate .exposer "bbb" }] })
    (.lettered 'd' default),
  .resume 3 (.errand (.ok ())),
  .start 4 (.publish samplePublisher { sampleApi with profiles := [
    { exposer := .generate .exposer "bbb" }] }) (.lettered 'e' default),
  .resume 4 (.errand (.ok ())),
  .start 5 (.publish (.generate .publisher "cc") { sampleApi with name := "tiles", profiles := [
    { exposer := .generate .exposer "aaa" }, { exposer := .generate .exposer "ccc" }] })
    (.lettered 'f' default),
  .resume 5 (.errand (.ok ()))]

/-- Of three APIs the last one is left in either order. -/
theorem deregistrations_commute_sample :
    ∃ (s : System) (d e : ProviderDomain) (c₁₂ c₂₁ : Core),
      s.Seen ∧ s.core.providers.domains.get? (.generate "a") = some d ∧
      s.core.providers.domains.get? (.generate "b") = some e ∧
      (DomainId.generate "a") ≠ .generate "b" ∧
      s.core.store.apis.keys = [.generate "d", .generate "e", .generate "f"] ∧
      s.core.Departures (.generate "a") (.generate "b") d.functionIds e.functionIds
        (.lettered 'g' default) (.lettered 'h' default) (.lettered 'g' default)
        (.lettered 'h' default) c₁₂ c₂₁ ∧
      c₁₂.store.apis.keys = [.generate "f"] ∧ c₂₁.store.apis.keys = [.generate "f"] := by
  have hdomains : (fresh.run threeDomains).map (fun s =>
      ((s.core.providers.domains.get? (.generate "a")).map (·.functionIds),
        (s.core.providers.domains.get? (.generate "b")).map (·.functionIds))) =
      some (some [samplePublisher, .generate .exposer "aaa"],
        some [.generate .publisher "bb", .generate .exposer "bbb"]) := by
    decide +kernel
  have hkeys : (fresh.run threeDomains).map (fun s => (s.core.store.apis.keys,
      (s.core.store.invalidate [samplePublisher, .generate .exposer "aaa",
        .generate .publisher "bb", .generate .exposer "bbb"] default).1.apis.keys)) =
      some ([.generate "d", .generate "e", .generate "f"], [.generate "f"]) := by
    decide +kernel
  obtain ⟨s, hs, hdomains⟩ := Option.map_eq_some_iff.mp hdomains
  rw [hs, Option.map_some, Option.some.injEq] at hkeys
  obtain ⟨hbefore, hatOnce⟩ := Prod.mk.inj hkeys
  obtain ⟨hfirst, hsecond⟩ := Prod.mk.inj hdomains
  obtain ⟨d, hd, hdfunctions⟩ := Option.map_eq_some_iff.mp hfirst
  obtain ⟨e, he, hefunctions⟩ := Option.map_eq_some_iff.mp hsecond
  have hseen := seen_run hs
  have hne : DomainId.generate "a" ≠ .generate "b" := by decide
  obtain ⟨c₁₂, c₂₁, h⟩ := deregistrations_commute hseen hd he hne (.lettered 'g' default)
    (.lettered 'h' default) (.lettered 'g' default) (.lettered 'h' default)
  have hkeys : ∀ {s t : Publications}, s.undated = t.undated → s.apis.keys = t.apis.keys := by
    intro s t hst
    have hapis := congrArg (fun s => s.apis.keys) hst
    simpa only [Publications.undated, Table.keys_mapValues] using hapis
  have hleft : c₁₂.store.apis.keys = [.generate "f"] := by
    rw [← hkeys (h.atOnce (d.functionIds ++ e.functionIds) default fun _ => List.mem_append),
      hdfunctions, hefunctions]
    exact hatOnce
  have hstore : c₁₂.store.undated = c₂₁.store.undated := congrArg Core.store h.same
  exact ⟨s, d, e, c₁₂, c₂₁, hseen, hd, he, hne, hbefore, h, hleft, (hkeys hstore).symm.trans hleft⟩

end System

end ApiExposure
