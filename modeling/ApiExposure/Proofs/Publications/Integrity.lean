import ApiExposure.Proofs.Publications.Store
import ApiExposure.Proofs.System.Freshness

/-!
# Integrity of publications

Whatever happens around it, an API in the store has a live publisher and live
exposers. Checks and records are apart in time, and providers may go between
them; but an API is recorded only with functions that are live then, and a
domain takes along all that depends on its functions. What could still go wrong
is a new function under the identifier of an old one. So the identifiers in the
index are traced back to the commands that brought them in, and no two commands
share a suffix.
-/

namespace ApiExposure

/-- An API rests on functions that are live in their roles. -/
structure PublishedApi.Backed (p : Providers) (a : PublishedApi) : Prop where
  /-- The publisher publishes. -/
  publisher : p.roleOf a.publisher = some .publisher
  /-- The exposers expose. -/
  exposers : ∀ e ∈ a.description.exposers, p.roleOf e = some .exposer

namespace PublishedApi.Backed

variable {p q : Providers} {a b : PublishedApi}

/-- It is enough that the functions of an API keep their roles. -/
theorem of_roles (ha : a.Backed p)
    (h : ∀ f role, p.roleOf f = some role → f = a.publisher ∨ f ∈ a.description.exposers →
      q.roleOf f = some role) : a.Backed q :=
  ⟨h _ _ ha.publisher (.inl rfl), fun e he => h _ _ (ha.exposers e he) (.inr he)⟩

/-- What a cascade leaves of an API does without the removed functions. -/
theorem survivor {removed : List FunctionId} {now : Instant} (ha : a.Backed p)
    (h : a.survivor removed now = some b) (hq : ∀ f, f ∉ removed → q.roleOf f = p.roleOf f) :
    b.Backed q := by
  obtain ⟨hpublisher, _, rfl⟩ := survivor_eq_some_iff.mp h
  refine ⟨(hq _ hpublisher).trans ha.publisher, fun e he => ?_⟩
  obtain ⟨hheld, hr⟩ := mem_exposers_stripExposers.mp he
  exact (hq e hr).trans (ha.exposers e hheld)

end PublishedApi.Backed

namespace Core

/-- Every API in the store rests on live functions. -/
def Backed (c : Core) : Prop := ∀ id a, c.store.apis.get? id = some a → a.Backed c.providers

end Core

namespace Effect

variable {o : Occasion} {command : Command} {c d : Core} {r : Outcome command.Result}

/-- Every effect leaves the store well-formed. -/
theorem wellFormed (h : Effect o command c r d) (hc : c.store.WellFormed) :
    d.store.WellFormed := by
  cases h with
  | removed h => exact hc.invalidate _ _
  | published h => exact hc.publishAs (ApiId.generate_not_blank _) h
  | patched h => exact hc.updateFor h
  | withdrawn h => exact hc.unpublish h
  | _ => exact hc

/-- Functions come into the index under identifiers of the occasion only. -/
theorem issues_of_mem (h : Effect o command c r d) {id : FunctionId}
    (hid : d.providers.functions.get? id ≠ none) :
    o.Issues id ∨ c.providers.functions.get? id ≠ none := by
  by_cases ho : o.Issues id
  · exact .inl ho
  · refine .inr ?_
    cases h with
    | registered h => rwa [← Providers.onlyIssued_register h id ho]
    | updated h => rwa [← Providers.onlyIssued_update h id ho]
    | removed h =>
      dsimp only at hid
      rw [Providers.get?_deregister h] at hid
      split at hid
      · exact absurd rfl hid
      · exact hid
    | _ => exact hid

/-- New functions do not get in the way of the APIs in the store. -/
theorem backed_of_onlyIssued {c : Core} {q : Providers} (hb : c.Backed)
    (hnew : ∀ id, o.Issues id → c.providers.functions.get? id = none)
    (h : Providers.OnlyIssued o c.providers q) : ({ c with providers := q } : Core).Backed := by
  refine fun id a ha => (hb id a ha).of_roles fun f role hf _ => ?_
  have hheld : ¬ o.Issues f := by
    intro hi
    rw [Providers.roleOf, hnew f hi] at hf
    cases hf
  rw [Providers.roleOf, h f hheld]
  exact hf

/-- Every effect keeps the APIs in the store backed, provided that a command which takes effect
at its start brings new identifiers. -/
theorem backed (h : Effect o command c r d) (hc : c.store.WellFormed) (hb : c.Backed)
    (hnew : command.asksFirst = false →
      ∀ id, o.Issues id → c.providers.functions.get? id = none) : d.Backed := by
  cases h with
  | registered h => exact backed_of_onlyIssued hb (hnew rfl) (Providers.onlyIssued_register h)
  | updated h => exact backed_of_onlyIssued hb (hnew rfl) (Providers.onlyIssued_update h)
  | removed h =>
    intro id b hs
    dsimp only at hs ⊢
    rw [hc.get?_invalidate] at hs
    obtain ⟨a, ha, hsurvivor⟩ := Option.bind_eq_some_iff.mp hs
    exact (hb id a ha).survivor hsurvivor fun f hf => Providers.roleOf_deregister h hf
  | published h =>
    obtain ⟨hv, _, rfl, rfl⟩ := Publications.publishAs_eq_ok_iff.mp h
    obtain ⟨_, hpublisher, hexposers, _⟩ := Publications.validate_eq_ok_iff.mp hv
    intro id b hs
    dsimp only at hs ⊢
    rw [Publications.get?_add] at hs
    split at hs
    · cases hs
      exact ⟨hpublisher, hexposers⟩
    · exact hb id b hs
  | patched h =>
    obtain ⟨a, ha, _, _, hexposers, rfl, rfl⟩ := Publications.of_updateFor_eq_ok h
    intro id b hs
    dsimp only at hs ⊢
    rw [Publications.get?_replace] at hs
    split at hs
    · cases hs
      refine ⟨(hb _ a ha).publisher, fun e he => ?_⟩
      rcases PublishedApi.mem_exposers_apply he with he | he
      · exact hexposers e he
      · exact (hb _ a ha).exposers e he
    · exact hb id b hs
  | withdrawn h =>
    intro id b hs
    dsimp only at hs ⊢
    rw [(Publications.of_unpublish_eq_ok h).2, Table.get?_erase] at hs
    split at hs
    · cases hs
    · exact hb id b hs
  | _ => exact hb

end Effect

namespace System

/-- The store is well-formed at the end of every run. -/
theorem wellFormed_run {ms : List Move} {s : System} (h : fresh.run ms = some s) :
    s.core.store.WellFormed :=
  core_induction (P := fun c => c.store.WellFormed) Publications.wellFormed_empty
    (fun _ _ _ _ _ hc he => he.wellFormed hc) h

/-- The APIs in the store are backed, and every function in the index is traced back to the
command that brought it in. -/
structure Integral (s : System) : Prop where
  /-- The store is well-formed. -/
  wellFormed : s.core.store.WellFormed
  /-- The APIs are backed. -/
  backed : s.core.Backed
  /-- Functions come from commands. -/
  traced : ∀ id, s.core.providers.functions.get? id ≠ none →
    ∃ t j, s.jobs t = some j ∧ j.occasion.Issues id

theorem integral_fresh : fresh.Integral where
  wellFormed := Publications.wellFormed_empty
  backed := fun _ _ h => nomatch h
  traced := fun _ h => absurd rfl h

/-- A start that is admitted brings new identifiers for functions. -/
theorem Integral.unissued {s : System} {m : Move} (hs : s.Integral) (hm : s.Admits m)
    {o : Occasion} (ho : m.occasion? = some o) {id : FunctionId} (hid : o.Issues id) :
    s.core.providers.functions.get? id = none := by
  by_contra hne
  obtain ⟨t, j, hj, role, n, hn⟩ := hs.traced id hne
  obtain ⟨role', n', rfl⟩ := hid
  exact (hm o ho).2 t j hj n n' (FunctionId.generate_injective hn).symm

/-- Every admitted move keeps the integrity of the store. -/
theorem Integral.step {s u : System} {m : Move} (ho : s.Orderly) (hm : s.Admits m)
    (hs : s.Integral) (h : s.step m = some u) : u.Integral := by
  have hkeep : ∀ id, s.core.providers.functions.get? id ≠ none →
      ∃ t j, u.jobs t = some j ∧ j.occasion.Issues id := by
    intro id hid
    obtain ⟨t, j, hj, hi⟩ := hs.traced id hid
    obtain ⟨k, hk, _, hko, _⟩ := step_keeps_job h hj
    exact ⟨t, k, hk, hko ▸ hi⟩
  rcases (step_cases ho.tracked h).2 with ⟨j, r, hj, he, hstart⟩ | ⟨hc, _⟩
  · refine ⟨he.wellFormed hs.wellFormed, he.backed hs.wellFormed hs.backed ?_, fun id hid => ?_⟩
    · intro hfirst id hid
      rcases hstart with hm' | ⟨hasks, _⟩
      · refine hs.unissued hm (o := j.occasion) ?_ hid
        rw [hm']
        rfl
      · rw [hasks] at hfirst
        cases hfirst
    · rcases he.issues_of_mem hid with hi | hheld
      · exact ⟨m.ticket, j, hj.job, hi⟩
      · exact hkeep id hheld
  · refine ⟨?_, ?_, ?_⟩ <;> rw [hc]
    · exact hs.wellFormed
    · exact hs.backed
    · exact hkeep

/-- A run with fresh identifiers keeps the integrity of the store. -/
theorem integral_run {ms : List Move} {s : System} (hf : FreshIds ms)
    (h : fresh.run ms = some s) : s.Integral :=
  (fresh_induction (fun _ _ _ ho hm hs h => hs.step ho hm h) [] hf rfl
    orderly_fresh integral_fresh h).2

/-- In every state that a run with fresh identifiers reaches, each API in the store has a live
publisher and live exposers, a sound description and its own identifier. -/
theorem stored_api_integral {ms : List Move} {s : System} (hf : FreshIds ms)
    (h : fresh.run ms = some s) {id : ApiId} {a : PublishedApi}
    (ha : s.core.store.apis.get? id = some a) :
    a.Backed s.core.providers ∧ a.description.Sound ∧ a.id = id :=
  have hs := integral_run hf h
  ⟨hs.backed id a ha, (hs.wellFormed id a ha).sound, (hs.wellFormed id a ha).own⟩

/-- A domain with a publisher and an exposer. -/
def sampleDomain : DomainRegistration where
  credential := "secret"
  functions := [
    { role := some .publisher, registration := some { publicKey := "key" } },
    { role := some .exposer, registration := some { publicKey := "key" } }]

/-- The publisher of the sample domain when the letter is `a`. -/
def samplePublisher : FunctionId := .generate .publisher "aa"

/-- An API on the exposer of the sample domain when the letter is `a`. -/
def sampleApi : ApiDescription where
  name := "maps"
  profiles := [{ exposer := .generate .exposer "aaa" }]
  versions := [{ name := "v1" }]

/-- The sample domain is registered and its publisher publishes the sample API. -/
def sampleSchedule : List Move := [
  .start 0 (.registerProvider sampleDomain) (.lettered 'a' default),
  .start 1 (.publish samplePublisher sampleApi) (.lettered 'b' default),
  .resume 1 (.errand (.ok ()))]

theorem freshIds_sampleSchedule : FreshIds sampleSchedule :=
  .of_letters ['a', 'b'] (by decide) rfl

/-- The sample API is among the APIs that are always in order. -/
theorem stored_api_integral_sample :
    FreshIds sampleSchedule ∧ ∃ s a, fresh.run sampleSchedule = some s ∧
      s.core.store.apis.get? (.generate "b") = some a ∧
      a.Backed s.core.providers ∧ a.description.Sound ∧ a.id = .generate "b" := by
  have hsome : ((fresh.run sampleSchedule).bind
      (fun s => s.core.store.apis.get? (.generate "b"))).isSome = true := by decide
  obtain ⟨a, h⟩ := Option.isSome_iff_exists.mp hsome
  obtain ⟨s, hs, ha⟩ := Option.bind_eq_some_iff.mp h
  exact ⟨freshIds_sampleSchedule, s, a, hs, ha,
    stored_api_integral freshIds_sampleSchedule hs ha⟩

end System

end ApiExposure
