import ApiExposure.Proofs.Authorization.Decision
import ApiExposure.Proofs.Revocation.Ledger

/-!
# Grants that are given one by one

An invoker that is onboarded gets the grants that its APIs offer, one for each
profile and version. A grant that is given later is checked field by field
against the API that it names. Both ways lead to the same grants. As the APIs in
the store have live functions, a call that is granted anew is denied by nothing
but an expiry.
-/

namespace ApiExposure

namespace PublishedApi

variable {a : PublishedApi} {g : Grant}

/-- The check of a grant against an API is about its exposer, its name and its version. -/
theorem fits_iff :
    Core.fits a g = true ↔ g.exposer ∈ a.description.exposers ∧ g.apiName = a.name ∧
      ∃ v ∈ a.description.versions, v.name = g.version := by
  simp only [Core.fits, Bool.and_eq_true, exposedBy_iff, version?, List.find?_isSome, beq_iff_eq,
    eq_comm (a := a.name), and_assoc]

/-- A grant does not fit an API when the exposer, the name or the version is another one. -/
theorem fits_eq_false_iff :
    Core.fits a g = false ↔ g.exposer ∉ a.description.exposers ∨ g.apiName ≠ a.name ∨
      ∀ v ∈ a.description.versions, v.name ≠ g.version := by
  simp only [← Bool.not_eq_true, fits_iff, not_and_or, not_exists, ne_eq, imp_iff_not_or]

/-- An API offers the grants for it that pass the check. -/
theorem mem_grantable_iff_fits : g ∈ a.grantable ↔ g.api = a.id ∧ Core.fits a g = true := by
  rw [mem_grantable, fits_iff, ApiDescription.mem_exposers]
  exact and_congr_right fun _ => and_left_comm

end PublishedApi

namespace Publications

variable {s : Publications} {g : Grant}

/-- A stored API offers a grant. -/
def Offers (s : Publications) (g : Grant) : Prop :=
  ∃ id a, s.apis.get? id = some a ∧ g ∈ a.grantable

namespace WellFormed

/-- It is the API that the grant names, -/
theorem offers_iff_grantable (hs : s.WellFormed) :
    s.Offers g ↔ ∃ a, s.apis.get? g.api = some a ∧ g ∈ a.grantable := by
  refine ⟨fun ⟨id, a, ha, hg⟩ => ⟨a, ?_, hg⟩, fun ⟨a, ha, hg⟩ => ⟨g.api, a, ha, hg⟩⟩
  rwa [(PublishedApi.mem_grantable.mp hg).1, (hs id a ha).own]

/-- and the grant passes the check against it. -/
theorem offers_iff_fits (hs : s.WellFormed) :
    s.Offers g ↔ ∃ a, s.apis.get? g.api = some a ∧ Core.fits a g = true := by
  rw [hs.offers_iff_grantable]
  refine exists_congr fun a => and_congr_right fun ha => ?_
  rw [PublishedApi.mem_grantable_iff_fits, (hs _ a ha).own]
  exact and_iff_right rfl

/-- What an onboarding adds for some APIs are the grants for them that are offered. -/
theorem mem_grantable_iff_offers (hs : s.WellFormed) {ids : List ApiId} :
    g ∈ s.grantable ids ↔ g.api ∈ ids ∧ s.Offers g := by
  rw [hs.mem_grantable_iff, hs.offers_iff_grantable]

/-- An offered grant is complete. -/
theorem complete_of_offers (hs : s.WellFormed) (h : s.Offers g) : g.hasBlank = false :=
  hs.grantable_complete (hs.mem_grantable_iff_offers.mpr ⟨List.mem_singleton_self g.api, h⟩)

end WellFormed

end Publications

namespace Core

variable {c : Core} {id : InvokerId} {g : Grant} {now : Instant}

/-- Why a grant is refused, as a failure. -/
inductive RefusesGrant (c : Core) (id : InvokerId) (g : Grant) : Failure → Prop
  /-- A field is blank. -/
  | incomplete (h : g.hasBlank = true) : RefusesGrant c id g (.invalid .incompleteGrant)
  /-- The API is not stored. -/
  | unknownApi (hg : g.hasBlank = false) (h : c.store.apis.get? g.api = none) :
      RefusesGrant c id g (.notFound (.api g.api))
  /-- The exposer, the name or the version is not one of the API. -/
  | mismatch {a : PublishedApi} (hg : g.hasBlank = false) (ha : c.store.apis.get? g.api = some a)
      (h : g.exposer ∉ a.description.exposers ∨ g.apiName ≠ a.name ∨
        ∀ v ∈ a.description.versions, v.name ≠ g.version) :
      RefusesGrant c id g (.invalid (.grantMismatch g.api))
  /-- The grant is offered, but not to anyone who is not onboarded. -/
  | unknownInvoker (hg : c.store.Offers g) (h : c.invokers.contains id = false) :
      RefusesGrant c id g (.notFound (.invoker id))

/-- A grant that is given comes to this: the state that is left when it is given at some time. -/
structure Grants (c : Core) (id : InvokerId) (g : Grant) (now : Instant) (after : Core) : Prop where
  /-- The invoker has it at the end of its list, or has the list it had if the grant is there. -/
  identity : ∃ i, c.invokers.table.get? id = some i ∧ after.invokers.table.get? id =
    some { i with grants := if g ∈ i.grants then i.grants else i.grants ++ [g] }
  /-- No other invoker is changed. -/
  others : ∀ k, k ≠ id → after.invokers.table.get? k = c.invokers.table.get? k
  /-- The line of the call is set if it was revoked. -/
  ledger : ∀ call, after.ledger.entry? call =
    if call = g.call id ∧ c.ledger.isRevoked (g.call id) = true then some ⟨.active, now⟩
    else c.ledger.entry? call
  /-- Nothing else is changed. -/
  rest : after = { c with invokers := after.invokers, ledger := after.ledger }
  /-- The call is not revoked any more. -/
  reinstated : after.ledger.isRevoked (g.call id) = false
  /-- It is allowed, unless the version has expired. -/
  decision : ∀ later, after.check (g.call id) later = .ok .allow ∨
    after.check (g.call id) later = .ok (.deny .expired)

/-- What is left when a grant is given to an invoker, and the revocation of its call is cleared. -/
def given (c : Core) (id : InvokerId) (i : InvokerIdentity) (g : Grant) (now : Instant) : Core :=
  { c with
    invokers := ⟨c.invokers.table.insert id (i.addGrant g)⟩
    ledger := (c.ledger.reinstate (g.call id) now).2 }

/-- A grant is looked at on its own first, then the API, whether it fits and last the invoker. -/
theorem grant_eq (c : Core) (id : InvokerId) (g : Grant) (now : Instant) :
    c.grant id g now =
      if g.hasBlank then .error (.invalid .incompleteGrant)
      else match c.store.apis.get? g.api with
        | none => .error (.notFound (.api g.api))
        | some a =>
          if fits a g then
            match c.invokers.table.get? id with
            | none => .error (.notFound (.invoker id))
            | some i => .ok ((), c.given id i g now)
          else .error (.invalid (.grantMismatch g.api)) := by
  unfold grant Invokers.grant Grant.validate Publications.get Invokers.get
  cases hg : g.hasBlank with
  | true => rfl
  | false =>
    cases c.store.apis.get? g.api with
    | none => rfl
    | some a =>
      simp only [require, bind, Except.bind, Bool.not_false, if_true]
      cases fits a g with
      | false => rfl
      | true => cases c.invokers.table.get? id <;> rfl

/-- A grant that is refused fails with the reason. -/
theorem RefusesGrant.grant_eq_error (hc : c.store.WellFormed) {f : Failure}
    (h : c.RefusesGrant id g f) (now : Instant) : c.grant id g now = .error f := by
  rw [grant_eq]
  cases h with
  | incomplete h => rw [if_pos h]
  | unknownApi hg h => rw [if_neg (Bool.eq_false_iff.mp hg), h]
  | mismatch hg ha h =>
    rw [if_neg (Bool.eq_false_iff.mp hg), ha]
    exact if_neg (Bool.eq_false_iff.mp (PublishedApi.fits_eq_false_iff.mpr h))
  | unknownInvoker hg h =>
    obtain ⟨a, ha, hfits⟩ := hc.offers_iff_fits.mp hg
    have hi : c.invokers.table.get? id = none := by
      simpa [Invokers.contains, Table.contains] using h
    rw [if_neg (Bool.eq_false_iff.mp (hc.complete_of_offers hg)), ha]
    dsimp only
    rw [if_pos hfits, hi]

/-- There is a reason to refuse every grant that is not offered, and every one for somebody who is
not onboarded. -/
theorem exists_refusesGrant (hc : c.store.WellFormed)
    (h : ¬ (c.invokers.contains id = true ∧ c.store.Offers g)) :
    ∃ f, c.RefusesGrant id g f := by
  cases hg : g.hasBlank with
  | true => exact ⟨_, .incomplete hg⟩
  | false =>
    cases ha : c.store.apis.get? g.api with
    | none => exact ⟨_, .unknownApi hg ha⟩
    | some a =>
      cases hfits : fits a g with
      | false => exact ⟨_, .mismatch hg ha (PublishedApi.fits_eq_false_iff.mp hfits)⟩
      | true =>
        have hoffered : c.store.Offers g := hc.offers_iff_fits.mpr ⟨a, ha, hfits⟩
        exact ⟨_, .unknownInvoker hoffered (Bool.eq_false_iff.mpr fun hi => h ⟨hi, hoffered⟩)⟩

/-- A grant that is offered is live where functions have not left their APIs behind. -/
theorem hasLive_of_offers (hc : c.store.WellFormed) (hb : c.Backed) (h : c.store.Offers g)
    (id : InvokerId) : c.HasLive (g.call id) g := by
  obtain ⟨a, ha, hfits⟩ := hc.offers_iff_fits.mp h
  obtain ⟨hexposed, hname, v, hv, hversion⟩ := PublishedApi.fits_iff.mp hfits
  obtain ⟨hpublisher, hexposers⟩ := hb g.api a ha
  exact ⟨a, v, ⟨ha, hname.symm, hexposed, hv, hversion, hpublisher, hexposers _ hexposed⟩,
    rfl, rfl, rfl⟩

/-- A call that is not revoked and for which a live grant is held is denied by an expiry only. -/
theorem check_of_hasLive (hc : c.store.WellFormed) {call : Call} (hcall : call.hasBlank = false)
    {i : InvokerIdentity} (hi : c.invokers.table.get? call.invoker = some i) (hg : g ∈ i.grants)
    (hlive : c.HasLive call g) (hr : c.ledger.isRevoked call = false) (now : Instant) :
    c.check call now = .ok .allow ∨ c.check call now = .ok (.deny .expired) := by
  obtain ⟨d, hd, hdue⟩ := exists_due hc hcall now
  cases hdue with
  | unknownInvoker hnone => cases hnone.symm.trans hi
  | notGranted hj hnone =>
    obtain rfl := Option.some.inj (hi.symm.trans hj)
    exact absurd hlive (hnone g hg)
  | revoked _ _ _ hrevoked => cases hrevoked.symm.trans hr
  | expired => exact .inr hd
  | allow => exact .inl hd

variable {i : InvokerIdentity}

/-- A grant that is offered is given to an onboarded invoker. -/
theorem grant_eq_ok (hc : c.store.WellFormed) (hi : c.invokers.table.get? id = some i)
    (hg : c.store.Offers g) (now : Instant) : c.grant id g now = .ok ((), c.given id i g now) := by
  obtain ⟨a, ha, hfits⟩ := hc.offers_iff_fits.mp hg
  rw [grant_eq, if_neg (Bool.eq_false_iff.mp (hc.complete_of_offers hg)), ha]
  dsimp only
  rw [if_pos hfits, hi]

/-- A grant that is offered is live in the state that is left, which has the store and the providers
of before. -/
theorem grants_given (hc : c.store.WellFormed) (hb : c.Backed) (hcomplete : c.invokers.Complete)
    (hi : c.invokers.table.get? id = some i) (hg : c.store.Offers g) (now : Instant) :
    c.Grants id g now (c.given id i g now) := by
  have hself : (c.given id i g now).invokers.table.get? id = some (i.addGrant g) :=
    Table.get?_insert_self _ _ _
  have hreinstated : (c.given id i g now).ledger.isRevoked (g.call id) = false := by
    simp [given, Ledger.isRevoked_reinstate]
  refine ⟨⟨i, hi, ?_⟩, fun k hk => Table.get?_insert_of_ne _ _ hk, fun call => ?_, rfl,
    hreinstated, fun later => ?_⟩
  · rw [hself, InvokerIdentity.addGrant]
    simp only [InvokerIdentity.holds, List.contains_eq_mem, decide_eq_true_eq]
    split <;> rfl
  · exact Ledger.entry?_reinstate _ _ _ _
  · have hcall : (g.call id).hasBlank = false :=
      Grant.hasBlank_call (hcomplete id i hi).1 (hc.complete_of_offers hg)
    have hheld : g ∈ (i.addGrant g).grants := InvokerIdentity.mem_grants_addGrant.mpr (.inr rfl)
    have hlive : (c.given id i g now).HasLive (g.call id) g :=
      hasLive_of_offers (c := c.given id i g now) hc hb hg id
    exact check_of_hasLive (c := c.given id i g now) hc hcall hself hheld hlive hreinstated later

end Core

namespace System

/-- Explicit grants and those of an onboarding agree: in every state that a run with fresh
identifiers reaches, an onboarding for some APIs adds just the grants for these that are offered,
and an explicit grant succeeds for the onboarded invokers and the grants that are offered. All
others are refused for one reason and leave the state as it was. -/
theorem grant_exact {ms : List Move} {s : System} (hf : FreshIds ms) (h : fresh.run ms = some s)
    (id : InvokerId) (g : Grant) (o : Occasion) :
    (∀ ids, g ∈ s.core.store.grantable ids ↔ g.api ∈ ids ∧ s.core.store.Offers g) ∧
    (s.core.invokers.contains id = true ∧ s.core.store.Offers g →
      ∃ after, (Command.grant id g).start o s.core = .done after (.ok ()) ∧
        s.core.Grants id g o.now after) ∧
    (¬ (s.core.invokers.contains id = true ∧ s.core.store.Offers g) →
      ∃ f, (Command.grant id g).start o s.core = .done s.core (.error f) ∧
        ∀ e, s.core.RefusesGrant id g e ↔ e = f) := by
  have hc : s.core.store.WellFormed := wellFormed_run h
  refine ⟨fun ids => hc.mem_grantable_iff_offers, fun ⟨hi, hg⟩ => ?_, fun hnot => ?_⟩
  · obtain ⟨i, hi⟩ := Option.isSome_iff_exists.mp hi
    refine ⟨s.core.given id i g o.now, ?_,
      Core.grants_given hc (integral_run hf h).backed (complete_run h).2 hi hg o.now⟩
    rw [Command.start, Core.grant_eq_ok hc hi hg]
    rfl
  · obtain ⟨f, hrefuses⟩ := Core.exists_refusesGrant hc hnot
    have hfails := hrefuses.grant_eq_error hc o.now
    refine ⟨f, ?_, fun e => ⟨fun he => ?_, fun he => he ▸ hrefuses⟩⟩
    · rw [Command.start, hfails]
      rfl
    · exact Except.error.inj ((he.grant_eq_error hc o.now).symm.trans hfails)

/-- The grant that the sample invoker gets by its onboarding. -/
def sampleGrant : Grant := ⟨.generate "b", .generate .exposer "aaa", "maps", "v1"⟩

/-- The invoker loses it, and its call is revoked. -/
def grantLost : List Move := sampleGranting ++ [
  .start 3 (.removeGrant (.generate "c") sampleGrant) (.lettered 'd' default),
  .start 4 (.revoke sampleCall) (.lettered 'e' default)]

/-- The sample grant with a version that the API does not have. -/
def strayGrant : Grant := { sampleGrant with version := "v9" }

/-- The lost grant is given again, after which the call is allowed. The other one is refused. -/
theorem grant_exact_sample :
    FreshIds grantLost ∧ ∃ s after, fresh.run grantLost = some s ∧
      s.core.ledger.isRevoked sampleCall = true ∧
      (Command.grant (.generate "c") sampleGrant).start (.lettered 'f' default) s.core =
        .done after (.ok ()) ∧
      s.core.Grants (.generate "c") sampleGrant default after ∧
      after.check sampleCall default = .ok .allow ∧
      (Command.grant (.generate "c") strayGrant).start (.lettered 'g' default) s.core =
        .done s.core (.error (.invalid (.grantMismatch (.generate "b")))) := by
  have hf : FreshIds grantLost := .of_letters ['a', 'b', 'c', 'd', 'e'] (by decide) rfl
  have hstate : (fresh.run grantLost).bind (fun s =>
      (s.core.store.apis.get? (.generate "b")).map (fun a =>
        (s.core.ledger.isRevoked sampleCall, s.core.invokers.contains (.generate "c"),
          s.core.store.grantable [.generate "b"], a.description.versions.map (·.name)))) =
      some (true, true, [sampleGrant], ["v1"]) := by
    decide +kernel
  have hallowed : (fresh.run grantLost).map (fun s =>
      ((Command.grant (.generate "c") sampleGrant).start (.lettered 'f' default)
        s.core).state.check sampleCall default) = some (.ok .allow) := by
    decide +kernel
  obtain ⟨s, hs, h⟩ := Option.bind_eq_some_iff.mp hstate
  obtain ⟨a, ha, h⟩ := Option.map_eq_some_iff.mp h
  simp only [Prod.mk.injEq] at h
  obtain ⟨hrevoked, hi, hgrants, hversions⟩ := h
  rw [hs, Option.map_some, Option.some.injEq] at hallowed
  obtain ⟨hoffers, hgiven, _⟩ :=
    grant_exact hf hs (.generate "c") sampleGrant (.lettered 'f' default)
  obtain ⟨hoffersStray, _, hrefused⟩ :=
    grant_exact hf hs (.generate "c") strayGrant (.lettered 'g' default)
  have hoffered : s.core.store.Offers sampleGrant :=
    ((hoffers [.generate "b"]).mp (by simp [hgrants])).2
  obtain ⟨after, hstart, hafter⟩ := hgiven ⟨hi, hoffered⟩
  rw [hstart] at hallowed
  have hnotOffered : ¬ s.core.store.Offers strayGrant := fun hoffered => by
    have hmem := (hoffersStray [.generate "b"]).mpr ⟨by decide, hoffered⟩
    rw [hgrants] at hmem
    exact absurd hmem (by decide)
  obtain ⟨f, hfailed, hreason⟩ := hrefused fun hboth => hnotOffered hboth.2
  have hunknown : ∀ v ∈ a.description.versions, v.name ≠ "v9" := fun v hv hname => by
    have hmem : "v9" ∈ a.description.versions.map (·.name) := List.mem_map.mpr ⟨v, hv, hname⟩
    rw [hversions] at hmem
    exact absurd hmem (by decide)
  obtain rfl := (hreason _).mp (.mismatch (by decide) ha (.inr (.inr hunknown)))
  exact ⟨hf, s, after, hs, hrevoked, hstart, hafter, hallowed, hfailed⟩

end System

end ApiExposure
