import ApiExposure.Proofs.Authorization.Liveness
import ApiExposure.Proofs.Publications.Integrity

/-!
# The decision on a call

What is due to a call is said here in terms of the registries alone: who is
onboarded, which grant is the first live one, what the ledger says and when the
version of that grant's API expires. The check answers exactly so. It does so in
every state that may be seen from outside, also between the removal of a domain
and its cascade, when the store still holds APIs whose functions are gone: the
only thing it relies on is that the store is well-formed.
-/

namespace ApiExposure

/-- An expiry has passed when there is one and it lies before now. -/
theorem ApiVersion.hasPassed_eq_true_iff {expiry : Option Instant} {now : Instant} :
    hasPassed expiry now = true ↔ ∃ e, expiry = some e ∧ e.before now = true := by
  cases expiry <;> simp [hasPassed]

namespace Core

/-- The decision that is due to a call at a time. -/
inductive Due (c : Core) (call : Call) (now : Instant) : Decision → Prop
  /-- The invoker is not onboarded. -/
  | unknownInvoker (hi : c.invokers.table.get? call.invoker = none) :
      Due c call now (.deny .unknownInvoker)
  /-- No grant of the invoker is live for the call. -/
  | notGranted {i : InvokerIdentity} (hi : c.invokers.table.get? call.invoker = some i)
      (h : ∀ g ∈ i.grants, ¬ c.HasLive call g) : Due c call now (.deny .notGranted)
  /-- A grant is live, but the call is revoked. -/
  | revoked {i : InvokerIdentity} {g : Grant}
      (hi : c.invokers.table.get? call.invoker = some i) (hg : g ∈ i.grants)
      (hlive : c.HasLive call g) (hr : c.ledger.isRevoked call = true) :
      Due c call now (.deny .revoked)
  /-- The version has expired in the API of the first live grant. -/
  | expired {i : InvokerIdentity} {g : Grant} {a : PublishedApi} {v : ApiVersion}
      {expiry : Instant} (hi : c.invokers.table.get? call.invoker = some i)
      (hfirst : c.FirstLive call i.grants g a v) (hr : c.ledger.isRevoked call = false)
      (he : v.expiry = some expiry) (h : expiry.before now = true) :
      Due c call now (.deny .expired)
  /-- It has not. -/
  | allow {i : InvokerIdentity} {g : Grant} {a : PublishedApi} {v : ApiVersion}
      (hi : c.invokers.table.get? call.invoker = some i)
      (hfirst : c.FirstLive call i.grants g a v) (hr : c.ledger.isRevoked call = false)
      (h : ∀ expiry, v.expiry = some expiry → expiry.before now = false) :
      Due c call now .allow

variable {c : Core} {call : Call} {now : Instant}

/-- A call with a blank field is refused. -/
theorem check_of_hasBlank (h : call.hasBlank = true) :
    c.check call now = .error (.invalid .incompleteCall) := by
  simp only [check, Call.validate, require, h, Bool.not_true, Bool.false_eq_true, if_false, bind,
    Except.bind]

/-- Any other call is looked up in the registries one after the other. -/
theorem check_of_not_hasBlank (h : call.hasBlank = false) :
    c.check call now =
      match c.invokers.table.get? call.invoker with
      | none => .ok (.deny .unknownInvoker)
      | some i =>
        match granted? i.grants (c.liveExposures call) call with
        | none => .ok (.deny .notGranted)
        | some e =>
          if c.ledger.isRevoked call then .ok (.deny .revoked)
          else if ApiVersion.hasPassed e.expiry now then .ok (.deny .expired)
          else .ok .allow := by
  have hv : call.validate = .ok () := require_eq_ok_iff.mpr (by rw [h]; rfl)
  rw [check, hv]
  rfl

/-- A call that is not revoked is decided by the version of the first live grant. -/
theorem FirstLive.check (hc : c.store.WellFormed) (hb : call.hasBlank = false)
    {i : InvokerIdentity} (hi : c.invokers.table.get? call.invoker = some i) {g : Grant}
    {a : PublishedApi} {v : ApiVersion} (h : c.FirstLive call i.grants g a v)
    (hr : c.ledger.isRevoked call = false) (now : Instant) :
    c.check call now =
      .ok (if ApiVersion.hasPassed v.expiry now then .deny .expired else .allow) := by
  rw [check_of_not_hasBlank hb, hi]
  dsimp only
  rw [(granted?_eq_some_iff hc).mpr ⟨g, a, v, h, rfl⟩]
  dsimp only
  rw [hr, if_neg Bool.false_ne_true]
  split <;> rfl

/-- A decision is due. -/
theorem exists_due (hc : c.store.WellFormed) (hb : call.hasBlank = false) (now : Instant) :
    ∃ d, c.check call now = .ok d ∧ c.Due call now d := by
  rw [check_of_not_hasBlank hb]
  cases hi : c.invokers.table.get? call.invoker with
  | none => exact ⟨_, rfl, .unknownInvoker hi⟩
  | some i =>
    dsimp only
    cases hgranted : granted? i.grants (c.liveExposures call) call with
    | none => exact ⟨_, rfl, .notGranted hi ((granted?_eq_none_iff hc).mp hgranted)⟩
    | some e =>
      obtain ⟨g, a, v, hfirst, rfl⟩ := (granted?_eq_some_iff hc).mp hgranted
      dsimp only
      cases hr : c.ledger.isRevoked call with
      | true =>
        obtain ⟨before, after, hgrants, _⟩ := hfirst.first
        have hg : g ∈ i.grants := hgrants ▸ List.mem_append_right _ List.mem_cons_self
        exact ⟨_, rfl, .revoked hi hg ⟨a, v, hfirst.live⟩ hr⟩
      | false =>
        cases hp : ApiVersion.hasPassed v.expiry now with
        | true =>
          obtain ⟨expiry, he, hbefore⟩ := ApiVersion.hasPassed_eq_true_iff.mp hp
          exact ⟨_, rfl, .expired hi hfirst hr he hbefore⟩
        | false =>
          refine ⟨_, rfl, .allow hi hfirst hr fun expiry he => Bool.eq_false_iff.mpr ?_⟩
          intro hbefore
          rw [ApiVersion.hasPassed_eq_true_iff.mpr ⟨expiry, he, hbefore⟩] at hp
          cases hp

/-- The check gives the decision that is due. -/
theorem Due.check {d : Decision} (hc : c.store.WellFormed) (hb : call.hasBlank = false)
    (h : c.Due call now d) : c.check call now = .ok d := by
  cases h with
  | unknownInvoker hi => rw [check_of_not_hasBlank hb, hi]
  | notGranted hi h =>
    rw [check_of_not_hasBlank hb, hi]
    dsimp only
    rw [(granted?_eq_none_iff hc).mpr h]
  | @revoked i g hi hg hlive hr =>
    have hne : granted? i.grants (c.liveExposures call) call ≠ none :=
      fun hn => (granted?_eq_none_iff hc).mp hn g hg hlive
    obtain ⟨e, he⟩ := Option.ne_none_iff_exists'.mp hne
    rw [check_of_not_hasBlank hb, hi]
    dsimp only
    rw [he]
    dsimp only
    rw [if_pos hr]
  | expired hi hfirst hr he h =>
    rw [hfirst.check hc hb hi hr, if_pos (ApiVersion.hasPassed_eq_true_iff.mpr ⟨_, he, h⟩)]
  | allow hi hfirst hr h =>
    rw [hfirst.check hc hb hi hr, if_neg]
    rw [ApiVersion.hasPassed_eq_true_iff]
    rintro ⟨expiry, he, hbefore⟩
    rw [h expiry he] at hbefore
    cases hbefore

end Core

namespace System

/-- What may be seen from outside: the states that moves lead to, where a domain may also be
out of the registry of providers alone, and cascades may come at any time after. -/
inductive Seen : System → Prop
  /-- At first. -/
  | fresh : Seen fresh
  /-- After a move. -/
  | step {s u : System} {m : Move} (hs : s.Seen) (h : s.step m = some u) : Seen u
  /-- After the removal of a domain, before its cascade. -/
  | deregistered {s : System} {id : DomainId} {functions : List FunctionId}
      {providers : Providers} (hs : s.Seen)
      (h : s.core.providers.deregister id = .ok (functions, providers)) :
      Seen { s with core := { s.core with providers } }
  /-- After the cascade of some functions. -/
  | invalidated {s : System} (hs : s.Seen) (functions : List FunctionId) (now : Instant) :
      Seen { s with core := { s.core with store := (s.core.store.invalidate functions now).1 } }

/-- In every state that may be seen the jobs are tracked and the store is well-formed. -/
theorem Seen.tracked_and_wellFormed {s : System} (hs : s.Seen) :
    s.Tracked ∧ s.core.store.WellFormed := by
  induction hs with
  | fresh => exact ⟨tracked_fresh, Publications.wellFormed_empty⟩
  | step _ h ih =>
    obtain ⟨htracked, ⟨_, _, _, he, _⟩ | ⟨hc, _⟩⟩ := step_cases ih.1 h
    · exact ⟨htracked, he.wellFormed ih.2⟩
    · exact ⟨htracked, hc ▸ ih.2⟩
  | deregistered _ _ ih => exact ih
  | invalidated _ functions now ih => exact ⟨ih.1, ih.2.invalidate functions now⟩

/-- What holds of the core at first, is kept by every effect and does not depend on the providers
nor on what a cascade takes holds in every state that may be seen. -/
theorem Seen.core_invariant {P : Core → Prop} {s : System} (hs : s.Seen) (first : P .fresh)
    (effect : ∀ {o command c d r}, c.store.WellFormed → P c → Effect o command c r d → P d)
    (deregistered : ∀ {c} providers, P c → P { c with providers })
    (invalidated : ∀ {c : Core} (functions : List FunctionId) (now : Instant), P c →
      P { c with store := (c.store.invalidate functions now).1 }) : P s.core := by
  induction hs with
  | fresh => exact first
  | step hs h ih =>
    obtain ⟨htracked, hwell⟩ := hs.tracked_and_wellFormed
    rcases (step_cases htracked h).2 with ⟨_, _, _, he, _⟩ | ⟨hc, _⟩
    · exact effect hwell ih he
    · exact hc ▸ ih
  | deregistered _ _ ih => exact deregistered _ ih
  | invalidated _ functions now ih => exact invalidated functions now ih

/-- What a run leads to may be seen. -/
theorem seen_run {ms : List Move} {s : System} (h : System.fresh.run ms = some s) : s.Seen :=
  run_induction (P := fun _ s => s.Seen) .fresh (fun _ _ _ _ _ hs hm => hs.step hm) h

/-- In every state that may be seen, the check refuses a call with a blank field, gives exactly
the decision that is due to any other, and changes nothing. -/
theorem check_exact {s : System} (hs : s.Seen) (call : Call) (now : Instant) :
    (call.hasBlank = true → s.core.check call now = .error (.invalid .incompleteCall)) ∧
      (call.hasBlank = false →
        ∃ d, s.core.check call now = .ok d ∧ ∀ e, s.core.Due call now e ↔ e = d) ∧
      ∀ o, (Command.ask (.decision call)).start o s.core =
        .done s.core (s.core.check call o.now) := by
  refine ⟨Core.check_of_hasBlank, fun hb => ?_, fun _ => rfl⟩
  obtain ⟨d, hd, hdue⟩ := Core.exists_due hs.tracked_and_wellFormed.2 hb now
  refine ⟨d, hd, fun e => ⟨fun he => ?_, fun he => he ▸ hdue⟩⟩
  have hcheck := he.check hs.tracked_and_wellFormed.2 hb
  exact Except.ok.inj (hcheck.symm.trans hd)

/-- After the sample publication an invoker is onboarded that asks for the sample API. -/
def sampleGranting : List Move := sampleSchedule ++ [
  .start 2 (.onboard { onboarding := { publicKey := "key" }, requested := [.generate "b"] })
    (.lettered 'c' default),
  .resume 2 (.client (.ok ⟨"client", "secret"⟩))]

/-- The call that the sample invoker is granted. -/
def sampleCall : Call := ⟨.generate "c", .generate .exposer "aaa", "maps", "v1"⟩

/-- The sample call is allowed, and it is not granted any more once the domain is out of the
registry of providers, even before the cascade. -/
theorem check_exact_sample :
    ∃ (s : System) (functions : List FunctionId) (providers : Providers),
      s.Seen ∧ s.core.Due sampleCall default .allow ∧
      s.core.providers.deregister (.generate "a") = .ok (functions, providers) ∧
      ({ s.core with providers } : Core).Due sampleCall default (.deny .notGranted) := by
  have hcheck : (fresh.run sampleGranting).map (fun s => s.core.check sampleCall default) =
      some (.ok .allow) := rfl
  have hwindow : (fresh.run sampleGranting).map (fun s =>
      (s.core.providers.deregister (.generate "a")).map (fun r =>
        ({ s.core with providers := r.2 } : Core).check sampleCall default)) =
      some (.ok (.ok (.deny .notGranted))) := rfl
  obtain ⟨s, hs, hallow⟩ := Option.map_eq_some_iff.mp hcheck
  rw [hs, Option.map_some, Option.some.injEq] at hwindow
  cases hr : s.core.providers.deregister (.generate "a") with
  | error f =>
    rw [hr] at hwindow
    cases hwindow
  | ok r =>
    obtain ⟨functions, providers⟩ := r
    rw [hr] at hwindow
    have hdeny : ({ s.core with providers } : Core).check sampleCall default =
        .ok (.deny .notGranted) := Except.ok.inj hwindow
    have hseen := seen_run hs
    obtain ⟨d, hd, hdue⟩ := (check_exact hseen sampleCall default).2.1 (by decide)
    obtain ⟨e, he, hdue'⟩ :=
      (check_exact (hseen.deregistered hr) sampleCall default).2.1 (by decide)
    exact ⟨s, functions, providers, hseen, (hdue _).mpr (Except.ok.inj (hallow.symm.trans hd)),
      hr, (hdue' _).mpr (Except.ok.inj (hdeny.symm.trans he))⟩

end System

end ApiExposure
