import ApiExposure.Proofs.Authorization.Order
import ApiExposure.Proofs.Revocation.History
import ApiExposure.Proofs.System.Atomicity

/-!
# The scope of a bulk revocation

A scope selects grants by exposer and by API, and what is revoked are the calls
that the selected grants allow. A call does not name the API that it is for. So
an allowed call stays allowed exactly when no grant within the scope covers it;
a live grant outside the scope does not save it when a grant of another API
within the scope covers the same call. A scope without APIs cannot do this, as
all grants that cover a call are on one exposer.
-/

namespace ApiExposure

/-- A scope that only names an exposer has all grants that cover a call within it, or none. -/
theorem RevocationScope.matchesGrant_of_covers {scope : RevocationScope} (h : scope.apis = [])
    {call : Call} {g k : Grant} (hg : g.covers call = true) (hk : k.covers call = true) :
    scope.matchesGrant g = scope.matchesGrant k := by
  have hexposer : g.exposer = k.exposer := by
    rw [Grant.covers_iff] at hg hk
    exact (congrArg Call.exposer hg).trans (congrArg Call.exposer hk).symm
  simp [matchesGrant, h, hexposer]

namespace Core

variable {c : Core} {call : Call} {now : Instant}

/-- Where grants allow a call, with another ledger they do so unless it says that the call is
revoked. -/
theorem judge_of_allow {grants : List Grant} (h : c.judge call now grants = .allow)
    (ledger : Ledger) (trusted : TrustedInvokers) :
    ({ c with ledger, trusted } : Core).judge call now grants =
      if ledger.isRevoked call then .deny .revoked else .allow := by
  have hexposures : ({ c with ledger, trusted } : Core).liveExposures call =
      c.liveExposures call := rfl
  rw [judge] at h ⊢
  rw [hexposures]
  cases hgranted : granted? grants (c.liveExposures call) call with
  | none =>
    rw [hgranted] at h
    cases h
  | some e =>
    rw [hgranted] at h
    dsimp only at h ⊢
    split at h
    · cases h
    · split at h
      · cases h
      · next hpassed => rw [if_neg hpassed]

/-- So does the check. -/
theorem check_of_allow (h : c.check call now = .ok .allow) (ledger : Ledger)
    (trusted : TrustedInvokers) :
    ({ c with ledger, trusted } : Core).check call now =
      .ok (if ledger.isRevoked call then .deny .revoked else .allow) := by
  cases hb : call.hasBlank with
  | true =>
    rw [check_of_hasBlank hb] at h
    cases h
  | false =>
    cases hi : c.invokers.table.get? call.invoker with
    | none =>
      rw [check_of_not_hasBlank hb, hi] at h
      cases h
    | some i =>
      rw [check_eq_judge hb hi, Except.ok.injEq] at h
      rw [← judge_of_allow h]
      exact check_eq_judge hb hi

/-- A bulk revocation does not stop on its way: it revokes the calls of all grants within the scope,
cuts the context and makes this known if there was such a grant. -/
theorem revokeAccess_eq (hc : c.invokers.Complete) {id : InvokerId} {i : InvokerIdentity}
    (hi : c.invokers.table.get? id = some i) {scope : RevocationScope}
    (hscope : scope.isEmpty = false) (now : Instant) :
    let grants := i.grants.filter scope.matchesGrant
    let after := { c with
      ledger := revokeGrants c.ledger id grants now
      trusted := (c.trusted.revoke id scope).2 }
    c.revokeAccess id scope now =
      if grants.isEmpty then .done after (.ok grants)
      else .announce after (.accessRevoked id ((ascending (grants.map (·.api.text))).map ApiId.mk)
        ((ascending (grants.map (·.exposer.text))).map FunctionId.mk))
          (fun c => .done c (.ok grants)) := by
  have hg : c.invokers.grantsMatching id scope = .ok (i.grants.filter scope.matchesGrant) :=
    Invokers.grantsMatching_eq_ok_iff.mpr ⟨i, hi, rfl⟩
  rw [revokeAccess, hscope, hg]
  simp only [Bool.false_eq_true, if_false, hc.revokeEach hg]

/-- A bulk revocation that is performed alone revokes the calls of all grants within the scope
and returns these grants. -/
theorem perform_revokeAccess (hc : c.invokers.Complete) {id : InvokerId}
    {i : InvokerIdentity} (hi : c.invokers.table.get? id = some i) {scope : RevocationScope}
    (hscope : scope.isEmpty = false) (now : Instant) (errand : Errand → Except Outage Unit)
    (client : InvokerId → Except Outage ClientCredentials) :
    (c.revokeAccess id scope now).perform (.quiet errand client) =
      ({ c with
          ledger := revokeGrants c.ledger id (i.grants.filter scope.matchesGrant) now
          trusted := (c.trusted.revoke id scope).2 },
        .ok (i.grants.filter scope.matchesGrant)) := by
  rw [revokeAccess_eq hc hi hscope]
  split <;> rfl

end Core

namespace System

/-- In every state that may be seen and for every onboarded invoker, a bulk revocation with a
scope that is not empty succeeds. An allowed call of the invoker is revoked by it when a grant
within the scope covers the call, and stays allowed otherwise; so it does when a grant outside the
scope covers it and the scope lists no APIs. -/
theorem revokeAccess_within_scope {s : System} (hs : s.Seen) {id : InvokerId} {i : InvokerIdentity}
    (hi : s.core.invokers.table.get? id = some i) {scope : RevocationScope}
    (hscope : scope.isEmpty = false) {call : Call} (hcall : call.invoker = id) {now : Instant}
    (hallow : s.core.check call now = .ok .allow) (o : Occasion)
    (errand : Errand → Except Outage Unit)
    (client : InvokerId → Except Outage ClientCredentials) :
    ∃ d, ((Command.revokeAccess id scope).start o s.core).perform (.quiet errand client) =
        (d, .ok (i.grants.filter scope.matchesGrant)) ∧
      ((∃ g ∈ i.grants, scope.matchesGrant g = true ∧ g.covers call = true) →
        d.check call now = .ok (.deny .revoked)) ∧
      ((∀ g ∈ i.grants, g.covers call = true → scope.matchesGrant g = false) →
        d.check call now = .ok .allow) ∧
      (scope.apis = [] → (∃ g ∈ i.grants, g.covers call = true ∧ scope.matchesGrant g = false) →
        d.check call now = .ok .allow) := by
  refine ⟨_, Core.perform_revokeAccess hs.complete hi hscope o.now errand client, ?_⟩
  have hbefore : s.core.ledger.isRevoked call = false :=
    Bool.eq_false_iff.mpr fun hr => check_ne_allow_of_isRevoked hr now hallow
  have hafter : (Core.revokeGrants s.core.ledger id (i.grants.filter scope.matchesGrant)
      o.now).isRevoked call = true ↔
        ∃ g ∈ i.grants, scope.matchesGrant g = true ∧ g.covers call = true := by
    simp only [Core.isRevoked_revokeGrants, List.mem_filter, hbefore, Grant.covers_iff, hcall,
      Bool.false_eq_true, or_false, and_assoc]
  rw [Core.check_of_allow hallow]
  have hkept : (∀ g ∈ i.grants, g.covers call = true → scope.matchesGrant g = false) →
      ¬ (Core.revokeGrants s.core.ledger id (i.grants.filter scope.matchesGrant)
        o.now).isRevoked call = true := by
    rw [hafter]
    rintro houtside ⟨g, hg, hmatches, hcovers⟩
    rw [houtside g hg hcovers] at hmatches
    cases hmatches
  refine ⟨fun hwithin => ?_, fun houtside => ?_, ?_⟩
  · rw [if_pos (hafter.mpr hwithin)]
  · rw [if_neg (hkept houtside)]
  · rintro hapis ⟨g, _, hcovers, hmatches⟩
    have houtside : ∀ k ∈ i.grants, k.covers call = true → scope.matchesGrant k = false :=
      fun k _ hk => (RevocationScope.matchesGrant_of_covers hapis hk hcovers).trans hmatches
    rw [if_neg (hkept houtside)]

/-- All errands are done and all clients are issued. -/
def performAlone {α : Type} (f : Flow α) : Core × Outcome α :=
  f.perform (.quiet (fun _ => .ok ()) (fun id => .ok ⟨id.text, "secret"⟩))

/-- A grant for an API of another name. -/
def otherGrant : Grant := ⟨.generate "e", .generate .exposer "aaaa", "routes", "v1"⟩

/-- The invoker with two grants for the shared call gets the other one as well. -/
def otherSchedule : List Move := sharedSchedule ++ [
  .start 4 (.publish (.generate .publisher "aa") { sharedApi none with name := "routes" })
    (.lettered 'e' default),
  .resume 4 (.errand (.ok ())),
  .start 5 (.grant (.generate "d") otherGrant) (.lettered 'f' default)]

/-- The call that the other grant is for. -/
def otherCall : Call := otherGrant.call (.generate "d")

/-- The API of the other name is revoked. -/
def otherShared : RevocationScope := { apis := [.generate "e"] }

/-- With the API of the other name one grant of three is revoked: its call is denied, and the
shared call, whose grants are both outside the scope, stays allowed. -/
theorem revokeAccess_within_scope_sample :
    ∃ s i d, Seen s ∧ s.core.invokers.table.get? (.generate "d") = some i ∧ i.grants.length = 3 ∧
      otherShared.isEmpty = false ∧ s.core.check sharedCall default = .ok .allow ∧
      s.core.check otherCall default = .ok .allow ∧
      performAlone ((Command.revokeAccess (.generate "d") otherShared).start
        (.lettered 'g' default) s.core) = (d, .ok [otherGrant]) ∧
      d.check sharedCall default = .ok .allow ∧
      d.check otherCall default = .ok (.deny .revoked) := by
  have hrun : (fresh.run otherSchedule).bind (fun s =>
      (s.core.invokers.table.get? (.generate "d")).map (fun i =>
        (s.core.check sharedCall default, s.core.check otherCall default, i.grants.length,
          i.grants.filter otherShared.matchesGrant,
          i.grants.filter (fun g => g.covers sharedCall && otherShared.matchesGrant g)))) =
      some (.ok .allow, .ok .allow, 3, [otherGrant], []) := rfl
  obtain ⟨s, hs, h⟩ := Option.bind_eq_some_iff.mp hrun
  obtain ⟨i, hi, h⟩ := Option.map_eq_some_iff.mp h
  simp only [Prod.mk.injEq] at h
  obtain ⟨hallow, hother, hlength, hwithin, hshared⟩ := h
  have hseen : s.Seen := seen_run hs
  have hscope : otherShared.isEmpty = false := by decide
  obtain ⟨d, hperform, _, hkept, _⟩ := revokeAccess_within_scope hseen hi hscope rfl hallow
    (.lettered 'g' default) (fun _ => .ok ()) (fun id => .ok ⟨id.text, "secret"⟩)
  obtain ⟨d', hperform', hrevoked, _⟩ := revokeAccess_within_scope hseen hi hscope rfl hother
    (.lettered 'g' default) (fun _ => .ok ()) (fun id => .ok ⟨id.text, "secret"⟩)
  obtain rfl : d = d' := congrArg Prod.fst (hperform.symm.trans hperform')
  have hgrant : otherGrant ∈ i.grants.filter otherShared.matchesGrant := by
    rw [hwithin]
    exact List.mem_singleton_self _
  obtain ⟨hheld, hmatches⟩ := List.mem_filter.mp hgrant
  rw [hwithin] at hperform
  refine ⟨s, i, d, hseen, hi, hlength, hscope, hallow, hother, hperform,
    hkept fun g hg hcovers => ?_, hrevoked ⟨otherGrant, hheld, hmatches, by decide⟩⟩
  refine Bool.eq_false_iff.mpr fun hmatches => ?_
  exact List.filter_eq_nil_iff.mp hshared g hg (Bool.and_eq_true_iff.mpr ⟨hcovers, hmatches⟩)

/-- The first of the shared APIs is revoked. -/
def firstShared : RevocationScope := { apis := [.generate "b"] }

/-- The grant for the first of the shared APIs. -/
def firstGrant : Grant := ⟨.generate "b", .generate .exposer "aaaa", "maps", "v1"⟩

/-- The grant for the second. -/
def secondGrant : Grant := ⟨.generate "c", .generate .exposer "aaaa", "maps", "v1"⟩

/-- With the first API the shared call is revoked, although the grant for the second is outside
the scope, live, and without an expiry. -/
theorem revoked_outside_scope :
    ∃ s i a v d, Seen s ∧ s.core.invokers.table.get? (.generate "d") = some i ∧
      s.core.check sharedCall default = .ok .allow ∧
      secondGrant ∈ i.grants ∧ s.core.LiveFor sharedCall secondGrant a v ∧ v.expiry = none ∧
      firstShared.isEmpty = false ∧ firstShared.matchesGrant secondGrant = false ∧
      performAlone ((Command.revokeAccess (.generate "d") firstShared).start
        (.lettered 'e' default) s.core) = (d, .ok [firstGrant]) ∧
      d.check sharedCall default = .ok (.deny .revoked) := by
  let revoking (s : System) := performAlone
    ((Command.revokeAccess (.generate "d") firstShared).start (.lettered 'e' default) s.core)
  have hrun : (fresh.run sharedSchedule).bind (fun s =>
      (s.core.invokers.table.get? (.generate "d")).map (fun i =>
        (s.core.check sharedCall default, i.grants,
          s.core.liveExposure? sharedCall secondGrant, (revoking s).2,
          (revoking s).1.check sharedCall default))) =
      some (.ok .allow, [firstGrant, secondGrant],
        some ⟨.generate "c", .generate .publisher "aaa", none⟩, .ok [firstGrant],
        .ok (.deny .revoked)) := rfl
  obtain ⟨s, hs, h⟩ := Option.bind_eq_some_iff.mp hrun
  obtain ⟨i, hi, h⟩ := Option.map_eq_some_iff.mp h
  simp only [Prod.mk.injEq] at h
  obtain ⟨hallow, hgrants, hexposure, hresult, hdenied⟩ := h
  have hseen := seen_run hs
  obtain ⟨a, v, hlive, he⟩ :=
    (Core.liveExposure?_eq_some_iff hseen.tracked_and_wellFormed.2).mp hexposure
  have hexpiry : v.expiry = none := (congrArg Exposure.expiry he).symm
  exact ⟨s, i, a, v, (revoking s).1, hseen, hi, hallow, by simp [hgrants], hlive, hexpiry,
    by decide, by decide, Prod.ext rfl hresult, hdenied⟩

end System

end ApiExposure
