import ApiExposure.Proofs.Authorization.Decision

/-!
# Decisions and the order of grants

The check goes by the first live grant for a call, and two publishers may publish
one name and version on the same exposer, with expiries of their own. So the
order of the grants matters to the decision in one case: the call is not revoked,
and of the live grants for it some have expired and some have not. The decision
is then that of whichever comes first, and an expired grant hides one that has
not expired. In every other case all orders of the grants give one decision.
-/

namespace ApiExposure

namespace Core

/-- What is decided on a call of an invoker by its grants. -/
def judge (c : Core) (call : Call) (now : Instant) (grants : List Grant) : Decision :=
  match granted? grants (c.liveExposures call) call with
  | none => .deny .notGranted
  | some e =>
    if c.ledger.isRevoked call then .deny .revoked
    else if ApiVersion.hasPassed e.expiry now then .deny .expired
    else .allow

/-- The core in which an invoker holds other grants. -/
def withGrants (c : Core) (id : InvokerId) (i : InvokerIdentity) (grants : List Grant) : Core :=
  { c with invokers := ⟨c.invokers.table.insert id { i with grants }⟩ }

/-- The live grants for a call have all expired at a time, or none has. -/
def ExpireTogether (c : Core) (call : Call) (now : Instant) (grants : List Grant) : Prop :=
  ∀ g ∈ grants, ∀ h ∈ grants, ∀ a b v w, c.LiveFor call g a v → c.LiveFor call h b w →
    ApiVersion.hasPassed v.expiry now = ApiVersion.hasPassed w.expiry now

variable {c : Core} {call : Call} {now : Instant} {grants order : List Grant}

/-- An onboarded invoker is judged by the grants that it holds. -/
theorem check_eq_judge {i : InvokerIdentity} (hb : call.hasBlank = false)
    (hi : c.invokers.table.get? call.invoker = some i) :
    c.check call now = .ok (c.judge call now i.grants) := by
  rw [check_of_not_hasBlank hb, hi, judge]
  dsimp only
  cases granted? i.grants (c.liveExposures call) call with
  | none => rfl
  | some e =>
    dsimp only
    cases c.ledger.isRevoked call with
    | true => rfl
    | false => cases ApiVersion.hasPassed e.expiry now <;> rfl

/-- With other grants it is judged by those. -/
theorem check_withGrants {i : InvokerIdentity} (hb : call.hasBlank = false) :
    (c.withGrants call.invoker i grants).check call now = .ok (c.judge call now grants) := by
  have hi : (c.withGrants call.invoker i grants).invokers.table.get? call.invoker =
      some { i with grants } := Table.get?_insert_self _ _ _
  exact check_eq_judge hb hi

/-- The grants of others do not matter. -/
theorem check_withGrants_of_ne {i : InvokerIdentity} {id : InvokerId} (h : call.invoker ≠ id) :
    (c.withGrants id i grants).check call now = c.check call now := by
  cases hb : call.hasBlank with
  | true => rw [check_of_hasBlank hb, check_of_hasBlank hb]
  | false =>
    rw [check_of_not_hasBlank hb, check_of_not_hasBlank hb, withGrants]
    dsimp only
    rw [Table.get?_insert_of_ne _ _ h]
    rfl

/-- The first live grant is one of the grants. -/
theorem FirstLive.mem {g : Grant} {a : PublishedApi} {v : ApiVersion}
    (h : c.FirstLive call grants g a v) : g ∈ grants := by
  obtain ⟨before, after, rfl, _⟩ := h.first
  exact List.mem_append_right _ List.mem_cons_self

/-- A live grant in front decides on a call that is not revoked. -/
theorem judge_cons_of_live (hc : c.store.WellFormed) {g : Grant} {a : PublishedApi}
    {v : ApiVersion} (hlive : c.LiveFor call g a v) (hr : c.ledger.isRevoked call = false) :
    c.judge call now (g :: grants) =
      if ApiVersion.hasPassed v.expiry now then .deny .expired else .allow := by
  have hfirst : c.FirstLive call (g :: grants) g a v := ⟨hlive, [], grants, rfl, nofun⟩
  rw [judge, (granted?_eq_some_iff hc).mpr ⟨g, a, v, hfirst, rfl⟩]
  dsimp only
  rw [hr, if_neg Bool.false_ne_true]

/-- The order does not matter to a revoked call, nor where the live grants expire together. -/
theorem judge_eq_of_perm (hc : c.store.WellFormed) (hp : order.Perm grants)
    (h : c.ledger.isRevoked call = true ∨ c.ExpireTogether call now grants) :
    c.judge call now order = c.judge call now grants := by
  cases hgranted : granted? grants (c.liveExposures call) call with
  | none =>
    have hdead := (granted?_eq_none_iff hc).mp hgranted
    have hnone : granted? order (c.liveExposures call) call = none :=
      (granted?_eq_none_iff hc).mpr fun g hg => hdead g (hp.mem_iff.mp hg)
    rw [judge, judge, hgranted, hnone]
  | some e =>
    obtain ⟨g, a, v, hfirst, rfl⟩ := (granted?_eq_some_iff hc).mp hgranted
    have hg : g ∈ grants := hfirst.mem
    have hsome : granted? order (c.liveExposures call) call ≠ none := fun hnone =>
      (granted?_eq_none_iff hc).mp hnone g (hp.mem_iff.mpr hg) ⟨a, v, hfirst.live⟩
    obtain ⟨f, hf⟩ := Option.ne_none_iff_exists'.mp hsome
    obtain ⟨k, b, w, hfirst', rfl⟩ := (granted?_eq_some_iff hc).mp hf
    rw [judge, judge, hgranted, hf]
    dsimp only
    rcases h with hr | htogether
    · rw [if_pos hr, if_pos hr]
    · rw [htogether g hg k (hp.mem_iff.mp hfirst'.mem) a b v w hfirst.live hfirst'.live]

/-- Where the order does not matter to a call that is not revoked, the live grants expire
together: each of two could come first. -/
theorem expireTogether_of_judge (hc : c.store.WellFormed) (hr : c.ledger.isRevoked call = false)
    (h : ∀ order : List Grant, order.Perm grants →
      c.judge call now order = c.judge call now grants) : c.ExpireTogether call now grants := by
  intro g hg k hk a b v w hglive hklive
  have hsame : c.judge call now (g :: grants.erase g) = c.judge call now (k :: grants.erase k) :=
    (h _ (List.perm_cons_erase hg).symm).trans (h _ (List.perm_cons_erase hk).symm).symm
  rw [judge_cons_of_live hc hglive hr, judge_cons_of_live hc hklive hr] at hsame
  cases hv : ApiVersion.hasPassed v.expiry now <;> cases hw : ApiVersion.hasPassed w.expiry now <;>
    simp [hv, hw] at hsame ⊢

/-- Whether the live grants expire together is seen from their exposures. -/
theorem expireTogether_iff (hc : c.store.WellFormed) :
    c.ExpireTogether call now grants ↔
      ∀ p ∈ (grants.filterMap (c.liveExposure? call)).map (ApiVersion.hasPassed ·.expiry now),
        ∀ q ∈ (grants.filterMap (c.liveExposure? call)).map (ApiVersion.hasPassed ·.expiry now),
          p = q := by
  simp only [List.forall_mem_map, List.mem_filterMap, forall_exists_index, and_imp,
    liveExposure?_eq_some_iff hc]
  constructor
  · rintro h _ g hg a v hv rfl _ k hk b w hw rfl
    exact h g hg k hk a b v w hv hw
  · intro h g hg k hk a b v w hv hw
    exact h _ g hg a v hv rfl _ k hk b w hw rfl

end Core

namespace System

/-- In every state that may be seen and for every onboarded invoker, the decision on a call is
the same in all orders of the invoker's grants exactly when the call is refused for a blank
field, is another invoker's, is revoked, or its live grants have all expired or none has. -/
theorem check_any_order_iff {s : System} (hs : s.Seen) {id : InvokerId} {i : InvokerIdentity}
    (hi : s.core.invokers.table.get? id = some i) (call : Call) (now : Instant) :
    (∀ order : List Grant, order.Perm i.grants →
        (s.core.withGrants id i order).check call now = s.core.check call now) ↔
      call.hasBlank = true ∨ call.invoker ≠ id ∨ s.core.ledger.isRevoked call = true ∨
        s.core.ExpireTogether call now i.grants := by
  have hc := hs.tracked_and_wellFormed.2
  cases hb : call.hasBlank with
  | true =>
    refine iff_of_true (fun order _ => ?_) (.inl rfl)
    rw [Core.check_of_hasBlank hb, Core.check_of_hasBlank hb]
  | false =>
    by_cases hid : call.invoker = id
    · subst hid
      simp only [Core.check_withGrants hb, Core.check_eq_judge hb hi, Except.ok.injEq, ne_eq,
        not_true_eq_false, Bool.false_eq_true, false_or]
      refine ⟨fun h => ?_, fun h order hp => Core.judge_eq_of_perm hc hp h⟩
      cases hr : s.core.ledger.isRevoked call with
      | true => exact .inl rfl
      | false => exact .inr (Core.expireTogether_of_judge hc hr h)
    · exact iff_of_true (fun order _ => Core.check_withGrants_of_ne hid) (.inr (.inl hid))

/-- A domain with two publishers and an exposer. -/
def sharedDomain : DomainRegistration where
  credential := "secret"
  functions := [
    { role := some .publisher, registration := some { publicKey := "key" } },
    { role := some .publisher, registration := some { publicKey := "key" } },
    { role := some .exposer, registration := some { publicKey := "key" } }]

/-- An API on the exposer of the shared domain, with an expiry. -/
def sharedApi (expiry : Option Instant) : ApiDescription where
  name := "maps"
  profiles := [{ exposer := .generate .exposer "aaaa" }]
  versions := [{ name := "v1", expiry := expiry }]

/-- When the version of the first publisher expires. -/
def sharedExpiry : Instant := ⟨⟨2000, 1, 1⟩, 0, 0, 0⟩

/-- An invoker that asks for the APIs of both publishers. -/
def sharedEnrolment : Enrolment where
  onboarding := { publicKey := "key" }
  requested := [.generate "b", .generate "c"]

/-- Both publishers publish the API, the first with an expiry, and the invoker is onboarded. -/
def sharedSchedule : List Move := [
  .start 0 (.registerProvider sharedDomain) (.lettered 'a' default),
  .start 1 (.publish (.generate .publisher "aa") (sharedApi sharedExpiry)) (.lettered 'b' default),
  .resume 1 (.errand (.ok ())),
  .start 2 (.publish (.generate .publisher "aaa") (sharedApi none)) (.lettered 'c' default),
  .resume 2 (.errand (.ok ())),
  .start 3 (.onboard sharedEnrolment) (.lettered 'd' default),
  .resume 3 (.client (.ok ⟨"client", "secret"⟩))]

/-- The call for which the invoker has two grants. -/
def sharedCall : Call := ⟨.generate "d", .generate .exposer "aaaa", "maps", "v1"⟩

/-- When the first version has expired. -/
def afterSharedExpiry : Instant := ⟨⟨2001, 1, 1⟩, 0, 0, 0⟩

/-- Before the expiry the shared call is allowed in every order of its grants. -/
theorem check_any_order_sample :
    ∃ s i, Seen s ∧ s.core.invokers.table.get? (.generate "d") = some i ∧ i.grants.length = 2 ∧
      s.core.check sharedCall default = .ok .allow ∧
      ∀ order : List Grant, order.Perm i.grants →
        (s.core.withGrants (.generate "d") i order).check sharedCall default =
          s.core.check sharedCall default := by
  have hrun : (fresh.run sharedSchedule).bind (fun s =>
      (s.core.invokers.table.get? (.generate "d")).map (fun i => (i.grants.length,
        s.core.check sharedCall default, (i.grants.filterMap (s.core.liveExposure? sharedCall)).map
          (ApiVersion.hasPassed ·.expiry default)))) =
      some (2, .ok .allow, [false, false]) := rfl
  obtain ⟨s, hs, h⟩ := Option.bind_eq_some_iff.mp hrun
  obtain ⟨i, hi, h⟩ := Option.map_eq_some_iff.mp h
  simp only [Prod.mk.injEq] at h
  obtain ⟨hlength, hallow, hexpired⟩ := h
  have hseen := seen_run hs
  refine ⟨s, i, hseen, hi, hlength, hallow,
    (check_any_order_iff hseen hi sharedCall default).mpr (.inr (.inr (.inr ?_)))⟩
  rw [Core.expireTogether_iff hseen.tracked_and_wellFormed.2, hexpired]
  decide

/-- After the expiry it is denied, and it is allowed in the other order. -/
theorem expired_grant_masks :
    ∃ s i order, Seen s ∧ s.core.invokers.table.get? (.generate "d") = some i ∧
      order.Perm i.grants ∧
      s.core.check sharedCall afterSharedExpiry = .ok (.deny .expired) ∧
      (s.core.withGrants (.generate "d") i order).check sharedCall afterSharedExpiry =
        .ok .allow := by
  have hrun : (fresh.run sharedSchedule).bind (fun s =>
      (s.core.invokers.table.get? (.generate "d")).map (fun i =>
        (s.core.check sharedCall afterSharedExpiry,
          (s.core.withGrants (.generate "d") i i.grants.reverse).check sharedCall
            afterSharedExpiry))) = some (.ok (.deny .expired), .ok .allow) := rfl
  obtain ⟨s, hs, h⟩ := Option.bind_eq_some_iff.mp hrun
  obtain ⟨i, hi, h⟩ := Option.map_eq_some_iff.mp h
  obtain ⟨hdenied, hallowed⟩ := Prod.mk.inj h
  exact ⟨s, i, i.grants.reverse, seen_run hs, hi, List.reverse_perm _, hdenied, hallowed⟩

end System

end ApiExposure
