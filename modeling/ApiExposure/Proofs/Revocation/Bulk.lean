import Mathlib.Data.String.Basic
import ApiExposure.Proofs.Collaborators.Outages
import ApiExposure.Proofs.Revocation.Scope
import ApiExposure.Proofs.Security.Contexts

/-!
# What a bulk revocation does

A bulk revocation looks at the grants of an invoker and at the entries of its security
context, each with a comparison of its own. Both ask whether the scope names the
exposer or the API; a grant always has both, an entry may lack one. The revocation
could stop between two grants, but as no grant that is held has a blank field, it
fails before it has done anything or not at all.
-/

namespace ApiExposure

namespace RevocationScope

variable {scope : RevocationScope}

/-- A scope names the exposer or the API of something, as far as it has them. -/
def Names (scope : RevocationScope) (exposer : Option FunctionId) (api : Option ApiId) : Prop :=
  (∃ e ∈ exposer, scope.exposer = some e) ∨ ∃ a ∈ api, a ∈ scope.apis

instance (scope : RevocationScope) (exposer : Option FunctionId) (api : Option ApiId) :
    Decidable (scope.Names exposer api) := inferInstanceAs (Decidable (_ ∨ _))

/-- A scope is empty when it names nothing. -/
theorem isEmpty_iff : scope.isEmpty = true ↔ scope = {} := by
  rcases scope with ⟨_ | e, _ | ⟨a, apis⟩⟩ <;> simp [isEmpty]

/-- A grant is within a scope that names its exposer or its API. -/
theorem matchesGrant_iff {g : Grant} :
    scope.matchesGrant g = true ↔ scope.Names (some g.exposer) (some g.api) := by
  simp [matchesGrant, Names]

/-- So is an entry of a context. -/
theorem revokedBy_iff {e : SecurityEntry} :
    e.revokedBy scope = true ↔ scope.Names e.exposer e.api := by
  simp only [SecurityEntry.revokedBy, Names, Bool.or_eq_true, Bool.and_eq_true, beq_iff_eq,
    Option.any_eq_true, List.contains_eq_mem, decide_eq_true_eq]
  refine or_congr_left ?_
  constructor
  · rintro ⟨hsome, hsame⟩
    obtain ⟨x, hx⟩ := Option.isSome_iff_exists.mp hsome
    exact ⟨x, hsame ▸ hx, hx⟩
  · rintro ⟨x, hx, hnamed⟩
    exact ⟨Option.isSome_of_eq_some hnamed, hnamed.trans hx.symm⟩

/-- So the grants within a scope are those that it names, -/
theorem filter_matchesGrant (scope : RevocationScope) (grants : List Grant) :
    grants.filter scope.matchesGrant =
      grants.filter (fun g => scope.Names (some g.exposer) (some g.api)) :=
  List.filter_congr fun g _ => by rw [Bool.eq_iff_iff, matchesGrant_iff, decide_eq_true_eq]

/-- and a context keeps the entries that it does not name. -/
theorem revoke_eq (scope : RevocationScope) (c : SecurityContext) :
    c.revoke scope =
      { c with entries := c.entries.filter (fun e => ¬ scope.Names e.exposer e.api) } := by
  have hleft : c.entries.filter (fun e => !e.revokedBy scope) =
      c.entries.filter (fun e => ¬ scope.Names e.exposer e.api) :=
    List.filter_congr fun e _ => by
      rw [Bool.eq_iff_iff, decide_eq_true_eq, ← revokedBy_iff, Bool.not_eq_true',
        Bool.not_eq_true]
  rw [SecurityContext.revoke, hleft]

end RevocationScope

namespace Core

/-- Sorting texts and dropping repetitions keeps every text. -/
theorem mem_ascending {texts : List String} {text : String} :
    text ∈ ascending texts ↔ text ∈ texts := by
  rw [ascending, List.mem_eraseDups, List.mem_mergeSort]

/-- Without its repetitions an ascending list is strictly ascending. -/
theorem pairwise_lt_eraseDups : ∀ {texts : List String}, texts.Pairwise (· ≤ ·) →
    texts.eraseDups.Pairwise (· < ·)
  | [], _ => by simp
  | t :: texts, h => by
    obtain ⟨hfirst, hrest⟩ := List.pairwise_cons.mp h
    rw [List.eraseDups_cons, List.pairwise_cons]
    refine ⟨fun u hu => ?_, pairwise_lt_eraseDups (hrest.sublist List.filter_sublist)⟩
    obtain ⟨hmem, hne⟩ := List.mem_filter.mp (List.mem_eraseDups.mp hu)
    refine lt_of_le_of_ne (hfirst u hmem) fun he => ?_
    simp [he] at hne
termination_by texts => texts.length
decreasing_by exact Nat.lt_succ_of_le (List.length_filter_le _ _)

/-- Sorted texts without repetition ascend strictly. -/
theorem pairwise_ascending (texts : List String) : (ascending texts).Pairwise (· < ·) := by
  have hsorted : (texts.mergeSort (fun a b => decide (a ≤ b))).Pairwise
      (fun a b => decide (a ≤ b) = true) :=
    List.pairwise_mergeSort (fun a b c => by simpa using String.le_trans)
      (fun a b => by simpa using String.le_total a b) texts
  exact pairwise_lt_eraseDups (hsorted.imp of_decide_eq_true)

/-- What a bulk revocation within a scope comes to that is about these grants of an invoker: the
state that it leaves and the calls that it makes. -/
structure RevokesWithin (c : Core) (id : InvokerId) (scope : RevocationScope) (now : Instant)
    (grants : List Grant) (after : Core) (calls : List Contact) : Prop where
  /-- The calls that the grants allow are revoked; the ledger says the same as before of all
  others. -/
  ledger : ∀ call, after.ledger.entry? call =
    if ∃ g ∈ grants, g.call id = call then some ⟨.revoked, now⟩ else c.ledger.entry? call
  /-- The context of the invoker keeps the entries that the scope does not name, in their order,
  and is gone if none is left. -/
  context : after.trusted.table.get? id = (c.trusted.table.get? id).bind (fun context =>
    let left := context.entries.filter (fun e => ¬ scope.Names e.exposer e.api)
    if left.isEmpty then none else some { context with entries := left })
  /-- The contexts of others are as before. -/
  contexts : ∀ k, k ≠ id → after.trusted.table.get? k = c.trusted.table.get? k
  /-- Nothing else is changed, no invoker and no grant. -/
  rest : after = { c with ledger := after.ledger, trusted := after.trusted }
  /-- Without grants no call is made. -/
  silent : grants = [] → calls = []
  /-- Otherwise it is made known once whose access to which APIs and exposers is revoked, both in
  strictly ascending order. -/
  notice : grants ≠ [] → ∃ apis exposers, calls = [.notice (.accessRevoked id apis exposers)] ∧
    (apis.map (·.text)).Pairwise (· < ·) ∧ (∀ a, a ∈ apis ↔ ∃ g ∈ grants, g.api = a) ∧
    (exposers.map (·.text)).Pairwise (· < ·) ∧ ∀ e, e ∈ exposers ↔ ∃ g ∈ grants, g.exposer = e

/-- Identifiers made of ascending texts are in that order, and they are those that the grants
have. -/
theorem ascending_identifiers {ι : Type} (mk : String → ι) (text : ι → String)
    (hmk : ∀ t, text (mk t) = t) (htext : ∀ i, mk (text i) = i) (grants : List Grant)
    (of : Grant → ι) :
    (((ascending (grants.map (fun g => text (of g)))).map mk).map text).Pairwise (· < ·) ∧
      ∀ i, i ∈ (ascending (grants.map (fun g => text (of g)))).map mk ↔
        ∃ g ∈ grants, of g = i := by
  constructor
  · have hid : text ∘ mk = id := funext hmk
    rw [List.map_map, hid, List.map_id]
    exact pairwise_ascending _
  · intro i
    simp only [List.mem_map, mem_ascending]
    constructor
    · rintro ⟨_, ⟨g, hg, rfl⟩, rfl⟩
      exact ⟨g, hg, (htext _).symm⟩
    · rintro ⟨g, hg, rfl⟩
      exact ⟨_, ⟨g, hg, rfl⟩, htext _⟩

/-- The deeds of a bulk revocation after it has taken effect. -/
def revocationDeeds (id : InvokerId) (grants : List Grant) : List Deed :=
  if grants.isEmpty then []
  else [.announcement (.accessRevoked id ((ascending (grants.map (·.api.text))).map ApiId.mk)
    ((ascending (grants.map (·.exposer.text))).map FunctionId.mk))]

/-- Revoking grants and cutting the context by a scope comes to this. -/
theorem revokesWithin (c : Core) (id : InvokerId) (scope : RevocationScope) (now : Instant)
    (grants : List Grant) :
    c.RevokesWithin id scope now grants
      { c with
        ledger := revokeGrants c.ledger id grants now
        trusted := (c.trusted.revoke id scope).2 }
      ((revocationDeeds id grants).map Contact.ofDeed) where
  ledger := entry?_revokeGrants c.ledger id grants now
  context := by
    refine (TrustedInvokers.get?_revoke c.trusted id scope id).trans ((if_pos rfl).trans ?_)
    exact congrArg _ (funext fun context => by rw [RevocationScope.revoke_eq])
  contexts := fun k hk => (TrustedInvokers.get?_revoke c.trusted id scope k).trans (if_neg hk)
  rest := rfl
  silent := fun h => by rw [h]; rfl
  notice := fun h => by
    obtain ⟨hapis, hmemApis⟩ := ascending_identifiers ApiId.mk ApiId.text (fun _ => rfl)
      (fun _ => rfl) grants (·.api)
    obtain ⟨hexposers, hmemExposers⟩ := ascending_identifiers FunctionId.mk FunctionId.text
      (fun _ => rfl) (fun _ => rfl) grants (·.exposer)
    refine ⟨_, _, ?_, hapis, hmemApis, hexposers, hmemExposers⟩
    rw [revocationDeeds, if_neg (by simpa using h)]
    rfl

variable {c : Core}

/-- A bulk revocation for an onboarded invoker takes effect as it starts. -/
theorem revokeAccess_settled (hc : c.invokers.Complete) {id : InvokerId} {i : InvokerIdentity}
    (hi : c.invokers.table.get? id = some i) {scope : RevocationScope}
    (hscope : scope.isEmpty = false) (now : Instant) :
    let grants := i.grants.filter scope.matchesGrant
    (c.revokeAccess id scope now).state = { c with
        ledger := revokeGrants c.ledger id grants now
        trusted := (c.trusted.revoke id scope).2 } ∧
      (c.revokeAccess id scope now).Settled (.ok grants) ∧
      (c.revokeAccess id scope now).Does (revocationDeeds id grants) := by
  intro grants
  rw [revokeAccess_eq hc hi hscope, revocationDeeds]
  split
  · exact ⟨rfl, rfl, rfl⟩
  · exact ⟨rfl, fun _ => ⟨rfl, rfl⟩, Flow.does_announce _ _ _⟩

end Core

namespace System

/-- The effect of bulk revocations: in every state that may be seen, a bulk revocation with an empty
scope is refused, and otherwise one for an invoker that is not onboarded, and then nothing is done.
In all other cases it succeeds with the grants within the scope, in the order in which they are
held. What it leaves and which calls it makes does not depend on what others do during these. -/
theorem revokeAccess_exact {s : System} (hs : s.Seen) (id : InvokerId) (scope : RevocationScope)
    (o : Occasion) :
    (scope = {} → ∀ p : Script, (Command.revokeAccess id scope).scripted o s.core p =
      ((s.core, .error (.invalid .emptyScope)), [])) ∧
    (scope ≠ {} → s.core.invokers.table.get? id = none → ∀ p : Script,
      (Command.revokeAccess id scope).scripted o s.core p =
        ((s.core, .error (.notFound (.invoker id))), [])) ∧
    ∀ i, scope ≠ {} → s.core.invokers.table.get? id = some i →
      let grants := i.grants.filter (fun g => scope.Names (some g.exposer) (some g.api))
      ∃ after calls, s.core.RevokesWithin id scope o.now grants after calls ∧
        (∀ t u, s.step (.start t (.revokeAccess id scope) o) = some u → u.core = after) ∧
        ∀ p : Script,
          ((Command.revokeAccess id scope).scripted o s.core p).1 =
              (p.during 0 calls.length after, .ok grants) ∧
            ((Command.revokeAccess id scope).scripted o s.core p).2.made = calls := by
  refine ⟨fun hempty p => ?_, fun hscope hnone p => ?_, fun i hscope hi => ?_⟩
  · have hstart : (Command.revokeAccess id scope).start o s.core =
        .done s.core (.error (.invalid .emptyScope)) := by
      rw [Command.start, Core.revokeAccess, if_pos (RevocationScope.isEmpty_iff.mpr hempty)]
    rw [Command.scripted, hstart]
    rfl
  · have hnotEmpty : ¬ scope.isEmpty = true := fun h => hscope (RevocationScope.isEmpty_iff.mp h)
    have hstart : (Command.revokeAccess id scope).start o s.core =
        .done s.core (.error (.notFound (.invoker id))) := by
      rw [Command.start, Core.revokeAccess, if_neg hnotEmpty, Invokers.grantsMatching,
        Invokers.grantsOf, Invokers.get, hnone]
      rfl
    rw [Command.scripted, hstart]
    rfl
  · have hnotEmpty : scope.isEmpty = false :=
      Bool.eq_false_iff.mpr fun h => hscope (RevocationScope.isEmpty_iff.mp h)
    intro grants
    have hgrants : i.grants.filter scope.matchesGrant = grants := scope.filter_matchesGrant i.grants
    obtain ⟨hstate, hsettled, hdoes⟩ := Core.revokeAccess_settled hs.complete hi hnotEmpty o.now
    rw [hgrants] at hstate hsettled hdoes
    refine ⟨_, _, s.core.revokesWithin id scope o.now grants, fun t u hu => ?_, fun p => ?_⟩
    · obtain ⟨_, rfl⟩ := step_start.mp hu
      exact hstate
    · obtain ⟨hend, hmade⟩ :=
        @Command.scripted_of_settled o s.core (.revokeAccess id scope) _ _ hsettled hdoes p
      rw [List.length_map, ← hstate]
      exact ⟨hend, hmade⟩

/-- An entry on an interface, for an API or for none. -/
def interfaceEntry (api : Option ApiId) : SecurityEntry where
  api := api
  interface := some {}
  preferred := [.pki]

/-- After both shared APIs are granted, the invoker gets a context that is about the first in part.
-/
def partlyShared : List Move := sharedSchedule ++ [
  .start 4 (.createContext (.generate "d")
    { entries := [interfaceEntry (some (.generate "b")), interfaceEntry none]
      destination := "http://a" }) (.lettered 'e' default)]

/-- The first API is revoked while all calls fail: one grant is, and of two entries one is left. -/
theorem revokeAccess_exact_sample :
    ∃ (s : System) (after : Core) (left : SecurityContext), s.Seen ∧
      s.core.RevokesWithin (.generate "d") firstShared default [firstGrant] after [
        .notice (.accessRevoked (.generate "d") [.generate "b"] [.generate .exposer "aaaa"])] ∧
      ((Command.revokeAccess (.generate "d") firstShared).scripted (.lettered 'f' default) s.core
        sampleBreakdown).1 = (after, .ok [firstGrant]) ∧
      after.trusted.table.get? (.generate "d") = some left ∧
      left.entries.map (·.api) = [none] := by
  let revocation := Command.revokeAccess (.generate "d") firstShared
  let o := Occasion.lettered 'f' default
  have hgrants : (fresh.run partlyShared).bind (fun s =>
      (s.core.invokers.table.get? (.generate "d")).map (·.grants)) =
      some [firstGrant, secondGrant] := by
    decide +kernel
  have hleft : ((fresh.run partlyShared).bind (fun s =>
      (revocation.scripted o s.core sampleBreakdown).1.1.trusted.table.get? (.generate "d"))).map
        (fun left => left.entries.map (·.api)) = some [none] := by
    decide +kernel
  have hmade : (fresh.run partlyShared).map (fun s =>
      (revocation.scripted o s.core sampleBreakdown).2.made) = some [
        .notice (.accessRevoked (.generate "d") [.generate "b"] [.generate .exposer "aaaa"])] := by
    with_unfolding_all rfl
  obtain ⟨s, hs, hfound⟩ := Option.bind_eq_some_iff.mp hgrants
  obtain ⟨i, hi, hheld⟩ := Option.map_eq_some_iff.mp hfound
  rw [hs, Option.map_some, Option.some.injEq] at hmade
  rw [hs, Option.bind_some] at hleft
  obtain ⟨left, hcontext, hentries⟩ := Option.map_eq_some_iff.mp hleft
  have hseen := seen_run hs
  obtain ⟨after, calls, hrevokes, _, hscripted⟩ :=
    (revokeAccess_exact hseen (.generate "d") firstShared o).2.2 i (by decide) hi
  have hwithin : i.grants.filter
      (fun g => firstShared.Names (some g.exposer) (some g.api)) = [firstGrant] := by
    rw [hheld]
    decide
  rw [hwithin] at hrevokes hscripted
  obtain ⟨hstate, hcalls⟩ := hscripted sampleBreakdown
  rw [Script.during_eq_self fun _ _ => rfl] at hstate
  have hafter : (revocation.scripted o s.core sampleBreakdown).1.1 = after :=
    congrArg Prod.fst hstate
  obtain rfl := hcalls.symm.trans hmade
  exact ⟨s, after, left, hseen, hrevokes, hstate, hafter ▸ hcontext, hentries⟩

end System

end ApiExposure
