import ApiExposure.Core.State

/-!
# Discovery

Discovery is no public catalogue. An invoker sees a published API only through
the profiles that it holds grants for, and only while the publisher and the
exposing functions are live.
-/

namespace ApiExposure.Core

/-- Whether a profile of an API may be shown: it matches, its function is a live exposer and a
grant is held for it. -/
def isVisible (c : Core) (grants : List Grant) (criteria : Criteria) (a : PublishedApi)
    (p : Profile) : Bool :=
  criteria.matchesProfile p && c.providers.roleOf p.exposer == some .exposer
    && grants.any (fun g => g.api == a.id && g.exposer == p.exposer)

/-- An API as the holder of grants sees it, if it sees anything of it. -/
def view? (c : Core) (grants : List Grant) (criteria : Criteria) (a : PublishedApi) :
    Option PublishedApi :=
  if c.providers.roleOf a.publisher = some .publisher then
    match a.description.profiles.filter (c.isVisible grants criteria a) with
    | [] => none
    | p :: ps => some { a with description := { a.description with profiles := p :: ps } }
  else none

/-- The APIs that an invoker may see and that match criteria, in the order of publication. -/
def discover (c : Core) (id : InvokerId) (criteria : Criteria) : Outcome (List PublishedApi) :=
  match c.invokers.table.get? id with
  | none => .error (.denied .unknownInvoker)
  | some invoker => .ok ((c.store.query criteria).filterMap (c.view? invoker.grants criteria))

/-- Only an invoker that is not onboarded is turned away. -/
theorem discover_eq_error_iff {c : Core} {id : InvokerId} {criteria : Criteria} {f : Failure} :
    c.discover id criteria = .error f ↔
      c.invokers.table.get? id = none ∧ f = .denied .unknownInvoker := by
  unfold discover
  cases h : c.invokers.table.get? id <;> simp [eq_comm]

end ApiExposure.Core
