import ApiExposure.Core.State

/-!
# Authorization

A call is decided by the first grant of its invoker that covers it and is live:
the API is still published with the name, the version and the exposing
function, and publisher and exposer are still registered. Reasons for a denial
are given in a fixed order: unknown invoker, not granted, revoked, expired.
-/

namespace ApiExposure.Core

/-- Live publications that a call can be for, in the order of publication. -/
def liveExposures (c : Core) (call : Call) : List Exposure :=
  if c.providers.roleOf call.exposer = some .exposer then
    (c.store.exposures call.exposer call.apiName call.version).filter
      (fun e => c.providers.roleOf e.publisher == some .publisher)
  else []

/-- The publication that the first live covering grant is for. -/
def granted? (grants : List Grant) (exposures : List Exposure) (call : Call) :
    Option Exposure :=
  (grants.filter (·.covers call)).findSome? (fun g => exposures.find? (fun e => e.api == g.api))

/-- Decides on a call at a point in time. Nothing changes. -/
def check (c : Core) (call : Call) (now : Instant) : Outcome Decision := do
  call.validate
  match c.invokers.table.get? call.invoker with
  | none => .ok (.deny .unknownInvoker)
  | some invoker =>
    match granted? invoker.grants (c.liveExposures call) call with
    | none => .ok (.deny .notGranted)
    | some exposure =>
      if c.ledger.isRevoked call then .ok (.deny .revoked)
      else if ApiVersion.hasPassed exposure.expiry now then .ok (.deny .expired)
      else .ok .allow

end ApiExposure.Core
