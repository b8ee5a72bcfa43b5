import ApiExposure.Http.Message

/-!
# Routing

A route is a path with fixed segments and parameters, and offers a method for
each thing that can be asked there. Fixed segments are compared as written; a
parameter takes any segment, but not an empty one at the end of the path.
-/

namespace ApiExposure.Http

/-- What can be asked of the service. -/
inductive Endpoint where
  | health
  | status
  | registerProvider
  | readProvider
  | updateProvider
  | deregisterProvider
  | listApis
  | publish
  | readApi
  | updateApi
  | unpublish
  | onboard
  | readInvoker
  | updateInvoker
  | offboard
  | listGrants
  | addGrant
  | removeGrant
  | discover
  | check
  | revoke
  | readContext
  | createContext
  | updateContext
  | revokeAccess
  | subscribe
  | unsubscribe
  deriving DecidableEq, Repr, Inhabited

/-- A segment of a route. -/
inductive Segment where
  /-- A segment that has to be as given. -/
  | fixed (text : String)
  /-- A segment that is taken as a parameter. -/
  | parameter (name : String)
  deriving DecidableEq, Repr, Inhabited

/-- A path with the methods that it offers. -/
structure Route where
  /-- Segments of the path. -/
  path : List Segment
  /-- Methods in the order in which they are listed. -/
  methods : List (String × Endpoint)
  deriving DecidableEq, Repr, Inhabited

namespace Route

/-- Raw parameters of a path, by name, if the path is the one of the route. -/
def parameters? : List Segment → List String → Option (List (String × String))
  | [], [] => some []
  | .fixed text :: path, s :: ss => if text = s then parameters? path ss else none
  | .parameter name :: path, s :: ss =>
    if ss.isEmpty && s.isEmpty then none
    else (parameters? path ss).map ((name, s) :: ·)
  | _, _ => none

/-- A path of fixed segments. -/
def under (segments : List String) (path : List Segment) (methods : List (String × Endpoint)) :
    Route :=
  ⟨segments.map .fixed ++ path, methods⟩

/-- Every route. -/
def all : List Route := [
  under ["health"] [] [("GET", .health)],
  under ["status"] [] [("GET", .status)],
  under ["api-provider-management", "v1", "registrations"] [] [("POST", .registerProvider)],
  under ["api-provider-management", "v1", "registrations"] [.parameter "domain_id"]
    [("GET", .readProvider), ("PUT", .updateProvider), ("DELETE", .deregisterProvider)],
  under ["published-apis", "v1"] [.parameter "apf_id", .fixed "service-apis"]
    [("GET", .listApis), ("POST", .publish)],
  under ["published-apis", "v1"]
    [.parameter "apf_id", .fixed "service-apis", .parameter "api_id"]
    [("GET", .readApi), ("PATCH", .updateApi), ("DELETE", .unpublish)],
  under ["api-invoker-management", "v1", "onboardedInvokers"] [] [("POST", .onboard)],
  under ["api-invoker-management", "v1", "onboardedInvokers"] [.parameter "onboarding_id"]
    [("GET", .readInvoker), ("PATCH", .updateInvoker), ("DELETE", .offboard)],
  under ["api-invoker-management", "v1", "onboardedInvokers"]
    [.parameter "onboarding_id", .fixed "grants"]
    [("GET", .listGrants), ("POST", .addGrant), ("DELETE", .removeGrant)],
  under ["service-apis", "v1", "allServiceAPIs"] [] [("GET", .discover)],
  under ["capif-security", "v1", "check-authentication"] [] [("POST", .check)],
  under ["capif-security", "v1", "revoke-authorization"] [] [("POST", .revoke)],
  under ["capif-security", "v1", "trustedInvokers"] [.parameter "api_invoker_id"]
    [("GET", .readContext), ("PUT", .createContext)],
  under ["capif-security", "v1", "trustedInvokers"]
    [.parameter "api_invoker_id", .fixed "update"] [("POST", .updateContext)],
  under ["capif-security", "v1", "trustedInvokers"]
    [.parameter "api_invoker_id", .fixed "delete"] [("POST", .revokeAccess)],
  under ["capif-events", "v1"] [.parameter "subscriber_id", .fixed "subscriptions"]
    [("POST", .subscribe)],
  under ["capif-events", "v1"]
    [.parameter "subscriber_id", .fixed "subscriptions", .parameter "subscription_id"]
    [("DELETE", .unsubscribe)]]

/-- The route of a path with its raw parameters. -/
def find? (segments : List String) : Option (Route × List (String × String)) :=
  all.findSome? (fun r => (parameters? r.path segments).map (r, ·))

/-- What a method asks for. Where a value can be had, so can its header alone. -/
def endpoint? (r : Route) (method : String) : Option Endpoint :=
  (r.methods.lookup method).or (if method = "HEAD" then r.methods.lookup "GET" else none)

/-- The methods that a route offers. -/
def allowed (r : Route) : List String :=
  r.methods.flatMap (fun m => if m.1 = "GET" then ["GET", "HEAD"] else [m.1])

end Route

/-- Decodes parameters in order; fails with the name of the first that is no text. -/
def decodeParameters : List (String × String) → Except String (List String)
  | [] => .ok []
  | (name, raw) :: rest =>
    match Text.utf8? (Text.percentBytes raw.toList) with
    | none => .error name
    | some text => (decodeParameters rest).map (text :: ·)

end ApiExposure.Http
