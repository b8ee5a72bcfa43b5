import ApiExposure.Failure
import ApiExposure.Features

/-!
# Problems

Why a request was refused, with its status, its machine-readable code and the
wording of the answer. A failure of an operation is one kind of problem; a
request that cannot be understood is another.
-/

namespace ApiExposure.Http

/-- Faults of a request as a message. -/
inductive BadRequest where
  /-- The operation found a fault. -/
  | fault (fault : Fault)
  /-- A discovery does not tell who asks. -/
  | missingInvoker
  /-- A preferred location is no JSON of a location. -/
  | badLocation
  /-- A feature mask is none. -/
  | badFeatures (text : String)
  /-- The body is not declared as JSON. -/
  | notDeclaredJson
  /-- The body is longer than allowed. -/
  | tooLong
  /-- The body is not JSON. -/
  | malformed
  /-- The body is JSON of another type. -/
  | mismatch
  deriving DecidableEq, Repr

namespace BadRequest

/-- The wording of a fault. -/
def text : BadRequest → String
  | fault f => f.text
  | missingInvoker => "api-invoker-id is required"
  | badLocation => "preferred-aef-loc"
  | badFeatures mask => Features.rejection mask
  | notDeclaredJson => "Expected request with `Content-Type: application/json`"
  | tooLong => "Failed to buffer the request body: length limit exceeded"
  | malformed => "Failed to parse the request body as JSON"
  | mismatch => "Failed to deserialize the JSON body into the target type"

end BadRequest

/-- Why a request was refused. -/
inductive Problem where
  /-- The request is faulty. -/
  | badRequest (cause : BadRequest)
  /-- Something is not there. -/
  | notFound (absence : Absence)
  /-- Something stands in the way. -/
  | conflict (clash : Clash)
  /-- Access is denied. -/
  | forbidden (reason : DenyReason)
  /-- A collaborator failed. -/
  | unavailable (outage : Outage)
  deriving DecidableEq, Repr

namespace Problem

/-- A failure of an operation as a problem. -/
def ofFailure : Failure → Problem
  | .invalid f => badRequest (.fault f)
  | .notFound absence => notFound absence
  | .conflict clash => conflict clash
  | .denied reason => forbidden reason
  | .unavailable outage => unavailable outage

/-- The wording of a problem. -/
def text : Problem → String
  | badRequest cause => "Bad request: " ++ cause.text
  | notFound absence => "Not found: " ++ absence.text
  | conflict clash => "Conflict: " ++ clash.text
  | forbidden reason => "Access denied: " ++ reason.code
  | unavailable outage => outage.text

/-- The status of the answer. -/
def status : Problem → Nat
  | badRequest _ => 400
  | notFound _ => 404
  | conflict _ => 409
  | forbidden _ => 403
  | unavailable _ => 503

/-- The machine-readable code. -/
def code : Problem → String
  | badRequest _ => "BAD_REQUEST"
  | notFound _ => "NOT_FOUND"
  | conflict _ => "CONFLICT"
  | forbidden _ => "ACCESS_DENIED"
  | unavailable _ => "DEPENDENCY_UNAVAILABLE"

/-- What a program may want to know beyond the code. -/
def details? : Problem → Option Json
  | forbidden reason => some (.ofMembers [("reason", reason.toJson)])
  | unavailable outage => some (.ofMembers [("collaborator", outage.collaborator.toJson)])
  | _ => none

/-- The body of the answer. -/
def toJson (p : Problem) : Json :=
  .ofGroups [
    Json.member "error" (.str p.text),
    Json.member "code" (.str p.code),
    Json.optionalMember "details" id p.details?]

end Problem

end ApiExposure.Http
