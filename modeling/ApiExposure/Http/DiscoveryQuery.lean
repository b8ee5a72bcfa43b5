import ApiExposure.Criteria
import ApiExposure.Http.Problem
import ApiExposure.Text.Blank

/-!
# The query of a discovery

A discovery tells who asks and what is looked for. The location is JSON inside
the query, and feature masks are checked only here, so that their faults have a
message of their own.
-/

namespace ApiExposure.Http

/-- The parameters of a discovery as given. -/
structure DiscoveryQuery where
  /-- Who asks. -/
  invoker : Option String := none
  /-- Name of the API. -/
  name : Option String := none
  /-- Name of a version. -/
  version : Option String := none
  /-- How a version communicates. -/
  commType : Option CommType := none
  /-- Protocol of a profile. -/
  protocol : Option Protocol := none
  /-- Exposing function of a profile. -/
  exposer : Option String := none
  /-- Data format of a profile. -/
  dataFormat : Option DataFormat := none
  /-- Category of the API. -/
  category : Option String := none
  /-- Location of a profile, as JSON text. -/
  location : Option String := none
  /-- Mask of features. -/
  features : Option String := none
  /-- Mask of features of the API itself. -/
  apiFeatures : Option String := none
  deriving DecidableEq, Repr, Inhabited

namespace DiscoveryQuery

/-- The parameters by name. -/
def record : Record DiscoveryQuery :=
  DiscoveryQuery.mk <$> .optional "api-invoker-id" .text <*> .optional "api-name" .text
    <*> .optional "api-version" .text <*> .optional "comm-type" CommType.decode
    <*> .optional "protocol" Protocol.decode <*> .optional "aef-id" .text
    <*> .optional "data-format" DataFormat.decode <*> .optional "api-cat" .text
    <*> .optional "preferred-aef-loc" .text <*> .optional "supported-features" .text
    <*> .optional "api-supported-features" .text

/-- Reads the parameters from JSON. -/
def decode : Decoder DiscoveryQuery := record.decode

/-- Reads a mask, if there is one. -/
def mask : Option String → Except BadRequest (Option Features)
  | none => .ok none
  | some text =>
    match Features.parse? text with
    | some f => .ok (some f)
    | none => .error (.badFeatures text)

/-- Reads a location, if there is one. -/
def place : Option String → Except BadRequest (Option Location)
  | none => .ok none
  | some text =>
    match Decoder.ofText Location.decode text with
    | .ok l => .ok (some l)
    | .error _ => .error .badLocation

/-- Who asks and what is looked for. -/
def request (q : DiscoveryQuery) : Except BadRequest (InvokerId × Criteria) := do
  match q.invoker.filter (fun id => !Text.isBlank id) with
  | none => .error .missingInvoker
  | some id =>
    let location ← place q.location
    let features ← mask q.features
    let apiFeatures ← mask q.apiFeatures
    .ok (⟨id⟩, {
      name := q.name
      version := q.version
      commType := q.commType
      protocol := q.protocol
      exposer := q.exposer.map FunctionId.mk
      dataFormat := q.dataFormat
      category := q.category
      location
      features
      apiFeatures })

end DiscoveryQuery

end ApiExposure.Http
