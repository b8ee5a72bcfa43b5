import ApiExposure.Http.MediaType
import ApiExposure.Http.Problem
import ApiExposure.Text.Form

/-!
# Requests and responses

A request names a method and a target, which is a path with an optional query,
and may carry a body with a media type. Bodies that are read have to be declared
as JSON, to keep within a limit and to begin with a value of the type that is asked
for. What stands behind that value is not looked at, and a body need not be text as
a whole: bytes that are no UTF-8 matter where a text is read from them.
-/

namespace ApiExposure.Http

/-- A request. -/
structure Request where
  /-- Method. -/
  method : String
  /-- Path with an optional query and fragment; a scheme and an authority may stand before it. -/
  target : String
  /-- Declared media type of the body. -/
  contentType : Option String := none
  /-- Body in bytes; empty when there is none. -/
  body : Bytes := ""
  deriving DecidableEq, Repr, Inhabited

namespace Request

/-- A target from its path on. Behind an authority an empty path is the root. -/
def fromPath (target : List Char) : List Char :=
  let isSchemeChar := fun (c : Char) => c.isAlphanum || c == '+' || c == '-' || c == '.'
  match target.dropWhile isSchemeChar with
  | ':' :: '/' :: '/' :: rest =>
    match rest.dropWhile (fun c => c != '/' && c != '?' && c != '#') with
    | '/' :: path => '/' :: path
    | rest => '/' :: rest
  | _ => target

/-- A target that begins with its path is taken as it is. -/
theorem fromPath_slash (path : List Char) : fromPath ('/' :: path) = '/' :: path := by
  simp [fromPath]

/-- Path and query of the target, without the fragment. -/
def pathAndQuery (r : Request) : List Char × List Char :=
  let (target, _) := Text.splitAtFirst '#' (fromPath r.target.toList)
  let (path, query) := Text.splitAtFirst '?' target
  (path, query.getD [])

/-- Segments of the path as written, the part before the first slash left out. -/
def segments (r : Request) : List String :=
  ((Text.splitAtEach '/' r.pathAndQuery.1).drop 1).map String.ofList

/-- Pairs of the query. -/
def queryPairs (r : Request) : List (String × String) :=
  Text.formPairs (String.ofList r.pathAndQuery.2)

/-- Whether the body is declared as JSON. -/
def declaresJson (r : Request) : Bool :=
  (r.contentType.bind MediaType.read?).any MediaType.isJson

/-- Reads a value of a type in front of the body: the declaration of the body first, its length
second. -/
def read {α : Type} [JsonForm α] (r : Request) (limit : Nat) : Except Problem α :=
  if !r.declaresJson then .error (.badRequest .notDeclaredJson)
  else if limit < r.body.list.length then .error (.badRequest .tooLong)
  else
    match JsonForm.decode (Json.Text.readBytes r.body).draft with
    | .ok a => .ok a
    | .error .malformed => .error (.badRequest .malformed)
    | .error .mismatch => .error (.badRequest .mismatch)

end Request

/-- The body of a response. -/
inductive Body where
  /-- No body. -/
  | empty
  /-- JSON. -/
  | json (value : Json)
  /-- Plain text. -/
  | text (value : String)
  deriving Inhabited

/-- A response. -/
structure Response where
  /-- Status code. -/
  status : Nat
  /-- Where the created thing is. -/
  location : Option String := none
  /-- Methods of the target, when another one was used. -/
  allow : List String := []
  /-- Whether pages of any origin may see the response. -/
  anyOrigin : Bool := false
  /-- Body. -/
  body : Body := .empty
  deriving Inhabited

namespace Response

/-- Success with a value. -/
def ok (value : Json) : Response := { status := 200, body := .json value }

/-- Success without a value. -/
def noContent : Response := { status := 204 }

/-- Whether a text can stand in a header. -/
def fitsHeader (text : String) : Bool :=
  text.toList.all (fun c => c == '\t' || (32 ≤ c.toNat && c.toNat != 127))

/-- Success with a value that was created. A location that cannot stand in a header spoils the
response, though not what was done. -/
def created (location : String) (value : Json) : Response :=
  if fitsHeader location then { status := 201, location := some location, body := .json value }
  else { status := 500, body := .text "failed to parse header value" }

/-- The answer to a problem. -/
def ofProblem (p : Problem) : Response := { status := p.status, body := .json p.toJson }

/-- A parameter of the path is no text. -/
def badParameter (name : String) : Response :=
  { status := 400, body := .text ("Invalid URL: Invalid UTF-8 in `" ++ name ++ "`") }

/-- The query has a faulty or repeated parameter. -/
def badQuery : Response := { status := 400, body := .text "Failed to deserialize query string" }

end Response

end ApiExposure.Http
