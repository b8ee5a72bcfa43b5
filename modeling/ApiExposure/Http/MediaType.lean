/-!
# Media types

The type of a body: a type, a subtype that may end in a suffix behind a plus
sign, and parameters. Case does not matter. A body is taken as JSON when the
type is `application` and the subtype or its suffix is `json`.
-/

namespace ApiExposure.Http

/-- A media type without its parameters, in lower case. -/
structure MediaType where
  /-- The type. -/
  kind : String
  /-- The subtype up to its suffix. -/
  subtype : String
  /-- What stands behind the last plus sign of the subtype. -/
  suffix : Option String
  deriving DecidableEq, Repr, Inhabited

namespace MediaType

/-- Characters of names and of values without quotes. -/
def isNameChar (c : Char) : Bool :=
  c.isAlphanum || "!#$%&'*+-.^_|~".toList.contains c || c == Char.ofNat 0x60

/-- Characters of values in quotes. -/
def isQuotedChar (c : Char) : Bool := 0x20 ≤ c.toNat && c.toNat ≤ 0x7e

/-- What follows a value in quotes, behind the opening one. The value has a character at least,
and a quote in its first place belongs to it. -/
def skipQuoted : List Char → Option (List Char)
  | [] => none
  | c :: cs =>
    let within := fun (c : Char) => isQuotedChar c && c != '"'
    match isQuotedChar c, cs.dropWhile within with
    | true, '"' :: rest => some rest
    | _, _ => none

/-- What follows the value of a parameter; `none` when the value is faulty. -/
def skipValue (cs : List Char) : Option (List Char) :=
  match cs with
  | '"' :: cs =>
    match (skipQuoted cs).map (·.dropWhile (· == ' ')) with
    | some [] => some []
    | some (';' :: rest) => some rest
    | _ => none
  | cs =>
    match cs.takeWhile isNameChar, cs.dropWhile isNameChar with
    | _, [] => some []
    | _ :: _, ';' :: rest => some rest
    | _, _ => none

/-- Whether parameters are well formed. The fuel bounds their number. -/
def soundParameters : Nat → List Char → Bool
  | 0, cs => cs.isEmpty
  | fuel + 1, cs =>
    match cs.dropWhile (· == ' ') with
    | [] => true
    | cs =>
      match cs.takeWhile isNameChar, cs.dropWhile isNameChar with
      | _ :: _, '=' :: rest =>
        match skipValue rest with
        | some rest => soundParameters fuel rest
        | none => false
      | _, _ => false

/-- Splits a subtype at its last plus sign, unless it stands in front. -/
def splitSuffix (subtype : List Char) : List Char × Option (List Char) :=
  let suffix := (subtype.reverse.takeWhile (· != '+')).reverse
  if suffix.length + 1 < subtype.length then
    (subtype.take (subtype.length - suffix.length - 1), some suffix)
  else (subtype, none)

/-- Reads a media type with its parameters. -/
def read? (text : String) : Option MediaType :=
  let cs := text.toList.map Char.toLower
  match cs.takeWhile isNameChar, cs.dropWhile isNameChar with
  | kind@(_ :: _), '/' :: cs =>
    let subtype := cs.takeWhile isNameChar
    let sound := match subtype, cs.dropWhile isNameChar with
      | _, [] => true
      | _ :: _, ';' :: parameters => soundParameters parameters.length parameters
      | _, _ => false
    if sound then
      let (front, suffix) := splitSuffix subtype
      some ⟨String.ofList kind, String.ofList front, suffix.map String.ofList⟩
    else none
  | _, _ => none

/-- Whether a body of this type is JSON. -/
def isJson (m : MediaType) : Bool :=
  m.kind == "application" && (m.subtype == "json" || m.suffix == some "json")

end MediaType

end ApiExposure.Http
