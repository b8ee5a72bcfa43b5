import ApiExposure.Json.Value
import ApiExposure.Number.Extended
import ApiExposure.Number.Word

/-!
# Values of settings

Whatever format a source has, it gives plain values, lists of values and tables
of named values. Plain values are read leniently, since a source may know texts
only: a count may come as a text, a truth value as a number.
-/

namespace ApiExposure

/-- A value as a source gives it. -/
inductive Setting where
  /-- No value. -/
  | none
  | truth (value : Bool)
  | whole (value : Int)
  | real (value : Extended)
  | text (value : String)
  | list (items : List Setting)
  | table (members : List (String × Setting))
  deriving Inhabited

namespace Setting

/-- The members of a table; anything else has none. -/
def members : Setting → List (String × Setting)
  | .table ms => ms
  | _ => []

/-- The items of a list; anything else has none. -/
def items : Setting → List Setting
  | .list vs => vs
  | _ => []

/-- Gives a name its value and leaves the other members as they are. -/
def putMember {α : Type} (name : String) (value : α) : List (String × α) → List (String × α)
  | [] => [(name, value)]
  | (n, v) :: rest => if n = name then (n, value) :: rest else (n, v) :: putMember name value rest

/-- The value of a name. -/
def member? (s : Setting) (name : String) : Option Setting := s.members.lookup name

mutual

/-- A JSON value as a setting. An integer beyond 64 bits with a sign becomes a double. -/
def ofJson : Json → Setting
  | .null => .none
  | .bool b => .truth b
  | .int n => if n ≤ Word.greatestSigned then .whole n else .real (.ofDecimal false n.toNat 0)
  | .real x => .real (.finite x)
  | .str s => .text s
  | .arr items => .list (ofItems items)
  | .obj members => .table (ofMembers members)

/-- Items of an array as settings. -/
def ofItems : List Json → List Setting
  | [] => []
  | v :: vs => ofJson v :: ofItems vs

/-- Members of an object as settings. -/
def ofMembers : List (String × Json) → List (String × Setting)
  | [] => []
  | (k, v) :: ms => (k, ofJson v) :: ofMembers ms

end

/-- A text in lower case, as far as it is ASCII. -/
def lower (text : String) : String := String.ofList (text.toList.map Char.toLower)

/-- A truth value, also as a number or a word. -/
def truth? : Setting → Option Bool
  | .truth b => some b
  | .whole n => some (n != 0)
  | .real x => some (!x.isZero)
  | .text s =>
    if ["1", "true", "on", "yes"].contains (lower s) then some true
    else if ["0", "false", "off", "no"].contains (lower s) then some false
    else Option.none
  | _ => Option.none

/-- A count in decimal, with an optional plus sign. -/
def decimalCount? (text : String) : Option Nat :=
  let digits := match text.toList with
    | '+' :: cs => cs
    | cs => cs
  (Text.decimal? digits).filter (· ≤ Word.greatest)

/-- A count from zero, also as a truth value, as a text or as a double, which is rounded and
kept within range. -/
def count? : Setting → Option Nat
  | .truth b => some (if b then 1 else 0)
  | .whole n => if 0 ≤ n ∧ n ≤ Word.greatest then some n.toNat else Option.none
  | .real x => some (x.clamped Word.greatest)
  | .text s =>
    if ["true", "on", "yes"].contains (lower s) then some 1
    else if ["false", "off", "no"].contains (lower s) then some 0
    else decimalCount? s
  | _ => Option.none

/-- A text, also from any other plain value. -/
def text? : Setting → Option String
  | .text s => some s
  | .truth b => some (if b then "true" else "false")
  | .whole n => some (toString n)
  | .real x => some x.text
  | _ => Option.none

/-- A field of a section: a section is a table, or a list of its fields in their order. A field
that is not there has a default. -/
def field? {α : Type} (s : Setting) (name : String) (place : Nat)
    (read : Setting → Option α) (default : α) : Option α :=
  let found := match s with
    | .table members => some (members.lookup name)
    | .list items => some items[place]?
    | _ => Option.none
  found.bind (fun v => v.elim (some default) read)

end Setting

end ApiExposure
