import ApiExposure.Json.Reader
import ApiExposure.Settings.Basic
import ApiExposure.Settings.Path
import ApiExposure.Toml.Document

/-!
# Loading settings

Settings come from the defaults, then from a file, then from the environment. A
file that is not there changes nothing. A variable of the environment counts
when its name begins with the prefix of the program, in any case; two
underscores in the rest separate the parts of a path.
-/

namespace ApiExposure

/-- Formats of settings files. -/
inductive FileFormat where
  | json
  | toml
  deriving DecidableEq, Repr, Inhabited

namespace Settings

/-- The members of a file. -/
def fileMembers? (format : FileFormat) (text : String) : Option (List (String × Setting)) :=
  match format with
  | .json =>
    match Json.parse? text with
    | some (.obj members) => some (Setting.ofMembers members)
    | _ => none
  | .toml => Toml.parse? text

/-- Beginning of the names of variables that count. -/
def variableStem : List Char := "capif_".toList

/-- The text with two underscores in a row turned into a point, from left to right. -/
def pointed : List Char → List Char
  | '_' :: '_' :: cs => '.' :: pointed cs
  | c :: cs => c :: pointed cs
  | [] => []

/-- The key of a variable, if it counts. -/
def variableKey? (name : String) : Option String :=
  let name := name.toList.map Char.toLower
  if variableStem.isPrefixOf name then
    some (String.ofList (pointed (name.drop variableStem.length)))
  else none

/-- An integer in decimal with an optional sign. -/
def integer? (text : String) : Option Int :=
  let value := match text.toList with
    | '-' :: cs => (Text.decimal? cs).map (fun n => -(n : Int))
    | '+' :: cs => (Text.decimal? cs).map (fun n => (n : Int))
    | cs => (Text.decimal? cs).map (fun n => (n : Int))
  value.filter Word.isSigned

/-- The value of a variable: a truth value, an integer or a double if it reads as one. -/
def variableValue (text : String) : Setting :=
  if Setting.lower text = "true" then .truth true
  else if Setting.lower text = "false" then .truth false
  else
    match integer? text, Extended.read? text with
    | some n, _ => .whole n
    | none, some x => .real x
    | none, none => .text text

/-- The members of the environment. -/
def settingsOf (environment : List (String × String)) : List (String × Setting) :=
  environment.filterMap (fun v => (variableKey? v.1).map (·, variableValue v.2))

/-- Loads settings. The file is given as its text, or is not there. -/
def load (file : Option (FileFormat × String)) (environment : List (String × String)) :
    Option Settings := do
  let members ← match file with
    | none => some []
    | some (format, text) => fileMembers? format text
  let tree ← (Setting.ofJson ({} : Settings).toJson).merge members
  Settings.ofSetting? (← tree.merge (settingsOf environment))

end Settings

end ApiExposure
