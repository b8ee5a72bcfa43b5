import ApiExposure.Json.Value
import ApiExposure.Json.StringLiteral
import ApiExposure.Number.Shortest

/-!
# Writing JSON texts

The compact form of a value: no blanks between tokens, members in the order of
their keys, integers in decimal and doubles in their shortest decimal text.
-/

namespace ApiExposure.Json

mutual

/-- Characters of the compact text of a value. -/
def render : Json → List Char
  | .null => "null".toList
  | .bool true => "true".toList
  | .bool false => "false".toList
  | .int n => (toString n).toList
  | .real x => x.toText.toList
  | .str s => quote s
  | .arr items => '[' :: (renderItems items ++ [']'])
  | .obj members => '{' :: (renderMembers members ++ ['}'])

/-- Items with commas between them. -/
def renderItems : List Json → List Char
  | [] => []
  | [v] => render v
  | v :: w :: vs => render v ++ ',' :: renderItems (w :: vs)

/-- Members with commas between them. -/
def renderMembers : List (String × Json) → List Char
  | [] => []
  | [(k, v)] => quote k ++ ':' :: render v
  | (k, v) :: m :: ms => quote k ++ ':' :: (render v ++ ',' :: renderMembers (m :: ms))

end

/-- The compact text of a value. -/
def compact (v : Json) : String := String.ofList (render v)

end ApiExposure.Json
