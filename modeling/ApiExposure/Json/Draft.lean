import ApiExposure.Json.Value

/-!
# JSON texts as read

A draft is what a reader found in a JSON text, in the order of the text and
with repeated keys kept. It goes as far as the text makes sense: a place where
the text breaks off or is not JSON is a `broken` leaf, and the arrays and
objects around it are not closed. A place with correct syntax but without a
value, such as a number beyond the doubles, is an `unrepresentable` leaf; it
does no harm where nobody asks for the value.
-/

namespace ApiExposure

/-- A JSON text as read. -/
inductive Draft where
  | null
  | bool (value : Bool)
  | int (value : Int)
  | real (value : Binary64)
  | str (value : String)
  /-- Items in order; `closed` when the text reached the closing bracket. -/
  | arr (items : List Draft) (closed : Bool)
  /-- Members in order; a key without a value as text is `none`. -/
  | obj (members : List (Option String × Draft)) (closed : Bool)
  /-- An object without members that was collected before it was decoded. -/
  | void
  /-- Correct syntax without a value. -/
  | unrepresentable
  /-- The text is no JSON from here on. -/
  | broken
  deriving Inhabited

namespace Draft

mutual

/-- Whether the text of this part has correct syntax throughout. -/
def intact : Draft → Bool
  | .broken => false
  | .arr items closed => intactItems items && closed
  | .obj members closed => intactMembers members && closed
  | _ => true

/-- Whether all items are intact. -/
def intactItems : List Draft → Bool
  | [] => true
  | d :: ds => intact d && intactItems ds

/-- Whether all members are intact. -/
def intactMembers : List (Option String × Draft) → Bool
  | [] => true
  | (_, d) :: ds => intact d && intactMembers ds

end

mutual

/-- The value of a draft, if every part of it has one. -/
def value? : Draft → Option Json
  | .null => some .null
  | .bool b => some (.bool b)
  | .int n => some (.int n)
  | .real x => some (.real x)
  | .str s => some (.str s)
  | .arr items closed => if closed then (itemValues? items).map .arr else none
  | .obj members closed =>
    if closed then (memberValues? members []).map .obj else none
  | .void => some (.obj [])
  | .unrepresentable => none
  | .broken => none

/-- The values of all items. -/
def itemValues? : List Draft → Option (List Json)
  | [] => some []
  | d :: ds =>
    match value? d, itemValues? ds with
    | some v, some vs => some (v :: vs)
    | _, _ => none

/-- The values of all members, put in place by key; the last of a key counts. -/
def memberValues? : List (Option String × Draft) → List (String × Json) →
    Option (List (String × Json))
  | [], acc => some acc
  | (key, d) :: ds, acc =>
    match key, value? d with
    | some k, some v => memberValues? ds (Json.insertMember k v acc)
    | _, _ => none

end

mutual

/-- A value as a draft. -/
def ofJson : Json → Draft
  | .null => .null
  | .bool b => .bool b
  | .int n => .int n
  | .real x => .real x
  | .str s => .str s
  | .arr items => .arr (ofItems items) true
  | .obj members => .obj (ofMembers members) true

/-- Items of an array as drafts. -/
def ofItems : List Json → List Draft
  | [] => []
  | v :: vs => ofJson v :: ofItems vs

/-- Members of an object as drafts. -/
def ofMembers : List (String × Json) → List (Option String × Draft)
  | [] => []
  | (k, v) :: rest => (some k, ofJson v) :: ofMembers rest

end

mutual

/-- The draft collected as a whole, which marks its empty objects. -/
def collected : Draft → Draft
  | .arr items closed => .arr (collectedItems items) closed
  | .obj [] true => .void
  | .obj members closed => .obj (collectedMembers members) closed
  | d => d

/-- All items collected. -/
def collectedItems : List Draft → List Draft
  | [] => []
  | d :: ds => collected d :: collectedItems ds

/-- All members collected. -/
def collectedMembers : List (Option String × Draft) → List (Option String × Draft)
  | [] => []
  | (k, d) :: ds => (k, collected d) :: collectedMembers ds

end

mutual

/-- The draft of a value is intact. -/
theorem intact_ofJson : (v : Json) → (ofJson v).intact = true
  | .null => rfl
  | .bool _ => rfl
  | .int _ => rfl
  | .real _ => rfl
  | .str _ => rfl
  | .arr items => by simp [ofJson, intact, intactItems_ofItems items]
  | .obj members => by simp [ofJson, intact, intactMembers_ofMembers members]

/-- The drafts of items are intact. -/
theorem intactItems_ofItems : (vs : List Json) → intactItems (ofItems vs) = true
  | [] => rfl
  | v :: vs => by simp [ofItems, intactItems, intact_ofJson v, intactItems_ofItems vs]

theorem intactMembers_ofMembers :
    (ms : List (String × Json)) → intactMembers (ofMembers ms) = true
  | [] => rfl
  | (k, v) :: ms => by
    simp [ofMembers, intactMembers, intact_ofJson v, intactMembers_ofMembers ms]

end

end Draft

end ApiExposure
