import ApiExposure.Number.Binary64

/-!
# JSON values

Integers and doubles are different values even when they denote the same
number. An object lists its members by ascending key, each key once, so the
order in which members were written does not matter.
-/

namespace ApiExposure

/-- A JSON value. -/
inductive Json where
  | null
  | bool (value : Bool)
  | int (value : Int)
  | real (value : Binary64)
  | str (value : String)
  | arr (items : List Json)
  | obj (members : List (String × Json))
  deriving Inhabited

namespace Json

mutual

/-- Equality of values: doubles by number, all else by structure. -/
def same : Json → Json → Bool
  | .null, .null => true
  | .bool a, .bool b => a == b
  | .int a, .int b => a == b
  | .real a, .real b => a.same b
  | .str a, .str b => a == b
  | .arr as, .arr bs => sameItems as bs
  | .obj as, .obj bs => sameMembers as bs
  | _, _ => false

/-- Equality of arrays, item by item. -/
def sameItems : List Json → List Json → Bool
  | [], [] => true
  | a :: as, b :: bs => same a b && sameItems as bs
  | _, _ => false

/-- Equality of member lists, member by member. -/
def sameMembers : List (String × Json) → List (String × Json) → Bool
  | [], [] => true
  | (k, a) :: as, (l, b) :: bs => k == l && same a b && sameMembers as bs
  | _, _ => false

end

instance : BEq Json := ⟨same⟩

/-- Puts a member in its place by key; a member of that key is replaced. -/
def insertMember (key : String) (value : Json) : List (String × Json) → List (String × Json)
  | [] => [(key, value)]
  | (k, v) :: rest =>
    if key < k then (key, value) :: (k, v) :: rest
    else if key = k then (key, value) :: rest
    else (k, v) :: insertMember key value rest

/-- An object from members in any order; of members with one key the last counts. -/
def ofMembers (members : List (String × Json)) : Json :=
  .obj (members.foldl (fun acc m => insertMember m.1 m.2 acc) [])

/-- An array of the forms of the items. -/
def ofList {α : Type} (form : α → Json) (items : List α) : Json := .arr (items.map form)

/-- A member that is always written. -/
def member (key : String) (value : Json) : List (String × Json) := [(key, value)]

/-- A member that is written when there is a value. -/
def optionalMember {α : Type} (key : String) (form : α → Json) :
    Option α → List (String × Json)
  | none => []
  | some a => [(key, form a)]

/-- A list member that is written unless the list is empty. -/
def listMember {α : Type} (key : String) (form : α → Json) : List α → List (String × Json)
  | [] => []
  | a :: as => [(key, ofList form (a :: as))]

/-- An object of the groups of members that were written. -/
def ofGroups (groups : List (List (String × Json))) : Json := ofMembers groups.flatten

/-- A text, or `null` when there is none. -/
def orNull {α : Type} (form : α → Json) : Option α → Json
  | none => .null
  | some a => form a

/-- The member of an object with the given key. -/
def get? (key : String) : Json → Option Json
  | .obj members => (members.find? (fun m => m.1 == key)).map (·.2)
  | _ => none

end Json

end ApiExposure
