import ApiExposure.Settings.Value

/-!
# Paths to settings

A key may be a path: a name, then names behind points and places of lists in
square brackets. Any other key is one name. The name that gets a value, and those
in a table that is merged, are kept in lower case, so that case does not count;
names on the way to it are taken as they are written.
-/

namespace ApiExposure

namespace Setting

/-- A step of a path. -/
inductive Step where
  | name (name : String)
  /-- A place in a list; a negative one counts from the end. -/
  | place (index : Int)
  deriving DecidableEq, Repr, Inhabited

/-- Characters of the names in a path. -/
def isNameChar (c : Char) : Bool := c.isAlphanum || c == ' ' || c == '_' || c == '-'

/-- A name in front. -/
def takeName? (cs : List Char) : Option (String × List Char) :=
  match cs.takeWhile isNameChar with
  | [] => Option.none
  | name => some (String.ofList name, cs.dropWhile isNameChar)

/-- A place behind its opening bracket: decimal digits with an optional minus sign and blanks
around them. -/
def takePlace? (cs : List Char) : Option (Int × List Char) :=
  let blank := fun (c : Char) => c == ' ' || c == '\t'
  let cs := cs.dropWhile blank
  let (negative, cs) := match cs with
    | '-' :: cs => (true, cs)
    | cs => (false, cs)
  match Text.takeDigits cs with
  | ([], _) => Option.none
  | (ds, rest) =>
    let n : Int := (Text.valueOf 10 ds : Nat)
    let n := if negative then -n else n
    match rest.dropWhile blank with
    | ']' :: rest => if Word.isSigned n then some (n, rest) else Option.none
    | _ => Option.none

/-- The steps of a path up to its end. The fuel bounds their number. -/
def readSteps? : Nat → List Char → Option (List Step)
  | _, [] => some []
  | 0, _ => Option.none
  | fuel + 1, '.' :: cs => do
    let (name, rest) ← takeName? cs
    some (.name name :: (← readSteps? fuel rest))
  | fuel + 1, '[' :: cs => do
    let (index, rest) ← takePlace? cs
    some (.place index :: (← readSteps? fuel rest))
  | _, _ => Option.none

/-- The path that a key is. -/
def path (key : String) : List Step :=
  let found := do
    let (name, rest) ← takeName? key.toList
    some (Step.name name :: (← readSteps? rest.length rest))
  found.getD [.name key]

/-- The tree with one member set; what is no table gives way to one. -/
def withMember (tree : Setting) (name : String) (value : Setting) : Setting :=
  .table (putMember name value tree.members)

/-- The tree with the member of a name set, whatever the case of the name. -/
def withName (tree : Setting) (name : String) (value : Setting) : Setting :=
  withMember tree (lower name) value

/-- The tree with one item set; what is no list gives way to one, and a list is filled up to the
place. -/
def withPlace (tree : Setting) (place : Nat) (value : Setting) : Setting :=
  let filled := tree.items ++ List.replicate (place + 1 - tree.items.length) Setting.none
  .list (filled.set place value)

/-- The place that an index means in a list of some length. -/
def place? (index : Int) (length : Nat) : Option Nat :=
  if 0 ≤ index then some index.toNat
  else if index.natAbs ≤ length then some (length - index.natAbs)
  else Option.none

mutual

/-- Merges a value under a name: a table member by member, anything else in place of what was
there. -/
def put (tree : Setting) (name : String) : Setting → Setting
  | .table incoming =>
    withName tree name (putAll ((tree.member? (lower name)).getD (.table [])) incoming)
  | .none => withName tree name .none
  | .truth b => withName tree name (.truth b)
  | .whole n => withName tree name (.whole n)
  | .real x => withName tree name (.real x)
  | .text s => withName tree name (.text s)
  | .list items => withName tree name (.list items)

/-- Merges members one by one. -/
def putAll (tree : Setting) : List (String × Setting) → Setting
  | [] => tree
  | (name, value) :: rest => putAll (put tree name value) rest

end

/-- Merges a value at the end of a path. What is in the way of the path gives way to it. -/
def putAt (value : Setting) : List Step → Setting → Option Setting
  | [], tree => some tree
  | [.name name], tree => some (put tree name value)
  | [.place index], tree =>
    (place? index tree.items.length).map (fun i => withPlace tree i value)
  | .name name :: steps, tree => do
    let inner ← putAt value steps ((tree.member? name).getD .none)
    some (withMember tree name inner)
  | .place index :: steps, tree => do
    let i ← place? index tree.items.length
    let inner ← putAt value steps (tree.items[i]?.getD .none)
    some (withPlace tree i inner)

/-- Merges the members of a source, whose keys may be paths. -/
def merge (tree : Setting) (members : List (String × Setting)) : Option Setting :=
  members.foldlM (fun t m => putAt m.2 (path m.1) t) tree

end Setting

end ApiExposure
