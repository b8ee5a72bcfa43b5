import ApiExposure.Settings.Value

/-!
# Tables of TOML under construction

While a document is read its tables remember how they came to be: by a header,
on the way to a header further down, or by a key with several parts. On this
depends whether they may be extended. A table is defined once; what was written
as one value is never extended.
-/

namespace ApiExposure.Toml

/-- How a table came to be. -/
inductive Origin where
  /-- A header or an item of an array of tables. -/
  | header
  /-- On the way to a header further down. -/
  | passage
  /-- A key with several parts. -/
  | key
  deriving DecidableEq, Repr, Inhabited

/-- A part of a document under construction. -/
inductive Node where
  /-- A value as written. -/
  | value (value : Setting)
  | table (origin : Origin) (members : List (String × Node))
  /-- An array of tables, each opened by a header of its own. -/
  | tables (items : List (List (String × Node)))
  deriving Inhabited

/-- The members of a table. -/
abbrev Members := List (String × Node)

mutual

/-- The setting that a part has become. -/
def Node.setting : Node → Setting
  | .value v => v
  | .table _ members => .table (membersSettings members)
  | .tables items => .list (itemsSettings items)

/-- The settings of all members. -/
def membersSettings : List (String × Node) → List (String × Setting)
  | [] => []
  | (k, n) :: rest => (k, n.setting) :: membersSettings rest

/-- The settings of all items. -/
def itemsSettings : List (List (String × Node)) → List Setting
  | [] => []
  | members :: rest => .table (membersSettings members) :: itemsSettings rest

end

namespace Members

/-- Changes the table at the end of a path, given its origin. Tables that are missing on the way
get the origin `fresh`; in an array of tables the last one counts. A key with several parts does
not go through a table that a header opened. -/
def descend (fresh : Origin) (change : Origin → Members → Option Members) :
    List String → Origin → Members → Option Members
  | [], origin, ms => change origin ms
  | name :: path, _, ms =>
    match ms.lookup name with
    | none =>
      (descend fresh change path fresh []).map
        (fun inner => Setting.putMember name (.table fresh inner) ms)
    | some (.value _) => none
    | some (.table origin inner) =>
      if fresh = .key ∧ origin = .header then none
      else
        (descend fresh change path origin inner).map
          (fun inner => Setting.putMember name (.table origin inner) ms)
    | some (.tables items) =>
      match items.getLast? with
      | none => none
      | some inner =>
        (descend fresh change path .header inner).map
          (fun inner => Setting.putMember name (.tables (items.dropLast ++ [inner])) ms)

/-- The members of the table at the end of a path; a table that is missing has none. -/
def below? : List String → Members → Option Members
  | [], ms => some ms
  | name :: path, ms =>
    match ms.lookup name with
    | none => some []
    | some (.value _) => none
    | some (.table _ inner) => below? path inner
    | some (.tables items) => items.getLast?.bind (below? path)

/-- Adds a pair to a table. A key with one part goes to a table that is no work of keys, any
other key to one that is. -/
def addPair (ms : Members) (path : List String) (name : String) (value : Setting) :
    Option Members :=
  let add := fun (origin : Origin) (ms : Members) =>
    if decide (origin = .key) = path.isEmpty then none
    else if (ms.lookup name).isSome then none
    else some (Setting.putMember name (.value value) ms)
  descend .key add path .header ms

end Members

/-- A document as far as it was read: the table that is open stands beside the others. -/
structure Draft where
  /-- All tables but the open one. -/
  root : Members := []
  /-- Where the open table belongs; nowhere for the one of the document itself. -/
  place : Option (List String × String) := none
  /-- Whether the open table is an item of an array. -/
  item : Bool := false
  /-- The members of the open table. -/
  current : Members := []

namespace Draft

/-- Puts the open table in its place. -/
def close (d : Draft) : Option Members :=
  match d.place with
  | none => some d.current
  | some (path, name) =>
    let put := fun (_ : Origin) (ms : Members) =>
      match d.item, ms.lookup name with
      | true, some (.tables items) =>
        some (Setting.putMember name (.tables (items ++ [d.current])) ms)
      | true, none => some (Setting.putMember name (.tables [d.current]) ms)
      | false, none => some (Setting.putMember name (.table .header d.current) ms)
      | _, _ => none
    Members.descend .passage put path .header d.root

/-- Takes a member out of a table. -/
def without (name : String) (ms : Members) : Members := ms.filter (fun m => m.1 != name)

/-- Opens a table. It must be new or stand on the way to a header only; then it goes on with the
members it has. -/
def openTable (d : Draft) (path : List String) (name : String) : Option Draft := do
  let root ← d.close
  let current ← match (← Members.below? path root).lookup name with
    | none => some []
    | some (.table .passage inner) => some inner
    | some _ => none
  let root ← Members.descend .passage (fun _ ms => some (without name ms)) path .header root
  some { root, place := some (path, name), item := false, current }

/-- Opens an item of an array of tables. -/
def openItem (d : Draft) (path : List String) (name : String) : Option Draft := do
  let root ← d.close
  let start := fun (_ : Origin) (ms : Members) =>
    match ms.lookup name with
    | none => some (Setting.putMember name (.tables []) ms)
    | some (.tables _) => some ms
    | some _ => none
  let root ← Members.descend .passage start path .header root
  some { root, place := some (path, name), item := true, current := [] }

/-- Adds a pair to the open table. -/
def addPair (d : Draft) (path : List String) (name : String) (value : Setting) : Option Draft :=
  (d.current.addPair path name value).map (fun current => { d with current })

end Draft

end ApiExposure.Toml
