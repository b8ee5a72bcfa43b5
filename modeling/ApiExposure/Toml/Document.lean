import ApiExposure.Toml.Scalar
import ApiExposure.Toml.Table

/-!
# TOML documents

A document is a list of pairs and of headers, which open a table or add an item
to an array of tables. Every table is defined once: pairs do not repeat, a
header does not come twice, and what was written as one value is not extended.
-/

namespace ApiExposure.Toml

/-- Characters of keys without quotes. -/
def isKeyChar (c : Char) : Bool := c.isAlphanum || c == '_' || c == '-'

/-- One part of a key. -/
def keyPart? (cs : List Char) : Option (String × List Char) :=
  match line? cs with
  | some found => some found
  | none =>
    match cs.takeWhile isKeyChar with
    | [] => none
    | part => some (String.ofList part, cs.dropWhile isKeyChar)

/-- A key with its parts, blanks around points left out. The fuel bounds the parts. -/
def key? : Nat → List Char → Option (List String × List Char)
  | 0, _ => none
  | fuel + 1, cs => do
    let (part, rest) ← keyPart? (skipBlanks cs)
    match skipBlanks rest with
    | '.' :: rest =>
      let (parts, rest) ← key? fuel rest
      some (part :: parts, rest)
    | rest => some ([part], rest)

/-- Drops a comment up to the end of its line; `none` when it holds a control character. -/
def skipComment (cs : List Char) : Option (List Char) :=
  match cs with
  | '#' :: cs =>
    let rest := cs.dropWhile (fun c => !isControl c)
    match rest with
    | [] => some []
    | rest => (lineEnd? rest).map (fun _ => rest)
  | cs => some cs

/-- Drops blanks, comments and line ends. The fuel bounds the characters left. -/
def skipLines : Nat → List Char → Option (List Char)
  | 0, cs => some cs
  | fuel + 1, cs =>
    match skipBlanks cs with
    | '#' :: cs => (skipComment ('#' :: cs)).bind (skipLines fuel)
    | cs =>
      match lineEnd? cs with
      | some rest => skipLines fuel rest
      | none => some cs

/-- How deep values and keys may nest. -/
def greatestDepth : Nat := 80

/-- A key that is not too deep: the parts before the last one and the last one. -/
def place? (cs : List Char) : Option ((List String × String) × List Char) := do
  let (parts, rest) ← key? (cs.length + 1) cs
  if parts.length < greatestDepth then
    some ((parts.dropLast, ← parts.getLast?), rest)
  else none

mutual

/-- A value at some depth. The fuel bounds the nesting and the number of parts. -/
def value? : Nat → Nat → List Char → Option (Setting × List Char)
  | 0, _, _ => none
  | fuel + 1, depth, cs =>
    match cs with
    | '[' :: cs =>
      if depth + 1 < greatestDepth then
        (items? fuel (depth + 1) cs).map (fun (items, rest) => (.list items, rest))
      else none
    | '\x7b' :: cs =>
      if depth + 1 < greatestDepth then
        match skipBlanks cs with
        | '\x7d' :: rest => some (.table [], rest)
        | cs =>
          (members? fuel (depth + 1) [] cs).map
            (fun (members, rest) => (.table (membersSettings members), rest))
      else none
    | cs => scalar? cs

/-- The items of an array, behind its opening bracket or a comma. -/
def items? : Nat → Nat → List Char → Option (List Setting × List Char)
  | 0, _, _ => none
  | fuel + 1, depth, cs =>
    match skipLines (cs.length + 1) cs with
    | none => none
    | some (']' :: rest) => some ([], rest)
    | some cs =>
      match value? fuel depth cs with
      | none => none
      | some (v, rest) =>
        match skipLines (rest.length + 1) rest with
        | some (',' :: rest) => (items? fuel depth rest).map (fun (vs, rest) => (v :: vs, rest))
        | some (']' :: rest) => some ([v], rest)
        | _ => none

/-- The pairs of a table on one line, behind its opening brace or a comma. -/
def members? : Nat → Nat → Members → List Char → Option (Members × List Char)
  | 0, _, _, _ => none
  | fuel + 1, depth, members, cs =>
    match place? cs with
    | some ((path, name), '=' :: cs) =>
      match value? fuel depth (skipBlanks cs) with
      | none => none
      | some (v, rest) =>
        match members.addPair path name v with
        | none => none
        | some members =>
          match skipBlanks rest with
          | ',' :: rest => members? fuel depth members rest
          | '\x7d' :: rest => some (members, rest)
          | _ => none
    | _ => none

end

/-- A header behind its opening brackets: its key and what follows the closing ones. -/
def header? (close cs : List Char) : Option ((List String × String) × List Char) := do
  let (key, rest) ← place? cs
  if rest.take close.length = close then some (key, rest.drop close.length) else none

/-- A pair or a header. -/
def expression? (d : Draft) (cs : List Char) : Option (Draft × List Char) :=
  match cs with
  | '[' :: '[' :: cs => do
    let ((path, name), rest) ← header? [']', ']'] cs
    some (← d.openItem path name, rest)
  | '[' :: cs => do
    let ((path, name), rest) ← header? [']'] cs
    some (← d.openTable path name, rest)
  | cs =>
    match place? cs with
    | some ((path, name), '=' :: cs) => do
      let (v, rest) ← value? (cs.length + 1) 0 (skipBlanks cs)
      some (← d.addPair path name v, rest)
    | _ => none

/-- The rest of a document; every expression ends its line. The fuel bounds the expressions. -/
def document? : Nat → Draft → List Char → Option Draft
  | 0, _, _ => none
  | fuel + 1, d, cs =>
    match skipLines (cs.length + 1) cs with
    | none => none
    | some [] => some d
    | some cs =>
      match expression? d cs with
      | none => none
      | some (d, rest) =>
        match skipComment (skipBlanks rest) with
        | some [] => some d
        | some rest =>
          match lineEnd? rest with
          | some rest => document? fuel d rest
          | none => none
        | none => none

/-- Drops a byte order mark in front. -/
def skipMark : List Char → List Char
  | '\uFEFF' :: cs => cs
  | cs => cs

/-- Reads a document as the members of a table. -/
def parse? (text : String) : Option (List (String × Setting)) := do
  let d ← document? (text.length + 1) {} (skipMark text.toList)
  some (membersSettings (← d.close))

end ApiExposure.Toml
