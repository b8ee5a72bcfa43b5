import ApiExposure.Json.Draft
import ApiExposure.Json.Number
import ApiExposure.Json.StringLiteral

/-!
# Reading JSON texts

The reader turns a text into a draft. It always gives a draft: where the text
is no JSON, the draft ends in a broken leaf. Arrays and objects nested deeper
than `deepest` have no value, although their syntax is still checked. Bytes are
read in the same way, each in the place of a character: outside of literals JSON
has only characters of one byte, and the literals are decoded one by one.
-/

namespace ApiExposure.Json

/-- Greatest nesting depth of arrays and objects that have a value. -/
def deepest : Nat := 127

/-- Blanks between the tokens of JSON. -/
def isSpace (c : Char) : Bool := c == ' ' || c == '\n' || c == '\t' || c == '\r'

/-- Drops blanks in front. -/
def skipSpace : List Char → List Char
  | c :: cs => if isSpace c then skipSpace cs else c :: cs
  | [] => []

/-- A part of a text as read, with the text behind it; nothing follows a broken part. -/
structure Part (α : Type) where
  /-- What was read. -/
  content : α
  /-- What follows, unless the text broke. -/
  rest : Option (List Char)

/-- Members that were read, and whether the closing bracket was reached. -/
abbrev Body (α : Type) := Part (List α × Bool)

/-- A string literal behind its opening quote, as a draft. -/
def readString (text? : List Piece → Option String) (cs : List Char) : Part Draft :=
  match readPieces cs with
  | none => ⟨.broken, none⟩
  | some (ps, rest) =>
    match text? ps with
    | some text => ⟨.str text, some rest⟩
    | none => ⟨.unrepresentable, some rest⟩

/-- A number in front, as a draft. -/
def readNumeral (cs : List Char) : Part Draft :=
  match readNumber cs with
  | some (n, rest) => ⟨n.draft, some rest⟩
  | none => ⟨.broken, none⟩

/-- An array or object at a depth at which it may have no value. -/
def bounded (depth : Nat) (draft : Draft) : Draft :=
  if depth ≤ deepest then draft
  else if draft.intact then .unrepresentable else .broken

section

variable (text? : List Piece → Option String)

mutual

/-- Reads one value at a nesting depth. The fuel bounds the characters left. -/
def readValue : Nat → Nat → List Char → Part Draft
  | 0, _, _ => ⟨.broken, none⟩
  | fuel + 1, depth, text =>
    match skipSpace text with
    | 'n' :: 'u' :: 'l' :: 'l' :: cs => ⟨.null, some cs⟩
    | 't' :: 'r' :: 'u' :: 'e' :: cs => ⟨.bool true, some cs⟩
    | 'f' :: 'a' :: 'l' :: 's' :: 'e' :: cs => ⟨.bool false, some cs⟩
    | '"' :: cs => readString text? cs
    | '[' :: cs =>
      let body := readItems fuel (depth + 1) true cs
      ⟨bounded (depth + 1) (.arr body.content.1 body.content.2), body.rest⟩
    | '{' :: cs =>
      let body := readMembers fuel (depth + 1) true cs
      ⟨bounded (depth + 1) (.obj body.content.1 body.content.2), body.rest⟩
    | cs => readNumeral cs

/-- Reads items up to the closing bracket; only the first comes without a comma. -/
def readItems : Nat → Nat → Bool → List Char → Body Draft
  | 0, _, _, _ => ⟨([], false), none⟩
  | fuel + 1, depth, first, text =>
    match skipSpace text with
    | ']' :: cs => ⟨([], true), some cs⟩
    | ',' :: cs =>
      if first then ⟨([], false), none⟩
      else
        match skipSpace cs with
        | ']' :: _ => ⟨([], false), none⟩
        | cs => readItem fuel depth cs
    | cs => if first then readItem fuel depth cs else ⟨([], false), none⟩

/-- Reads one item and those behind it. -/
def readItem : Nat → Nat → List Char → Body Draft
  | 0, _, _ => ⟨([], false), none⟩
  | fuel + 1, depth, text =>
    let item := readValue fuel depth text
    match item.rest with
    | none => ⟨([item.content], false), none⟩
    | some cs =>
      let body := readItems fuel depth false cs
      ⟨(item.content :: body.content.1, body.content.2), body.rest⟩

/-- Reads members up to the closing brace; only the first comes without a comma. -/
def readMembers : Nat → Nat → Bool → List Char → Body (Option String × Draft)
  | 0, _, _, _ => ⟨([], false), none⟩
  | fuel + 1, depth, first, text =>
    match skipSpace text with
    | '}' :: cs => ⟨([], true), some cs⟩
    | ',' :: cs => if first then ⟨([], false), none⟩ else readMember fuel depth (skipSpace cs)
    | cs => if first then readMember fuel depth cs else ⟨([], false), none⟩

/-- Reads one member and those behind it. -/
def readMember : Nat → Nat → List Char → Body (Option String × Draft)
  | 0, _, _ => ⟨([], false), none⟩
  | fuel + 1, depth, text =>
    match text with
    | '"' :: cs =>
      match readPieces cs with
      | none => ⟨([], false), none⟩
      | some (ps, rest) =>
        let key := text? ps
        match skipSpace rest with
        | ':' :: cs =>
          let value := readValue fuel depth cs
          match value.rest with
          | none => ⟨([(key, value.content)], false), none⟩
          | some cs =>
            let body := readMembers fuel depth false cs
            ⟨((key, value.content) :: body.content.1, body.content.2), body.rest⟩
        | _ => ⟨([(key, .broken)], false), none⟩
    | _ => ⟨([], false), none⟩

end

end

/-- A whole text as read, and whether nothing but blanks follows the value. -/
structure Text where
  /-- The value in front. -/
  draft : Draft
  /-- Whether only blanks follow it. -/
  complete : Bool

/-- Reads characters whose literals have the texts given. The fuel bounds the steps. -/
def Text.readFrom (text? : List Piece → Option String) (fuel : Nat) (cs : List Char) : Text :=
  let part := readValue text? fuel 0 cs
  match part.rest with
  | some rest => ⟨part.content, (skipSpace rest).isEmpty⟩
  | none => ⟨part.content, false⟩

/-- The steps that are enough for a number of bytes: each takes a byte or is one of three on its
way. -/
def fuelFor (bytes : Nat) : Nat := 4 * bytes + 4

/-- Reads a whole text. -/
def Text.read (text : String) : Text :=
  .readFrom literal? (fuelFor (text : Bytes).list.length) text.toList

/-- Reads bytes, which need not be those of a text. -/
def Text.readBytes (b : Bytes) : Text :=
  .readFrom byteLiteral? (fuelFor b.list.length) (b.list.map byteChar)

/-- The value of a text that is JSON as a whole. -/
def parse? (text : String) : Option Json :=
  let t := Text.read text
  if t.complete then t.draft.value? else none

end ApiExposure.Json
