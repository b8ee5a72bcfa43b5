import ApiExposure.Text.Bytes
import ApiExposure.Text.Digit

/-!
# JSON strings

A string literal holds characters and escapes. Escaped code units above the
basic plane come in pairs; a unit of a pair that stands alone is correct
syntax, but the literal then denotes no text, and so it is with a literal of
bytes that are no UTF-8. Writing escapes the quote, the backslash and the control
characters, and nothing else.
-/

namespace ApiExposure.Json

open Text

/-- One element of a string literal. -/
inductive Piece where
  /-- A character, written as itself or by a short escape. -/
  | char (c : Char)
  /-- A code unit of 16 bits, written by its number. -/
  | unit (n : Nat)
  deriving DecidableEq, Repr

/-- The code unit of four hexadecimal digits. -/
def codeUnit? (a b c d : Char) : Option Nat :=
  match hexDigit? a, hexDigit? b, hexDigit? c, hexDigit? d with
  | some a, some b, some c, some d => some (((a * 16 + b) * 16 + c) * 16 + d)
  | _, _, _, _ => none

/-- The character that a short escape stands for. -/
def shortEscape? : Char → Option Char
  | '"' => some '"'
  | '\\' => some '\\'
  | '/' => some '/'
  | 'b' => some '\x08'
  | 'f' => some '\x0c'
  | 'n' => some '\n'
  | 'r' => some '\r'
  | 't' => some '\t'
  | _ => none

/-- The pieces of a literal behind its opening quote, and what follows the closing quote.
A control character, an unknown escape or a missing quote makes the literal broken. -/
def readPieces : List Char → Option (List Piece × List Char)
  | [] => none
  | '"' :: cs => some ([], cs)
  | '\\' :: 'u' :: a :: b :: c :: d :: cs =>
    match codeUnit? a b c d, readPieces cs with
    | some n, some (ps, rest) => some (.unit n :: ps, rest)
    | _, _ => none
  | '\\' :: e :: cs =>
    match shortEscape? e, readPieces cs with
    | some c, some (ps, rest) => some (.char c :: ps, rest)
    | _, _ => none
  | c :: cs =>
    if c.toNat < 0x20 ∨ c = '\\' then none
    else
      match readPieces cs with
      | some (ps, rest) => some (.char c :: ps, rest)
      | none => none

/-- The first unit of a pair. -/
def isLeading (n : Nat) : Bool := 0xD800 ≤ n && n ≤ 0xDBFF

/-- The second unit of a pair. -/
def isTrailing (n : Nat) : Bool := 0xDC00 ≤ n && n ≤ 0xDFFF

/-- What pieces denote one after the other, given what a character stands for that is written as
itself or by a short escape (`plain`), and what one that is written by its number (`coded`). Nothing
when a unit of a pair stands alone. -/
def denote {β : Type} (plain coded : Char → List β) : List Piece → Option (List β)
  | [] => some []
  | .char c :: ps => (denote plain coded ps).map (plain c ++ ·)
  | .unit n :: .unit m :: ps =>
    if isLeading n && isTrailing m then
      (denote plain coded ps).map
        (coded (Char.ofNat (0x10000 + (n - 0xD800) * 0x400 + (m - 0xDC00))) ++ ·)
    else if isLeading n || isTrailing n then none
    else (denote plain coded (.unit m :: ps)).map (coded (Char.ofNat n) ++ ·)
  | .unit n :: ps =>
    if isLeading n || isTrailing n then none
    else (denote plain coded ps).map (coded (Char.ofNat n) ++ ·)

/-- The characters that pieces denote; `none` when a unit of a pair stands alone. -/
def assemble : List Piece → Option (List Char) := denote (fun c => [c]) (fun c => [c])

/-- The text of a literal that stands in a text. -/
def literal? (ps : List Piece) : Option String := (assemble ps).map String.ofList

/-- A byte in the place of a character. -/
def byteChar (b : UInt8) : Char := Char.ofNat b.toNat

/-- The byte that stands in the place of a character. -/
def charByte (c : Char) : UInt8 := UInt8.ofNat c.toNat

/-- The text of a literal that stands among bytes, each in the place of a character. There is none
unless the bytes of the literal are UTF-8, its escapes replaced by the bytes of what they denote. -/
def byteLiteral? (ps : List Piece) : Option String :=
  (denote (fun c => [charByte c]) bytesOf ps).bind utf8?

/-- The written form of one character. -/
def escapeChar (c : Char) : List Char :=
  if c = '"' then ['\\', '"']
  else if c = '\\' then ['\\', '\\']
  else if c = '\n' then ['\\', 'n']
  else if c = '\r' then ['\\', 'r']
  else if c = '\t' then ['\\', 't']
  else if c = '\x08' then ['\\', 'b']
  else if c = '\x0c' then ['\\', 'f']
  else if c.toNat < 0x20 then
    ['\\', 'u', '0', '0', hexChar (c.toNat / 16), hexChar (c.toNat % 16)]
  else [c]

/-- The written form of a text, quotes included. -/
def quote (text : String) : List Char := '"' :: (text.toList.flatMap escapeChar ++ ['"'])

end ApiExposure.Json
