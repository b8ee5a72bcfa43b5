import ApiExposure.Text.Digit

/-!
# Host addresses inside URLs

Numbers of a version 4 address may be decimal, octal or hexadecimal and the
last one fills all bytes that are left. A version 6 address has eight pieces of
16 bits, one run of zero pieces may be written as two colons, and the last two
pieces may be written as a version 4 address in plain decimal.
-/

namespace ApiExposure.Net

open Text

/-- Splits at every occurrence of a character; the pieces of an empty text are one empty one. -/
def splitAt (sep : Char) : List Char → List (List Char)
  | [] => [[]]
  | c :: cs =>
    if c = sep then [] :: splitAt sep cs
    else
      match splitAt sep cs with
      | piece :: pieces => (c :: piece) :: pieces
      | [] => [[c]]

/-- Digits of a base that make up the whole text. -/
def allDigits (base : Nat) (cs : List Char) : Option (List Nat) :=
  cs.mapM (fun c =>
    match hexDigit? c with
    | some d => if d < base then some d else none
    | none => none)

/-- A number of a version 4 address: hexadecimal behind `0x`, octal behind a zero. -/
def addressNumber? : List Char → Option Nat
  | [] => none
  | '0' :: x :: cs =>
    if x = 'x' ∨ x = 'X' then (allDigits 16 cs).map (valueOf 16)
    else (allDigits 8 (x :: cs)).map (valueOf 8)
  | cs => (allDigits 10 cs).map (valueOf 10)

/-- The pieces of a dotted text, less an empty last one. -/
def dottedPieces (host : List Char) : List (List Char) :=
  let pieces := splitAt '.' host
  match pieces.getLast? with
  | some [] => pieces.dropLast
  | _ => pieces

/-- Whether a host has to be a version 4 address, because it ends in a number. -/
def endsInNumber (host : List Char) : Bool :=
  match (dottedPieces host).getLast? with
  | none => false
  | some [] => false
  | some last => last.all (fun c => (digit? c).isSome) || (addressNumber? last).isSome

/-- Whether a host is a version 4 address. -/
def isAddress4 (host : List Char) : Bool :=
  let pieces := dottedPieces host
  match pieces.mapM addressNumber? with
  | none => false
  | some numbers =>
    numbers.length ≤ 4 && numbers.dropLast.all (· ≤ 255)
      && (numbers.getLast?.getD 0) < Nat.pow 256 (5 - numbers.length)

/-- A number from 0 to 255 without leading zeros, and what follows it. -/
def byte? (cs : List Char) : Option (List Char) :=
  match takeDigits cs with
  | ([], _) => none
  | (0 :: _ :: _, _) => none
  | (ds, rest) => if valueOf 10 ds ≤ 255 then some rest else none

/-- Four such numbers with points between them, and nothing else. -/
def isDottedBytes (cs : List Char) : Bool :=
  match (splitAt '.' cs).mapM byte? with
  | some rests => rests.length == 4 && rests.all List.isEmpty
  | none => false

/-- The run of at most four hexadecimal digits in front, and the rest. -/
def takeHex : Nat → List Char → Nat × List Char
  | 0, cs => (0, cs)
  | _, [] => (0, [])
  | n + 1, c :: cs =>
    match hexDigit? c with
    | some _ => let (k, rest) := takeHex n cs; (k + 1, rest)
    | none => (0, c :: cs)

/-- The pieces of a version 6 address from the given one on; `short` tells whether two colons
were seen. The fuel bounds the characters left. -/
def pieces6 : Nat → Nat → Bool → List Char → Bool
  | 0, _, _, _ => false
  | _, piece, short, [] => short || piece == 8
  | fuel + 1, piece, short, c :: cs =>
    if piece ≥ 8 then false
    else if c = ':' then !short && pieces6 fuel (piece + 1) true cs
    else
      match takeHex 4 (c :: cs) with
      | (0, _) => false
      | (_, []) => pieces6 fuel (piece + 1) short []
      | (_, ':' :: rest) => !rest.isEmpty && pieces6 fuel (piece + 1) short rest
      | (_, '.' :: _) => piece ≤ 6 && isDottedBytes (c :: cs) && (short || piece == 6)
      | _ => false

/-- Whether the text between square brackets is a version 6 address. -/
def isAddress6 (cs : List Char) : Bool :=
  match cs with
  | ':' :: ':' :: rest => pieces6 (cs.length + 1) 1 true rest
  | ':' :: _ => false
  | [_] => false
  | [] => false
  | cs => pieces6 (cs.length + 1) 0 false cs

end ApiExposure.Net
