import ApiExposure.Text.Digit

/-!
# Universally unique identifiers

Sixteen bytes as 32 hexadecimal digits. Four spellings are read: plain, in
groups with hyphens, the latter in braces or behind a name. One is written:
groups with hyphens in lower case.
-/

namespace ApiExposure

/-- An identifier of 128 bits, as 32 hexadecimal digit values. -/
structure Uuid where
  /-- Digit values, most significant first. -/
  digits : List Nat
  deriving DecidableEq, Repr, Inhabited

namespace Uuid

open Text

/-- Digits without separators. -/
def plain? (cs : List Char) : Option Uuid := do
  let ds ← cs.mapM hexDigit?
  if ds.length = 32 then some ⟨ds⟩ else none

/-- Digits in groups of 8, 4, 4, 4 and 12 with hyphens between them. -/
def hyphenated? (cs : List Char) : Option Uuid :=
  if cs.length = 36 ∧ [8, 13, 18, 23].all (fun i => cs[i]? = some '-') then
    plain? (cs.take 8 ++ (cs.drop 9).take 4 ++ (cs.drop 14).take 4 ++ (cs.drop 19).take 4
      ++ cs.drop 24)
  else none

/-- Reads an identifier. -/
def read? (text : String) : Option Uuid :=
  let cs := text.toList
  match cs.length with
  | 32 => plain? cs
  | 36 => hyphenated? cs
  | 38 =>
    if cs.head? = some '\x7b' ∧ cs.getLast? = some '\x7d' then hyphenated? ((cs.drop 1).dropLast)
    else none
  | 45 => if cs.take 9 = "urn:uuid:".toList then hyphenated? (cs.drop 9) else none
  | _ => none

/-- The written form. -/
def text (u : Uuid) : String :=
  let cs := u.digits.map hexChar
  String.ofList (cs.take 8 ++ '-' :: (cs.drop 8).take 4 ++ '-' :: (cs.drop 12).take 4
    ++ '-' :: (cs.drop 16).take 4 ++ '-' :: cs.drop 20)

end Uuid

end ApiExposure
