import ApiExposure.Text.Digit

/-!
# Properties by runs of code points

A property of code points is written as runs: how many code points follow one
another and what holds for each of them. The runs begin at the first code point
beyond ASCII, whose properties are stated directly where they are used.
-/

namespace ApiExposure.Unicode

/-- Runs of code points with what holds for each code point of a run. -/
abbrev Runs (α : Type) := List (Nat × α)

/-- The first code point beyond ASCII. -/
def firstPoint : Nat := 128

/-- Whether a character is one of ASCII. -/
def isAscii (c : Char) : Bool := c.toNat < firstPoint

namespace Runs

/-- The words of a text, which blanks and line ends separate. -/
def words (text : String) : List (List Char) :=
  let step := fun (c : Char) (found : List Char × List (List Char)) =>
    if c.isWhitespace then
      ([], if found.1.isEmpty then found.2 else found.1 :: found.2)
    else (c :: found.1, found.2)
  let (word, rest) := text.toList.foldr step ([], [])
  if word.isEmpty then rest else word :: rest

/-- Reads runs: in each word the number of code points in hexadecimal, which is left out where
it is one, and then what holds for them. -/
def ofText {α : Type} (read : List Char → α) (text : String) : Runs α :=
  (words text).map (fun word =>
    let digits := word.map Text.hexDigit?
    let count := (digits.takeWhile Option.isSome).reduceOption
    (if count.isEmpty then 1 else Text.valueOf 16 count, read (word.drop count.length)))

/-- What holds for the code point at a distance from the first one, and how far it stands from
the beginning of its run. -/
def at? {α : Type} : Runs α → Nat → Option (Nat × α)
  | [], _ => none
  | (count, a) :: rest, n => if n < count then some (n, a) else at? rest (n - count)

/-- What holds for a character beyond ASCII. -/
def get? {α : Type} (runs : Runs α) (c : Char) : Option α :=
  (at? runs (c.toNat - firstPoint)).map (·.2)

end Runs

end ApiExposure.Unicode
