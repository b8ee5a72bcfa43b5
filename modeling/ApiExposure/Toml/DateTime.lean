import ApiExposure.Text.Digit
import ApiExposure.Time.Date

/-!
# Dates and times of TOML

A date, a time of day or both, with an offset only where there are both. They
are settings without an arithmetic of their own, so what is read is the text in
its canonical spelling: a capital `T` and `Z`, and a fraction of a second in at
most nine digits, which does not end in zero.
-/

namespace ApiExposure.Toml

open Text

/-- Two digits that spell a number within bounds. -/
def pair? (least greatest : Nat) : List Char → Option (Nat × List Char)
  | a :: b :: rest => do
    let n := 10 * (← digit? a) + (← digit? b)
    if least ≤ n ∧ n ≤ greatest then some (n, rest) else none
  | _ => none

/-- What follows one of the given characters. -/
def mark? (marks : List Char) : List Char → Option (List Char)
  | c :: rest => if marks.contains c then some rest else none
  | [] => none

/-- A date of the calendar. -/
def date? (cs : List Char) : Option (String × List Char) := do
  let (century, cs) ← pair? 0 99 cs
  let (year, cs) ← pair? 0 99 cs
  let year := 100 * century + year
  let (month, cs) ← pair? 1 12 (← mark? ['-'] cs)
  let (day, cs) ← pair? 1 (Date.daysInMonth year month) (← mark? ['-'] cs)
  some (padded 4 year ++ "-" ++ padded 2 month ++ "-" ++ padded 2 day, cs)

/-- The digits of a fraction that count: nine at most, without zeros at the end. -/
def fractionDigits (digits : List Nat) : List Nat :=
  ((digits.take 9).reverse.dropWhile (· == 0)).reverse

/-- A fraction of a second, if one follows. -/
def fraction (cs : List Char) : String × List Char :=
  match cs with
  | '.' :: more =>
    match takeDigits more with
    | ([], _) => ("", cs)
    | (ds, rest) =>
      match fractionDigits ds with
      | [] => ("", rest)
      | kept => ("." ++ String.join (kept.map toString), rest)
  | _ => ("", cs)

/-- A time of day. The second 60 is a leap second. -/
def time? (cs : List Char) : Option (String × List Char) := do
  let (hour, cs) ← pair? 0 23 cs
  let (minute, cs) ← pair? 0 59 (← mark? [':'] cs)
  let (second, cs) ← pair? 0 60 (← mark? [':'] cs)
  let (below, cs) := fraction cs
  some (padded 2 hour ++ ":" ++ padded 2 minute ++ ":" ++ padded 2 second ++ below, cs)

/-- An offset from universal time; minus zero is plus zero. -/
def offset? : List Char → Option (String × List Char)
  | 'Z' :: cs => some ("Z", cs)
  | 'z' :: cs => some ("Z", cs)
  | sign :: cs => do
    let _ ← mark? ['+', '-'] [sign]
    let (hour, cs) ← pair? 0 23 cs
    let (minute, cs) ← pair? 0 59 (← mark? [':'] cs)
    let sign := if sign = '-' ∧ (hour ≠ 0 ∨ minute ≠ 0) then "-" else "+"
    some (sign ++ padded 2 hour ++ ":" ++ padded 2 minute, cs)
  | [] => none

/-- A date with a time behind it, if one follows. -/
def dated? (cs : List Char) : Option (String × List Char) := do
  let (date, cs) ← date? cs
  match (mark? ['T', 't', ' '] cs).bind time? with
  | none => some (date, cs)
  | some (time, cs) =>
    match offset? cs with
    | none => some (date ++ "T" ++ time, cs)
    | some (offset, cs) => some (date ++ "T" ++ time ++ offset, cs)

/-- A date, a time or both. -/
def dateTime? (cs : List Char) : Option (String × List Char) :=
  match dated? cs with
  | some found => some found
  | none => time? cs

end ApiExposure.Toml
