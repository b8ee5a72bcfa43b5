import ApiExposure.Text.Blank
import ApiExposure.Text.Digit
import ApiExposure.Time.Date

/-!
# Instants

An instant is a date and a time of day in universal time, with nanoseconds. A
leap second is the second 59 with a thousand million nanoseconds or more.
Instants are read from date, time and offset, with some freedom in widths and
blanks, and written in one form with the shortest exact fraction of zero,
three, six or nine digits.
-/

namespace ApiExposure

/-- A point in time. -/
structure Instant where
  /-- Date in universal time. -/
  date : Date
  /-- Minute of the day. -/
  minute : Nat
  /-- Second of the minute, at most 59. -/
  second : Nat
  /-- Nanoseconds; from `10 ^ 9` on within a leap second. -/
  nanosecond : Nat
  deriving DecidableEq, Repr, Inhabited

namespace Instant

open Text

/-- The parts of an instant from the coarsest to the finest. -/
def key (t : Instant) : List Int :=
  [t.date.year, t.date.month, t.date.day, t.minute, t.second, t.nanosecond]

/-- Strictly earlier. -/
def before (a b : Instant) : Bool := decide (a.key < b.key)

/-- The instant a number of seconds and nanoseconds after the start of 1970. -/
def ofUnix (seconds : Int) (nanosecond : Nat) : Instant :=
  let rest := (seconds % 86400).toNat
  ⟨Date.ofUnixDays (seconds / 86400), rest / 60, rest % 60, nanosecond⟩

/-- Whole seconds from one instant to another, rounded toward zero. -/
def secondsSince (t start : Instant) : Int :=
  let nanoseconds := fun (u : Instant) =>
    ((u.date.unixDays * 1440 + u.minute) * 60 + u.second) * 1000000000 + u.nanosecond
  (nanoseconds t - nanoseconds start).tdiv 1000000000

/-- Text of a year: four digits, or a sign and at least four digits. -/
def yearText (year : Int) : String :=
  if 0 ≤ year ∧ year ≤ 9999 then padded 4 year.toNat
  else if year < 0 then "-" ++ padded 4 year.natAbs
  else "+" ++ padded 4 year.natAbs

/-- Text of the fraction of a second, with its point; empty for zero. -/
def fractionText (n : Nat) : String :=
  if n = 0 then ""
  else if n % 1000000 = 0 then "." ++ padded 3 (n / 1000000)
  else if n % 1000 = 0 then "." ++ padded 6 (n / 1000)
  else "." ++ padded 9 n

/-- The written form. -/
def text (t : Instant) : String :=
  let second := if t.nanosecond < 1000000000 then t.second else t.second + 1
  yearText t.date.year ++ "-" ++ padded 2 t.date.month ++ "-" ++ padded 2 t.date.day ++ "T"
    ++ padded 2 (t.minute / 60) ++ ":" ++ padded 2 (t.minute % 60) ++ ":" ++ padded 2 second
    ++ fractionText (t.nanosecond % 1000000000) ++ "Z"

/-- A number of one digit up to a given count of digits, behind blanks. -/
def number? (most : Nat) (cs : List Char) : Option (Nat × List Char) :=
  match (takeDigits (trimLeft cs)).1.take most with
  | [] => none
  | d :: ds => some (valueOf 10 (d :: ds), (trimLeft cs).drop (ds.length + 1))

/-- A year: with a sign any number of digits, without one at most four. -/
def year? (cs : List Char) : Option (Int × List Char) :=
  let cs := trimLeft cs
  let signed := fun (cs : List Char) =>
    match takeDigits cs with
    | ([], _) => none
    | (ds, rest) => some (valueOf 10 ds, rest)
  match cs with
  | '-' :: cs => (signed cs).map (fun (n, rest) => (-(n : Int), rest))
  | '+' :: cs => (signed cs).map (fun (n, rest) => ((n : Int), rest))
  | cs => (number? 4 cs).map (fun (n, rest) => ((n : Int), rest))

/-- A given character behind blanks. -/
def mark? (c : Char) (cs : List Char) : Option (List Char) :=
  match trimLeft cs with
  | d :: rest => if d = c then some rest else none
  | [] => none

/-- A date as written, not yet checked. -/
def date? (cs : List Char) : Option (Date × List Char) := do
  let (year, cs) ← year? cs
  let cs ← mark? '-' cs
  let (month, cs) ← number? 2 cs
  let cs ← mark? '-' cs
  let (day, cs) ← number? 2 cs
  some (⟨year, month, day⟩, cs)

/-- The letter or blank between date and time. -/
def separator? : List Char → Option (List Char)
  | c :: cs => if c = 'T' ∨ c = 't' ∨ c = ' ' then some cs else none
  | [] => none

/-- Nanoseconds of a fraction: nine digits count, further ones are dropped. -/
def fraction? : List Char → Option (Nat × List Char)
  | '.' :: cs =>
    match takeDigits cs with
    | ([], _) => none
    | (ds, rest) =>
      let kept := ds.take 9
      some (valueOf 10 kept * Nat.pow 10 (9 - kept.length), rest)
  | cs => some (0, cs)

/-- Hour, minute, second and nanoseconds as written. The second 60 is a leap second. -/
def time? (cs : List Char) : Option ((Nat × Nat × Nat) × List Char) := do
  let (hour, cs) ← number? 2 cs
  let cs ← mark? ':' cs
  let (minute, cs) ← number? 2 cs
  let cs ← mark? ':' cs
  let (second, cs) ← number? 2 cs
  let (nanosecond, cs) ← fraction? cs
  if hour ≤ 23 ∧ minute ≤ 59 ∧ second ≤ 60 then
    let leap := second = 60
    some ((hour * 60 + minute, if leap then 59 else second,
      if leap then nanosecond + 1000000000 else nanosecond), cs)
  else none

/-- Two digits in front. -/
def twoDigits? : List Char → Option (Nat × List Char)
  | a :: b :: cs =>
    match digit? a, digit? b with
    | some a, some b => some (a * 10 + b, cs)
    | _, _ => none
  | _ => none

/-- Hours and minutes of an offset behind its sign, in minutes; below a whole day. -/
def offsetMinutes? (cs : List Char) : Option (Nat × List Char) := do
  let (hours, cs) ← twoDigits? cs
  let (minutes, cs) ← twoDigits? (cs.dropWhile (fun c => c == ':' || isWhiteSpace c))
  if minutes ≤ 59 ∧ hours ≤ 23 then some (hours * 60 + minutes, cs) else none

/-- The offset from universal time in minutes. -/
def offset? (cs : List Char) : Option (Int × List Char) :=
  match trimLeft cs with
  | 'Z' :: rest => some (0, rest)
  | 'z' :: rest => some (0, rest)
  | '+' :: rest => (offsetMinutes? rest).map (fun (m, rest) => ((m : Int), rest))
  | '-' :: rest => (offsetMinutes? rest).map (fun (m, rest) => (-(m : Int), rest))
  | '\u2212' :: rest => (offsetMinutes? rest).map (fun (m, rest) => (-(m : Int), rest))
  | u :: t :: c :: rest =>
    if u.toLower = 'u' ∧ t.toLower = 't' ∧ c.toLower = 'c' then some (0, rest) else none
  | _ => none

/-- Moves a local date and minute of the day to universal time. -/
def toUniversal (date : Date) (minute : Nat) (offset : Int) : Date × Nat :=
  let m := (minute : Int) - offset
  if m < 0 then (date.previous, (m + 1440).toNat)
  else if 1440 ≤ m then (date.next, (m - 1440).toNat)
  else (date, m.toNat)

/-- Reads an instant. -/
def read? (text : String) : Option Instant := do
  let (date, cs) ← date? text.toList
  let cs ← separator? cs
  let ((minute, second, nanosecond), cs) ← time? cs
  let (offset, cs) ← offset? cs
  let (day, minute) := toUniversal date minute offset
  if (trimLeft cs).isEmpty ∧ date.isValid ∧ day.isValid then
    some ⟨day, minute, second, nanosecond⟩
  else none

/-- An offset of zero moves nothing. -/
theorem toUniversal_zero (date : Date) {minute : Nat} (h : minute < 1440) :
    toUniversal date minute 0 = (date, minute) := by
  have early : ¬ ((minute : Int) - 0 < 0) := by omega
  have late : ¬ (1440 ≤ (minute : Int) - 0) := by omega
  rw [toUniversal, if_neg early, if_neg late]
  simp

end Instant

end ApiExposure
