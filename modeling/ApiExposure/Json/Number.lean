import ApiExposure.Number.Binary64
import ApiExposure.Number.Word
import ApiExposure.Text.Digit
import ApiExposure.Json.Draft

/-!
# JSON numbers

A number without fraction and exponent that fits 64 bits, signed or unsigned,
is an integer. Every other number is a double: its leading digits, as many as
fit 64 unsigned bits, are taken as an integer and scaled by a power of ten, in
double arithmetic. The result can differ from the nearest double in its last
place. A number beyond the doubles has no value.
-/

namespace ApiExposure.Json

open Text

/-- The parts of a number as written. -/
structure NumberLiteral where
  /-- Whether a minus sign leads. -/
  negative : Bool
  /-- Digits before the point. -/
  whole : List Nat
  /-- Digits after the point; `none` without a point. -/
  fraction : Option (List Nat)
  /-- Sign and digits of the exponent; `none` without one. -/
  exponent : Option (Bool × List Nat)
  deriving Repr

/-- Digits collected into 64 bits: the significand, the power of ten that it lacks,
and whether a digit was left out. -/
structure Collected where
  /-- The digits that were taken, as a number. -/
  significand : Nat
  /-- Power of ten by which the significand has to be scaled. -/
  scale : Int
  /-- Whether a digit did not fit. -/
  full : Bool

/-- Takes one digit before the point. Once a digit does not fit, this and all further
digits only count. -/
def Collected.takeWhole (c : Collected) (d : Nat) : Collected :=
  if c.full || c.significand * 10 + d > Word.greatest then { c with scale := c.scale + 1, full := true }
  else { c with significand := c.significand * 10 + d }

/-- Takes one digit after the point. Once a digit does not fit, it and all further digits
are dropped. -/
def Collected.takeFraction (c : Collected) (d : Nat) : Collected :=
  if c.full || c.significand * 10 + d > Word.greatest then { c with full := true }
  else { c with significand := c.significand * 10 + d, scale := c.scale - 1 }

/-- Nearest double to a power of ten, up to `10 ^ 308`. -/
def powerOfTen (e : Nat) : Binary64 := (Binary64.ofNat (Nat.pow 10 e)).getD (Binary64.zero false)

/-- Divides by a power of ten of which `step` is the one to `10 ^ 308`, in steps of at most
that size. -/
def divideInSteps (step : Binary64) (x : Binary64) (e : Nat) : Option Binary64 :=
  if e ≤ 308 then x.div (powerOfTen e)
  else if x.isZero then some x
  else
    match x.div step with
    | none => none
    | some y => divideInSteps step y (e - 308)
termination_by e
decreasing_by omega

/-- Scales by a power of ten; `none` when the result is no double. -/
def scaleByPower (x : Binary64) (e : Int) : Option Binary64 :=
  if 0 ≤ e then
    if e ≤ 308 then x.mul (powerOfTen e.toNat)
    else if x.isZero then some x else none
  else divideInSteps (powerOfTen 308) x (-e).toNat

namespace NumberLiteral

/-- Significand and scale of a number as written, its exponent left aside. -/
def collected (n : NumberLiteral) : Collected :=
  let whole := n.whole.foldl Collected.takeWhole ⟨0, 0, false⟩
  (n.fraction.getD []).foldl Collected.takeFraction { whole with full := false }

/-- Greatest exponent that scales: beyond it a number is zero or has no value. -/
def greatestExponent : Nat := 2147483647

/-- The double that a number as written denotes. -/
def double? (n : NumberLiteral) : Option Binary64 :=
  let c := n.collected
  let signed := fun (x : Binary64) => if n.negative then x.neg else x
  match n.exponent with
  | none => ((Binary64.ofNat c.significand).bind (scaleByPower · c.scale)).map signed
  | some (minus, digits) =>
    let e := valueOf 10 digits
    if e > greatestExponent then
      if c.significand ≠ 0 ∧ minus = false then none else some (Binary64.zero n.negative)
    else
      let e : Int := if minus then -(e : Int) else e
      ((Binary64.ofNat c.significand).bind (scaleByPower · (c.scale + e))).map signed

/-- The value of a number as written. Minus zero is a double. -/
def draft (n : NumberLiteral) : Draft :=
  let asDouble := match n.double? with
    | some x => Draft.real x
    | none => Draft.unrepresentable
  match n.fraction, n.exponent with
  | none, none =>
    let m := valueOf 10 n.whole
    if n.negative then
      if m ≠ 0 ∧ Word.isSigned (-(m : Int)) then .int (-(m : Int)) else asDouble
    else if m ≤ Word.greatest then .int m else asDouble
  | _, _ => asDouble

end NumberLiteral

/-- Digits after a point, at least one. -/
def readFraction : List Char → Option (Option (List Nat) × List Char)
  | '.' :: cs =>
    match takeDigits cs with
    | ([], _) => none
    | (ds, rest) => some (some ds, rest)
  | cs => some (none, cs)

/-- Digits of an exponent, at least one, after an optional sign. -/
def readExponentDigits (minus : Bool) (cs : List Char) :
    Option (Option (Bool × List Nat) × List Char) :=
  match takeDigits cs with
  | ([], _) => none
  | (ds, rest) => some (some (minus, ds), rest)

/-- An exponent, if one follows. -/
def readExponent : List Char → Option (Option (Bool × List Nat) × List Char)
  | c :: cs =>
    if c == 'e' || c == 'E' then
      match cs with
      | '+' :: cs => readExponentDigits false cs
      | '-' :: cs => readExponentDigits true cs
      | cs => readExponentDigits false cs
    else some (none, c :: cs)
  | [] => some (none, [])

/-- The rest of a number behind its sign. A leading zero stands alone. -/
def readMagnitude (negative : Bool) (cs : List Char) : Option (NumberLiteral × List Char) :=
  match takeDigits cs with
  | ([], _) => none
  | (0 :: _ :: _, _) => none
  | (whole, rest) => do
    let (fraction, rest) ← readFraction rest
    let (exponent, rest) ← readExponent rest
    some (⟨negative, whole, fraction, exponent⟩, rest)

/-- A number and what follows it; `none` when the text in front is no number. -/
def readNumber : List Char → Option (NumberLiteral × List Char)
  | '-' :: cs => readMagnitude true cs
  | cs => readMagnitude false cs

end ApiExposure.Json
