import ApiExposure.Number.Decimal

/-!
# Doubles with infinities

The doubles together with two infinities and the result of an undefined
operation. A decimal beyond the finite doubles is read as an infinity.
-/

namespace ApiExposure

/-- A double, finite or not. -/
inductive Extended where
  | finite (value : Binary64)
  | infinite (negative : Bool)
  /-- The result of an undefined operation. -/
  | undefined
  deriving DecidableEq, Repr, Inhabited

namespace Extended

open Text

/-- Whether the number is zero of either sign. -/
def isZero : Extended → Bool
  | .finite x => x.isZero
  | _ => false

/-- The nearest natural number up to a bound; an undefined one counts as zero. -/
def clamped (bound : Nat) : Extended → Nat
  | .finite x => min x.round.toNat bound
  | .infinite negative => if negative then 0 else bound
  | .undefined => 0

/-- Text without exponent. -/
def text : Extended → String
  | .finite x => x.plainText
  | .infinite negative => if negative then "-inf" else "inf"
  | .undefined => "NaN"

/-- The number nearest to `digits * 10 ^ scale`. -/
def ofDecimal (negative : Bool) (digits : Nat) (scale : Int) : Extended :=
  match Binary64.ofDecimal negative digits scale with
  | some x => .finite x
  | none => .infinite negative

/-- An exponent with an optional sign, up to the end of the text. -/
def exponent? : List Char → Option Int
  | '-' :: cs => (decimal? cs).map (fun n => -(n : Int))
  | '+' :: cs => (decimal? cs).map (fun n => (n : Int))
  | cs => (decimal? cs).map (fun n => (n : Int))

/-- Reads digits with an optional point and an optional exponent. -/
def readDigits? (negative : Bool) (cs : List Char) : Option Extended :=
  let (whole, cs) := takeDigits cs
  let (fraction, cs) := match cs with
    | '.' :: cs => takeDigits cs
    | cs => ([], cs)
  if whole.isEmpty ∧ fraction.isEmpty then none
  else
    let digits := valueOf 10 (whole ++ fraction)
    match cs with
    | [] => some (ofDecimal negative digits (-fraction.length))
    | c :: cs =>
      if c = 'e' ∨ c = 'E' then
        (exponent? cs).map (fun e => ofDecimal negative digits (e - fraction.length))
      else none

/-- Reads a number without its sign: digits or one of the words, in any case, for what is not
finite. -/
def readMagnitude? (negative : Bool) (cs : List Char) : Option Extended :=
  let word := cs.map Char.toLower
  if word = "inf".toList ∨ word = "infinity".toList then some (.infinite negative)
  else if word = "nan".toList then some .undefined
  else readDigits? negative cs

/-- Reads a number with an optional sign. -/
def read? (text : String) : Option Extended :=
  match text.toList with
  | '-' :: cs => readMagnitude? true cs
  | '+' :: cs => readMagnitude? false cs
  | cs => readMagnitude? false cs

end Extended

end ApiExposure
