import ApiExposure.Number.Binary64
import ApiExposure.Text.Digit

/-!
# Shortest decimal text of a double

Among the decimals that round to a given double, the text uses one with the
fewest significant digits and, of those, the one nearest to the double. The
search is exact: it compares integers and never rounds on the way.
-/

namespace ApiExposure.Binary64

/-- Bounds of the decimals that round to the magnitude, in units of `2 ^ (exponent - 2)`,
and whether the bounds themselves round to it. -/
def roundingBounds (x : Binary64) : Nat × Nat × Bool :=
  let m := 4 * x.significand
  let low := if x.significand = significandBound / 2 ∧ x.exponent ≠ leastExponent then m - 1 else m - 2
  (low, m + 2, x.significand % 2 == 0)

/-- Multiplies by a power of two or of ten, as a fraction. -/
def scaled (n base : Nat) (e : Int) : Nat × Nat :=
  if 0 ≤ e then (n * Nat.pow base e.toNat, 1) else (n, Nat.pow base (-e).toNat)

/-- Whether the decimal `c * 10 ^ k` rounds to `x`. -/
def reads (x : Binary64) (c : Nat) (k : Int) : Bool :=
  let (low, high, closed) := x.roundingBounds
  let (cn, cd) := scaled c 10 k
  let (ln, ld) := scaled low 2 (x.exponent - 2)
  let (hn, hd) := scaled high 2 (x.exponent - 2)
  let below := if closed then ln * cd ≤ cn * ld else ln * cd < cn * ld
  let above := if closed then cn * hd ≤ hn * cd else cn * hd < hn * cd
  below && above

/-- The number of decimal digits before the point of the magnitude, as an exponent `d`
with `10 ^ (d - 1) ≤ x < 10 ^ d`. -/
def decimalExponent (x : Binary64) : Int :=
  let (a, b) := x.ratio
  if b ≤ a then ((toString (a / b)).length : Int)
  else
    let l := (toString (b / a)).length
    if a * Nat.pow 10 (l - 1) ≥ b then 2 - (l : Int) else 1 - (l : Int)

/-- The better of the two neighbours of `x` with `n` digits, if one of them rounds to `x`. -/
def withDigits? (x : Binary64) (d : Int) (n : Nat) : Option (Nat × Int) :=
  let k := d - n
  let (a, b) := x.ratio
  let (num, den) := if 0 ≤ k then (a, b * Nat.pow 10 k.toNat) else (a * Nat.pow 10 (-k).toNat, b)
  let low := num / den
  match x.reads low k, x.reads (low + 1) k with
  | true, true =>
    let r := num % den
    if 2 * r < den ∨ (2 * r = den ∧ low % 2 = 0) then some (low, k) else some (low + 1, k)
  | true, false => some (low, k)
  | false, true => some (low + 1, k)
  | false, false => none

/-- Searches from `n` digits upwards. -/
def searchDigits (x : Binary64) (d : Int) : Nat → Nat → Nat × Int
  | 0, n => (x.significand, n)
  | fuel + 1, n =>
    match x.withDigits? d n with
    | some found => found
    | none => searchDigits x d fuel (n + 1)

/-- Removes trailing zeros of a decimal significand. -/
def stripZeros : Nat → Nat → Int → Nat × Int
  | 0, c, k => (c, k)
  | fuel + 1, c, k =>
    if c ≠ 0 ∧ c % 10 = 0 then stripZeros fuel (c / 10) (k + 1) else (c, k)

/-- The shortest decimal `c * 10 ^ k` of a magnitude. Seventeen digits always suffice. -/
def shortest (x : Binary64) : Nat × Int :=
  if x.isZero then (0, 0) else
  let (c, k) := searchDigits x x.decimalExponent 17 1
  stripZeros 20 c k

/-- Decimal text: positional with a fraction for magnitudes from `1e-4` up to `1e16`,
otherwise with a signed exponent of two digits or more. -/
def toText (x : Binary64) : String :=
  let (c, k) := x.shortest
  let digits := toString c
  let sign := if x.negative then "-" else ""
  let point := (digits.length : Int) + k
  let body :=
    if c = 0 then "0.0"
    else if 0 < point ∧ point ≤ 16 then
      if 0 ≤ k then digits ++ String.ofList (List.replicate k.toNat '0') ++ ".0"
      else
        let cs := digits.toList
        String.ofList (cs.take point.toNat) ++ "." ++ String.ofList (cs.drop point.toNat)
    else if -4 < point ∧ point ≤ 0 then
      "0." ++ String.ofList (List.replicate (-point).toNat '0') ++ digits
    else
      let e := point - 1
      let cs := digits.toList
      let fraction := if cs.length ≤ 1 then "" else "." ++ String.ofList (cs.drop 1)
      let mark := if e < 0 then "e-" else "e+"
      String.ofList (cs.take 1) ++ fraction ++ mark ++ Text.padded 2 e.natAbs
  sign ++ body

end ApiExposure.Binary64
