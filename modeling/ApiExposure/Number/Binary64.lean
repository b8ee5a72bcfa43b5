/-!
# Finite double-precision numbers

A finite double is a sign, an integer significand below `2 ^ 53` and a binary
exponent. Every operation works on exact integers and rounds once, to the
nearest double, ties to the even significand. No infinity and no NaN exists
here: an operation whose result would overflow has none.
-/

namespace ApiExposure

/-- A finite double `± significand * 2 ^ exponent`. Zero keeps its sign. -/
structure Binary64 where
  /-- Whether the sign is minus. -/
  negative : Bool
  /-- Integer significand; at least `2 ^ 52` unless the exponent is least. -/
  significand : Nat
  /-- Binary exponent, from `-1074` to `971`. -/
  exponent : Int
  deriving DecidableEq, Repr, Inhabited

namespace Binary64

/-- Bound of the significands: each is below `2 ^ 53`. -/
def significandBound : Nat := 9007199254740992

/-- Least exponent of a double. -/
def leastExponent : Int := -1074

/-- Greatest exponent of a finite double. -/
def greatestExponent : Int := 971

/-- Zero with the given sign. -/
def zero (negative : Bool) : Binary64 := ⟨negative, 0, leastExponent⟩

/-- Whether the number is zero of either sign. -/
def isZero (x : Binary64) : Bool := x.significand == 0

/-- Numeric equality: the two zeros are one number. -/
def same (x y : Binary64) : Bool := x == y || (x.isZero && y.isZero)

/-- Sameness of doubles is transitive: either all are zeros or all are one number. -/
theorem same_trans {x y z : Binary64} (hxy : same x y = true) (hyz : same y z = true) :
    same x z = true := by
  simp only [same, Bool.or_eq_true, beq_iff_eq, Bool.and_eq_true] at *
  rcases hxy with rfl | ⟨hx, _⟩
  · exact hyz
  · rcases hyz with rfl | ⟨_, hz⟩
    · exact Or.inr ⟨hx, by assumption⟩
    · exact Or.inr ⟨hx, hz⟩

/-- The quotient rounded to the nearest integer, a half to the even one. -/
def divideToEven (num den : Nat) : Nat :=
  let q := num / den
  let r := num % den
  if 2 * r < den then q
  else if 2 * r > den then q + 1
  else if q % 2 == 0 then q else q + 1

/-- Numerator and denominator of `num / den / 2 ^ e`. -/
def scaleDown (num den : Nat) (e : Int) : Nat × Nat :=
  if 0 ≤ e then (num, den * Nat.pow 2 e.toNat) else (num * Nat.pow 2 (-e).toNat, den)

/-- The double nearest to `num / den`, or `none` when that is out of range. -/
def ofRatio (negative : Bool) (num den : Nat) : Option Binary64 :=
  if num = 0 then some (zero negative) else
  let coarse := max ((num.log2 : Int) - (den.log2 : Int) - 53) leastExponent
  let (n, d) := scaleDown num den coarse
  let e := if n / d ≥ significandBound then coarse + 1 else coarse
  let (n, d) := scaleDown num den e
  let m := divideToEven n d
  let (m, e) := if m = significandBound then (significandBound / 2, e + 1) else (m, e)
  if e > greatestExponent then none else some ⟨negative, m, e⟩

/-- The double nearest to a natural number. -/
def ofNat (n : Nat) : Option Binary64 := ofRatio false n 1

/-- Magnitude as a fraction of naturals. -/
def ratio (x : Binary64) : Nat × Nat :=
  if 0 ≤ x.exponent then (x.significand * Nat.pow 2 x.exponent.toNat, 1)
  else (x.significand, Nat.pow 2 (-x.exponent).toNat)

/-- Rounded product. -/
def mul (x y : Binary64) : Option Binary64 :=
  let (a, b) := x.ratio
  let (c, d) := y.ratio
  ofRatio (x.negative != y.negative) (a * c) (b * d)

/-- Rounded quotient; `none` also for a zero divisor. -/
def div (x y : Binary64) : Option Binary64 :=
  let (a, b) := x.ratio
  let (c, d) := y.ratio
  if c = 0 then none else ofRatio (x.negative != y.negative) (a * d) (b * c)

/-- The same magnitude with the other sign. -/
def neg (x : Binary64) : Binary64 := { x with negative := !x.negative }

/-- The nearest integer; a half goes away from zero. -/
def round (x : Binary64) : Int :=
  let (a, b) := x.ratio
  let n := (2 * a + b) / (2 * b)
  if x.negative then -(n : Int) else (n : Int)

end Binary64

end ApiExposure
