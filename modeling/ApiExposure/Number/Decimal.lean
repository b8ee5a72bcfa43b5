import ApiExposure.Number.Shortest

/-!
# Decimal texts of doubles

A decimal is read as the double nearest to it, and a double is written without
exponent with its shortest digits. A decimal beyond the doubles has no double.
-/

namespace ApiExposure.Binary64

open Text

/-- The double nearest to `digits * 10 ^ scale`. -/
def ofDecimal (negative : Bool) (digits : Nat) (scale : Int) : Option Binary64 :=
  let size := ((toString digits).length : Int) + scale
  if digits = 0 ∨ size < -400 then some (zero negative)
  else if 400 < size then none
  else if 0 ≤ scale then ofRatio negative (digits * Nat.pow 10 scale.toNat) 1
  else ofRatio negative digits (Nat.pow 10 (-scale).toNat)

/-- Text without exponent; a whole number has no point. -/
def plainText (x : Binary64) : String :=
  let (c, k) := x.shortest
  let digits := (toString c).toList
  let sign := if x.negative then "-" else ""
  let zeros := fun (n : Int) => List.replicate n.toNat '0'
  let point := (digits.length : Int) + k
  sign ++ String.ofList (
    if 0 ≤ k then digits ++ zeros k
    else if 0 < point then digits.take point.toNat ++ '.' :: digits.drop point.toNat
    else '0' :: '.' :: (zeros (-point) ++ digits))

end ApiExposure.Binary64
