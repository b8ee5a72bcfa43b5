/-!
# Bounds of 64-bit integers

Formats and settings take integers of 64 bits, with or without a sign. The
bounds are stated once here; every reader compares with them.
-/

namespace ApiExposure.Word

/-- Greatest integer of 64 bits without a sign. -/
def greatest : Nat := 18446744073709551615

/-- Least integer of 64 bits with a sign. -/
def leastSigned : Int := -9223372036854775808

/-- Greatest integer of 64 bits with a sign. -/
def greatestSigned : Int := 9223372036854775807

/-- Whether an integer fits 64 bits with a sign. -/
def isSigned (n : Int) : Bool := leastSigned ≤ n && n ≤ greatestSigned

/-- A signed integer lies between the least and the greatest one. -/
theorem isSigned_iff {n : Int} : isSigned n = true ↔ leastSigned ≤ n ∧ n ≤ greatestSigned := by
  simp [isSigned]

end ApiExposure.Word
