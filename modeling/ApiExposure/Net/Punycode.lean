import ApiExposure.Text.Blank
import ApiExposure.Text.Digit

/-!
# Labels in ASCII

A label with characters beyond ASCII can be written in ASCII: its ASCII
characters come first, and behind the last hyphen numbers say which other
characters go where. The numbers are spelled in digits of a varying base, which
adapts to the numbers before.
-/

namespace ApiExposure.Net.Punycode

/-- The value of a digit: letters of either case, then decimal digits. -/
def digit? (c : Char) : Option Nat :=
  if 'a' ≤ c ∧ c ≤ 'z' then some (c.toNat - 97)
  else if 'A' ≤ c ∧ c ≤ 'Z' then some (c.toNat - 65)
  else if '0' ≤ c ∧ c ≤ '9' then some (c.toNat - 22)
  else none

/-- The digits below this value end a number at some place. -/
def threshold (bias place : Nat) : Nat :=
  if place ≤ bias then 1 else if bias + 26 ≤ place then 26 else place - bias

/-- Divides a distance until it is small. The result counts the divisions in places. -/
def shrink (distance places : Nat) : Nat :=
  if 455 < distance then shrink (distance / 35) (places + 36)
  else places + 36 * distance / (distance + 38)
termination_by distance
decreasing_by omega

/-- The bias after a number that put a label at some length. -/
def adapt (distance length : Nat) (first : Bool) : Nat :=
  let distance := if first then distance / 700 else distance / 2
  shrink (distance + distance / length) 0

/-- Greatest number that is read. -/
def greatest : Nat := 4294967295

/-- Reads a number that is added to `sum`, least significant digit first, and gives what follows
it. -/
def number? (bias : Nat) : List Char → Nat → Nat → Nat → Option (Nat × List Char)
  | [], _, _, _ => none
  | c :: cs, place, weight, sum =>
    match digit? c with
    | none => none
    | some d =>
      let sum := sum + d * weight
      if greatest < sum then none
      else if d < threshold bias place then some (sum, cs)
      else
        let weight := weight * (36 - threshold bias place)
        if greatest < weight then none else number? bias cs (place + 36) weight sum

/-- A number is not empty: what follows it is shorter. -/
theorem number?_shorter {bias : Nat} {cs rest : List Char} {place weight sum n : Nat}
    (h : number? bias cs place weight sum = some (n, rest)) : rest.length < cs.length := by
  induction cs generalizing place weight sum with
  | nil => simp [number?] at h
  | cons c cs ih =>
    simp only [number?] at h
    split at h
    · simp at h
    · split at h
      · simp at h
      · split at h
        · simp only [Option.some.injEq, Prod.mk.injEq] at h
          simp [h.2]
        · split at h
          · simp at h
          · have := ih h
            simp only [List.length_cons]
            omega

/-- Puts the characters that the numbers tell into a label. The next character goes to `place` or
further, and is no less than `point`. -/
def insertAll (cs : List Char) (point place bias : Nat) (first : Bool) (label : List Char) :
    Option (List Char) :=
  match cs with
  | [] => some label
  | c :: cs =>
    match _h : number? bias (c :: cs) 36 1 place with
    | none => none
    | some (n, rest) =>
      let length := label.length + 1
      let next := point + n / length
      if next.isValidChar then
        insertAll rest next (n % length + 1) (adapt (n - place) length first) false
          (label.insertIdx (n % length) (Char.ofNat next))
      else none
termination_by cs.length
decreasing_by exact number?_shorter (by assumption)

/-- The label that an ASCII text spells. -/
def decode? (text : List Char) : Option (List Char) :=
  let numbers := (text.reverse.takeWhile (· != '-')).reverse
  let plain := text.take (text.length - numbers.length - 1)
  if text.contains '-' && plain.isEmpty then none else insertAll numbers 128 0 72 true plain

end ApiExposure.Net.Punycode
