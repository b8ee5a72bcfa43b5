/-!
# Digits

Values of decimal and hexadecimal digit characters, the value of a run of
decimal digits, and the split of a text at the end of such a run.
-/

namespace ApiExposure.Text

/-- The value of a decimal digit. -/
def digit? (c : Char) : Option Nat :=
  if '0' ≤ c ∧ c ≤ '9' then some (c.toNat - 48) else none

/-- The value of a hexadecimal digit of either case. -/
def hexDigit? (c : Char) : Option Nat :=
  if '0' ≤ c ∧ c ≤ '9' then some (c.toNat - 48)
  else if 'a' ≤ c ∧ c ≤ 'f' then some (c.toNat - 87)
  else if 'A' ≤ c ∧ c ≤ 'F' then some (c.toNat - 55)
  else none

/-- A decimal digit is below ten. -/
theorem digit?_lt {c : Char} {d : Nat} (h : digit? c = some d) : d < 10 := by
  unfold digit? at h
  split at h
  · next hc =>
    have h9 : c.toNat ≤ '9'.toNat := Char.le_def.1 hc.2
    have : '9'.toNat = 57 := rfl
    simp only [Option.some.injEq] at h
    omega
  · simp at h

/-- A hexadecimal digit is below sixteen. -/
theorem hexDigit?_lt {c : Char} {d : Nat} (h : hexDigit? c = some d) : d < 16 := by
  have e9 : '9'.toNat = 57 := rfl
  have ef : 'f'.toNat = 102 := rfl
  have eF : 'F'.toNat = 70 := rfl
  unfold hexDigit? at h
  split at h
  · next hc =>
    have : c.toNat ≤ '9'.toNat := Char.le_def.1 hc.2
    simp only [Option.some.injEq] at h
    omega
  · split at h
    · next hc =>
      have : c.toNat ≤ 'f'.toNat := Char.le_def.1 hc.2
      simp only [Option.some.injEq] at h
      omega
    · split at h
      · next hc =>
        have : c.toNat ≤ 'F'.toNat := Char.le_def.1 hc.2
        simp only [Option.some.injEq] at h
        omega
      · simp at h

/-- The longest run of decimal digits in front, as values, and the rest. -/
def takeDigits : List Char → List Nat × List Char
  | [] => ([], [])
  | c :: cs =>
    match digit? c with
    | some d => let (ds, rest) := takeDigits cs; (d :: ds, rest)
    | none => ([], c :: cs)

/-- The number that a run of digits denotes in the given base, most significant first. -/
def valueOf (base : Nat) (digits : List Nat) : Nat :=
  digits.foldl (fun n d => n * base + d) 0

/-- The value of a text that consists of decimal digits, at least one. -/
def decimal? (cs : List Char) : Option Nat :=
  match takeDigits cs with
  | ([], _) => none
  | (ds, []) => some (valueOf 10 ds)
  | (_, _ :: _) => none

/-- The character of a hexadecimal digit in lower case. -/
def hexChar (d : Nat) : Char := Char.ofNat (if d < 10 then 48 + d else 87 + d)

/-- A number in decimal, padded with zeros on the left to the given width. -/
def padded (width n : Nat) : String :=
  let text := toString n
  String.ofList (List.replicate (width - text.length) '0') ++ text

end ApiExposure.Text
