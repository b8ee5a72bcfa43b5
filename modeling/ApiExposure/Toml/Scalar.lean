import ApiExposure.Settings.Value
import ApiExposure.Toml.DateTime

/-!
# Scalars of TOML

Strings in four spellings, numbers in four bases, truth values, dates and times.
A date or time is a text in its canonical spelling.
-/

namespace ApiExposure.Toml

open Text

/-- Blanks within a line. -/
def isBlankChar (c : Char) : Bool := c == ' ' || c == '\t'

/-- Drops blanks within a line. -/
def skipBlanks (cs : List Char) : List Char := cs.dropWhile isBlankChar

/-- Characters that may not stand in a string or a comment. -/
def isControl (c : Char) : Bool := (c.toNat < 0x20 && c != '\t') || c.toNat == 0x7f

/-- A line end in front. -/
def lineEnd? : List Char → Option (List Char)
  | '\n' :: cs => some cs
  | '\r' :: '\n' :: cs => some cs
  | _ => none

/-- The character of a number of hexadecimal digits. -/
def scalarValue? (width : Nat) (cs : List Char) : Option (Char × List Char) := do
  let digits ← (cs.take width).mapM hexDigit?
  let n := valueOf 16 digits
  if digits.length = width ∧ n.isValidChar then some (Char.ofNat n, cs.drop width) else none

/-- The character of an escape, behind its backslash. -/
def escape? : List Char → Option (Char × List Char)
  | 'b' :: cs => some ('\x08', cs)
  | 't' :: cs => some ('\t', cs)
  | 'n' :: cs => some ('\n', cs)
  | 'f' :: cs => some ('\x0c', cs)
  | 'r' :: cs => some ('\r', cs)
  | '"' :: cs => some ('"', cs)
  | '\\' :: cs => some ('\\', cs)
  | 'u' :: cs => scalarValue? 4 cs
  | 'U' :: cs => scalarValue? 8 cs
  | _ => none

/-- The rest of a string with escapes on one line. The fuel bounds the characters left. -/
def basic? : Nat → List Char → Option (List Char × List Char)
  | 0, _ => none
  | fuel + 1, cs =>
    match cs with
    | [] => none
    | '"' :: cs => some ([], cs)
    | '\\' :: cs => do
      let (c, cs) ← escape? cs
      let (text, rest) ← basic? fuel cs
      some (c :: text, rest)
    | c :: cs =>
      if isControl c then none
      else (basic? fuel cs).map (fun (text, rest) => (c :: text, rest))

/-- Drops blanks and line ends. The fuel bounds the characters left. -/
def skipEmptyLines : Nat → List Char → List Char
  | 0, cs => cs
  | fuel + 1, cs =>
    match lineEnd? (skipBlanks cs) with
    | some rest => skipEmptyLines fuel rest
    | none => skipBlanks cs

/-- Blanks and line ends behind a backslash at the end of a line. -/
def joinLines? (cs : List Char) : Option (List Char) :=
  (lineEnd? (skipBlanks cs)).map (fun rest => skipEmptyLines rest.length rest)

/-- The closing quotes of a string of several lines: three, of which up to two more belong to
the text. -/
def closing? (quote : Char) (cs : List Char) : Option (List Char × List Char) :=
  let n := (cs.takeWhile (· == quote)).length
  if n < 3 then none
  else
    let n := min n 5
    some (List.replicate (n - 3) quote, cs.drop n)

/-- The rest of a string with escapes on several lines. The fuel bounds the characters left. -/
def basicLines? : Nat → List Char → Option (List Char × List Char)
  | 0, _ => none
  | fuel + 1, cs =>
    match closing? '"' cs with
    | some closed => some closed
    | none =>
      match cs with
      | [] => none
      | '\\' :: cs =>
        match joinLines? cs with
        | some cs => basicLines? fuel cs
        | none => do
          let (c, cs) ← escape? cs
          let (text, rest) ← basicLines? fuel cs
          some (c :: text, rest)
      | c :: cs =>
        match lineEnd? (c :: cs) with
        | some rest => (basicLines? fuel rest).map (fun (text, rest) => ('\n' :: text, rest))
        | none =>
          if isControl c then none
          else (basicLines? fuel cs).map (fun (text, rest) => (c :: text, rest))

/-- The rest of a string without escapes on one line. -/
def literal? (cs : List Char) : Option (List Char × List Char) :=
  match cs.dropWhile (fun c => c != '\'' && !isControl c) with
  | '\'' :: rest => some (cs.takeWhile (fun c => c != '\'' && !isControl c), rest)
  | _ => none

/-- The rest of a string without escapes on several lines. The fuel bounds the characters
left. -/
def literalLines? : Nat → List Char → Option (List Char × List Char)
  | 0, _ => none
  | fuel + 1, cs =>
    match closing? '\'' cs with
    | some closed => some closed
    | none =>
      match cs with
      | [] => none
      | c :: cs =>
        match lineEnd? (c :: cs) with
        | some rest => (literalLines? fuel rest).map (fun (text, rest) => ('\n' :: text, rest))
        | none =>
          if isControl c then none
          else (literalLines? fuel cs).map (fun (text, rest) => (c :: text, rest))

/-- Drops a line end in front, if there is one. -/
def skipLineEnd (cs : List Char) : List Char := (lineEnd? cs).getD cs

/-- A string of one line. -/
def line? (cs : List Char) : Option (String × List Char) :=
  let found := match cs with
    | '"' :: cs => basic? (cs.length + 1) cs
    | '\'' :: cs => literal? cs
    | _ => none
  found.map (fun (text, rest) => (String.ofList text, rest))

/-- A string in any spelling. -/
def string? (cs : List Char) : Option (String × List Char) :=
  match cs with
  | '"' :: '"' :: '"' :: cs =>
    (basicLines? (cs.length + 1) (skipLineEnd cs)).map
      (fun (text, rest) => (String.ofList text, rest))
  | '\'' :: '\'' :: '\'' :: cs =>
    (literalLines? (cs.length + 1) (skipLineEnd cs)).map
      (fun (text, rest) => (String.ofList text, rest))
  | cs => line? cs

/-- Digits of a number, where single underscores may stand between digits. -/
def spacedDigits? (digit : Char → Option Nat) : List Char → Option (List Nat)
  | [] => none
  | [c] => (digit c).map ([·])
  | c :: '_' :: cs => do
    let d ← digit c
    let ds ← spacedDigits? digit cs
    some (d :: ds)
  | c :: cs => do
    let d ← digit c
    let ds ← spacedDigits? digit cs
    some (d :: ds)

/-- A digit below a base. -/
def digitBelow? (base : Nat) (c : Char) : Option Nat := (hexDigit? c).filter (· < base)

/-- Whole digits without a leading zero. -/
def whole? (cs : List Char) : Option (List Nat) :=
  match spacedDigits? digit? cs with
  | some (0 :: _ :: _) => none
  | ds => ds

/-- A number in 64 bits with sign. -/
def word? (n : Int) : Option Setting := if Word.isSigned n then some (.whole n) else none

/-- The part of a number before a character, and the part behind it. -/
def cutAt (stop : Char → Bool) (cs : List Char) : List Char × Option (List Char) :=
  match cs.dropWhile (fun c => !stop c) with
  | [] => (cs, none)
  | _ :: rest => (cs.takeWhile (fun c => !stop c), some rest)

/-- A decimal number with a fraction or an exponent. One that is too great is refused, one that
is too small below zero is an infinity. -/
def double? (negative : Bool) (cs : List Char) : Option Setting := do
  let (mantissa, exponent) := cutAt (fun c => c == 'e' || c == 'E') cs
  let (whole, fraction) := cutAt (· == '.') mantissa
  let whole ← whole? whole
  let fraction ← match fraction with
    | none => some []
    | some cs => spacedDigits? digit? cs
  let exponent : Int ← match exponent with
    | none => some (0 : Int)
    | some ('-' :: cs) => (spacedDigits? digit? cs).map (fun ds => -((valueOf 10 ds : Nat) : Int))
    | some ('+' :: cs) => (spacedDigits? digit? cs).map (fun ds => ((valueOf 10 ds : Nat) : Int))
    | some cs => (spacedDigits? digit? cs).map (fun ds => ((valueOf 10 ds : Nat) : Int))
  let digits := valueOf 10 (whole ++ fraction)
  match Extended.ofDecimal negative digits (exponent - fraction.length) with
  | .infinite false => none
  | x => some (.real x)

/-- A decimal number behind its sign. -/
def unsigned? (negative : Bool) (cs : List Char) : Option Setting :=
  if cs = "inf".toList then some (.real (.infinite negative))
  else if cs = "nan".toList then some (.real .undefined)
  else
    match whole? cs with
    | some ds =>
      let n : Int := (valueOf 10 ds : Nat)
      word? (if negative then -n else n)
    | none => if cs.any (fun c => c == '.' || c == 'e' || c == 'E') then double? negative cs else none

/-- A number. -/
def number? (cs : List Char) : Option Setting :=
  let based := fun (base : Nat) (cs : List Char) =>
    (spacedDigits? (digitBelow? base) cs).bind (fun ds => word? ((valueOf base ds : Nat) : Int))
  match cs with
  | '0' :: 'x' :: cs => based 16 cs
  | '0' :: 'o' :: cs => based 8 cs
  | '0' :: 'b' :: cs => based 2 cs
  | '+' :: cs => unsigned? false cs
  | '-' :: cs => unsigned? true cs
  | cs => unsigned? false cs

/-- Characters of words that are no strings and no dates. -/
def isWordChar (c : Char) : Bool :=
  c.isAlphanum || c == '+' || c == '-' || c == '_' || c == '.'

/-- A truth value or a number. -/
def word (cs : List Char) : Option (Setting × List Char) :=
  let token := cs.takeWhile isWordChar
  let value :=
    if token = "true".toList then some (.truth true)
    else if token = "false".toList then some (.truth false)
    else number? token
  value.map (·, cs.dropWhile isWordChar)

/-- A scalar. -/
def scalar? (cs : List Char) : Option (Setting × List Char) :=
  match string? cs with
  | some (text, rest) => some (.text text, rest)
  | none =>
    match dateTime? cs with
    | some (text, rest) => some (.text text, rest)
    | none => word cs

end ApiExposure.Toml
