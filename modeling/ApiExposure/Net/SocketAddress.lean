import ApiExposure.Text.Digit

/-!
# Socket addresses

A socket address is a version 4 or version 6 address with a port. Reading
accepts every usual way to write it; writing uses one form: decimal bytes, or
hexadecimal pieces in lower case with the first longest run of two zero pieces
or more written as two colons.
-/

namespace ApiExposure

/-- An address to listen on. -/
inductive SocketAddress where
  /-- Four bytes and a port. -/
  | v4 (bytes : List Nat) (port : Nat)
  /-- Eight pieces of 16 bits, a scope and a port. -/
  | v6 (pieces : List Nat) (scope : Nat) (port : Nat)
  deriving DecidableEq, Repr, Inhabited

namespace SocketAddress

open Text

/-- A byte of a version 4 address: at most three digits, no leading zero. -/
def byte? (cs : List Char) : Option (Nat × List Char) :=
  match (takeDigits cs).1.take 3 with
  | [] => none
  | 0 :: _ :: _ => none
  | ds => if valueOf 10 ds ≤ 255 then some (valueOf 10 ds, cs.drop ds.length) else none

/-- A given character. -/
def mark? (c : Char) : List Char → Option (List Char)
  | d :: rest => if d = c then some rest else none
  | [] => none

/-- Four bytes with points between them. -/
def bytes? (cs : List Char) : Option (List Nat × List Char) := do
  let (a, cs) ← byte? cs
  let (b, cs) ← byte? (← mark? '.' cs)
  let (c, cs) ← byte? (← mark? '.' cs)
  let (d, cs) ← byte? (← mark? '.' cs)
  some ([a, b, c, d], cs)

/-- A decimal number below a bound, which may have leading zeros. -/
def numberBelow? (bound : Nat) (cs : List Char) : Option (Nat × List Char) :=
  match takeDigits cs with
  | ([], _) => none
  | (ds, rest) => if valueOf 10 ds < bound then some (valueOf 10 ds, rest) else none

/-- A piece of one to four hexadecimal digits. -/
def piece? (cs : List Char) : Option (Nat × List Char) :=
  match ((cs.take 4).map hexDigit?).takeWhile Option.isSome with
  | [] => none
  | ds => some (valueOf 16 (ds.filterMap id), cs.drop ds.length)

/-- At most `room` pieces with colons between them; the last two may be written as a version 4
address. Also tells whether they were. `first` is false behind another piece. -/
def pieces : Nat → Bool → List Char → (List Nat × Bool) × List Char
  | 0, _, cs => (([], false), cs)
  | room + 1, first, cs =>
    match if first then some cs else mark? ':' cs with
    | none => (([], false), cs)
    | some body =>
      match if 1 ≤ room then bytes? body else none with
      | some ([a, b, c, d], rest) => (([a * 256 + b, c * 256 + d], true), rest)
      | _ =>
        match piece? body with
        | none => (([], false), cs)
        | some (p, rest) =>
          let ((ps, dotted), rest) := pieces room false rest
          ((p :: ps, dotted), rest)

/-- The eight pieces of a version 6 address. -/
def pieces6? (cs : List Char) : Option (List Nat × List Char) :=
  match pieces 8 true cs with
  | ((front, dotted), rest) =>
    if front.length = 8 then some (front, rest)
    else if dotted then none
    else
      match rest with
      | ':' :: ':' :: rest =>
        let ((back, _), rest) := pieces (7 - front.length) true rest
        some (front ++ List.replicate (8 - front.length - back.length) 0 ++ back, rest)
      | _ => none

/-- The port behind a colon, with nothing behind it. -/
def port? (cs : List Char) : Option Nat := do
  let (port, rest) ← numberBelow? 65536 (← mark? ':' cs)
  if rest.isEmpty then some port else none

/-- Reads a version 4 socket address. -/
def read4? (cs : List Char) : Option SocketAddress := do
  let (bytes, cs) ← bytes? cs
  let port ← port? cs
  some (.v4 bytes port)

/-- Reads a version 6 socket address. -/
def read6? (cs : List Char) : Option SocketAddress := do
  let (ps, cs) ← pieces6? (← mark? '[' cs)
  let (scope, cs) ← match cs with
    | '%' :: cs => numberBelow? UInt32.size cs
    | cs => some (0, cs)
  let port ← port? (← mark? ']' cs)
  some (.v6 ps scope port)

/-- Reads a socket address. -/
def read? (text : String) : Option SocketAddress :=
  match read4? text.toList with
  | some a => some a
  | none => read6? text.toList

/-- A number in hexadecimal, in lower case and without leading zeros. -/
def hexText (n : Nat) : String := String.ofList (Nat.toDigits 16 n)

/-- Start and length of the first longest run of zeros. -/
def longestZeros : List Nat → Nat → Nat → Nat → Nat → Nat × Nat
  | [], _, _, start, size => (start, size)
  | p :: ps, at_, run, start, size =>
    if p = 0 then
      let run := run + 1
      if run > size then longestZeros ps (at_ + 1) run (at_ + 1 - run) run
      else longestZeros ps (at_ + 1) run start size
    else longestZeros ps (at_ + 1) 0 start size

/-- The text of eight pieces. -/
def text6 (ps : List Nat) : String :=
  let joined := fun (ps : List Nat) => ":".intercalate (ps.map hexText)
  match ps with
  | [0, 0, 0, 0, 0, 0xffff, a, b] =>
    "::ffff:" ++ ".".intercalate ([a / 256, a % 256, b / 256, b % 256].map toString)
  | ps =>
    match longestZeros ps 0 0 0 0 with
    | (start, size) =>
      if size > 1 then joined (ps.take start) ++ "::" ++ joined (ps.drop (start + size))
      else joined ps

/-- The written form. -/
def text : SocketAddress → String
  | .v4 bytes port => ".".intercalate (bytes.map toString) ++ ":" ++ toString port
  | .v6 ps scope port =>
    "[" ++ text6 ps ++ (if scope = 0 then "" else "%" ++ toString scope) ++ "]:" ++ toString port

end SocketAddress

end ApiExposure
