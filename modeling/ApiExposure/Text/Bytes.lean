/-!
# Bytes of texts

Texts travel as bytes in UTF-8. Not all bytes are those of a text: some readers
then find none, and others put a replacement character for each part that is no
UTF-8.
-/

namespace ApiExposure

/-- Bytes, which need not be those of a text. -/
structure Bytes where
  /-- The bytes in order. -/
  list : List UInt8
  deriving DecidableEq, Repr, Inhabited

namespace Text

/-- The bytes of a character. -/
def bytesOf (c : Char) : List UInt8 := String.utf8EncodeChar c

/-- The bytes of a text. -/
def toBytes (text : String) : Bytes := ⟨text.toList.flatMap bytesOf⟩

instance : Coe String Bytes := ⟨toBytes⟩

/-- The text of bytes that are UTF-8. -/
def utf8? (bytes : List UInt8) : Option String := String.fromUTF8? ⟨bytes.toArray⟩

/-- The length of the longest well-formed character in front, or zero. -/
def leadingWidth (bytes : List UInt8) : Nat :=
  match [1, 2, 3, 4].find? (fun n => n ≤ bytes.length && (utf8? (bytes.take n)).isSome) with
  | some n => n
  | none => 0

/-- The length of the part in front that begins a character but does not end one, at least one
byte: it is replaced by a single replacement character. -/
def brokenWidth (bytes : List UInt8) : Nat :=
  match bytes with
  | [] => 1
  | a :: rest =>
    let continues := fun (b : UInt8) => 0x80 ≤ b && b ≤ 0xBF
    let second := fun (b : UInt8) =>
      if a == 0xE0 then 0xA0 ≤ b && b ≤ 0xBF
      else if a == 0xED then 0x80 ≤ b && b ≤ 0x9F
      else if a == 0xF0 then 0x90 ≤ b && b ≤ 0xBF
      else if a == 0xF4 then 0x80 ≤ b && b ≤ 0x8F
      else continues b
    let most := if 0xE0 ≤ a && a ≤ 0xEF then 2 else if 0xF0 ≤ a && a ≤ 0xF4 then 3 else 1
    match rest with
    | b :: more =>
      if most ≥ 2 && second b then
        1 + min (most - 1) (1 + (more.takeWhile continues).length)
      else 1
    | [] => 1

/-- The text of bytes, with a replacement character for each part that is no UTF-8. The fuel
bounds the bytes left. -/
def lossyChars : Nat → List UInt8 → List Char
  | 0, _ => []
  | _, [] => []
  | fuel + 1, bytes =>
    match leadingWidth bytes with
    | 0 => '\uFFFD' :: lossyChars fuel (bytes.drop (brokenWidth bytes))
    | n => ((utf8? (bytes.take n)).getD "").toList ++ lossyChars fuel (bytes.drop n)

/-- The text of any bytes. -/
def lossy (bytes : List UInt8) : String :=
  match utf8? bytes with
  | some text => text
  | none => String.ofList (lossyChars bytes.length bytes)

end Text

end ApiExposure
