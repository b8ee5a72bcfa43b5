import ApiExposure.Json.Form

/-!
# Feature masks

A mask is written as hexadecimal digits, most significant first, and each digit
stands for four features. Masks of different width are compared aligned at
their last digit; digits that a mask does not spell out are zero.
-/

namespace ApiExposure

/-- Whether a text is spelled with hexadecimal digits only. The empty text is. -/
def isHexText (text : String) : Bool := text.toList.all (fun c => (Text.hexDigit? c).isSome)

/-- A mask of supported features. -/
structure Features where
  /-- The mask as written. -/
  text : String
  /-- Only hexadecimal digits occur. -/
  isHex : isHexText text = true
  deriving DecidableEq, Repr

namespace Features

instance : Inhabited Features := ⟨⟨"", rfl⟩⟩

/-- Reads a mask. -/
def parse? (text : String) : Option Features :=
  if h : isHexText text = true then some ⟨text, h⟩ else none

/-- The message for a text that is no mask. -/
def rejection (text : String) : String :=
  "Invalid supported features '" ++ text ++ "': expected hexadecimal digits"

/-- Digit values, most significant first. -/
def nibbles (f : Features) : List Nat := f.text.toList.filterMap Text.hexDigit?

/-- Whether no feature is set. -/
def isEmpty (f : Features) : Bool := f.nibbles.all (· == 0)

/-- The digit at a position of the mask widened on the left with zeros. -/
def nibbleAt (nibbles : List Nat) (width position : Nat) : Nat :=
  let pad := width - nibbles.length
  if position < pad then 0 else nibbles.getD (position - pad) 0

/-- Whether every requested feature is advertised. -/
def covers (advertised requested : Features) : Bool :=
  let have_ := advertised.nibbles
  let want := requested.nibbles
  let width := max have_.length want.length
  (List.range width).all (fun position =>
    nibbleAt want width position &&& (15 ^^^ nibbleAt have_ width position) == 0)

/-- Reads a mask from JSON. -/
def decode : Decoder Features := Decoder.parsed parse?

/-- The JSON form. -/
def toJson (f : Features) : Json := .str f.text

instance : JsonForm Features := ⟨decode, toJson⟩

/-- A mask is read back from its text. -/
theorem parse?_text (f : Features) : parse? f.text = some f := by
  simp [parse?, f.isHex]

/-- Features are read back from their form. -/
theorem decode_toJson (f : Features) : decode (Draft.ofJson f.toJson) = .ok f := by
  simp [decode, Decoder.parsed, Decoder.text, toJson, Draft.ofJson, parse?_text, bind,
    Except.bind]

/-- Any text of hexadecimal digits is a mask, also the empty one. -/
theorem parse?_isSome_iff {text : String} :
    (parse? text).isSome = true ↔ ∀ c ∈ text.toList, (Text.hexDigit? c).isSome = true := by
  unfold parse?
  split
  · next h => simpa [isHexText] using h
  · next h => simpa [isHexText] using h

end Features

end ApiExposure
