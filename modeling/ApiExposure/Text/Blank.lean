/-!
# Blank text

A text is blank when it is empty or holds only characters with the Unicode
property `White_Space`. Zero-width characters without that property, such as
the byte order mark, are visible in this sense and make a text non-blank.
-/

namespace ApiExposure.Text

/-- The characters with the Unicode property `White_Space`. -/
def isWhiteSpace (c : Char) : Bool :=
  let n := c.toNat
  (9 ≤ n && n ≤ 13) || n == 0x20 || n == 0x85 || n == 0xA0 || n == 0x1680
    || (0x2000 ≤ n && n ≤ 0x200A) || n == 0x2028 || n == 0x2029 || n == 0x202F
    || n == 0x205F || n == 0x3000

/-- Empty, or white space only. -/
def isBlank (text : String) : Bool := text.toList.all isWhiteSpace

/-- Two texts in a row are blank when both are. -/
theorem isBlank_append (s t : String) : isBlank (s ++ t) = (isBlank s && isBlank t) := by
  rw [isBlank, String.toList_append, List.all_append, isBlank, isBlank]

/-- Drops leading white space. -/
def trimLeft (cs : List Char) : List Char := cs.dropWhile isWhiteSpace

end ApiExposure.Text
