import ApiExposure.Text.Bytes
import ApiExposure.Text.Digit

/-!
# Percent escapes

A percent sign and two hexadecimal digits stand for one byte. A percent sign
without two such digits behind it stands for itself. Decoding gives bytes;
whether they are UTF-8 is a second question.
-/

namespace ApiExposure.Text

/-- Replaces escapes by their bytes. -/
def percentBytes : List Char → List UInt8
  | [] => []
  | '%' :: a :: b :: cs =>
    match hexDigit? a, hexDigit? b with
    | some x, some y => UInt8.ofNat (x * 16 + y) :: percentBytes cs
    | _, _ => bytesOf '%' ++ percentBytes (a :: b :: cs)
  | c :: cs => bytesOf c ++ percentBytes cs

end ApiExposure.Text
