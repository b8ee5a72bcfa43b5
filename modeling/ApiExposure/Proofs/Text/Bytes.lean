import ApiExposure.Text.Bytes

/-!
# The bytes of a text

The bytes of a text are UTF-8 and give the text back. Each character has at least one
of them, so that what takes bytes away from a text takes characters away.
-/

namespace ApiExposure.Text

/-- The bytes of a text are UTF-8 of that text. -/
theorem utf8?_flatMap_bytesOf (cs : List Char) :
    utf8? (cs.flatMap bytesOf) = some (String.ofList cs) := by
  have hcode : (⟨(cs.flatMap bytesOf).toArray⟩ : ByteArray) = (String.ofList cs).toByteArray := by
    rw [String.toByteArray_ofList, List.utf8Encode]
    exact ByteArray.ext List.data_toByteArray.symm
  rw [utf8?, hcode, String.fromUTF8?, dif_pos (String.ofList cs).isValidUTF8]
  rfl

/-- Number of bytes of a text. -/
def byteLength (cs : List Char) : Nat := (cs.flatMap bytesOf).length

@[simp] theorem byteLength_cons (c : Char) (cs : List Char) :
    byteLength (c :: cs) = (bytesOf c).length + byteLength cs := by
  simp [byteLength]

@[simp] theorem byteLength_append (cs ds : List Char) :
    byteLength (cs ++ ds) = byteLength cs + byteLength ds := by
  simp [byteLength]

/-- A character has at least one byte. -/
theorem length_bytesOf_pos (c : Char) : 0 < (bytesOf c).length := by
  rw [bytesOf, String.length_utf8EncodeChar]
  exact c.utf8Size_pos

/-- A text has no more characters than bytes. -/
theorem length_le_byteLength (cs : List Char) : cs.length ≤ byteLength cs := by
  induction cs with
  | nil => exact Nat.le_refl 0
  | cons c cs ih =>
    have hpos := length_bytesOf_pos c
    rw [List.length_cons, byteLength_cons]
    omega

/-- A text without bytes is empty. -/
theorem eq_nil_of_byteLength {cs : List Char} (h : byteLength cs = 0) : cs = [] :=
  List.length_eq_zero_iff.mp (Nat.eq_zero_of_le_zero (h ▸ length_le_byteLength cs))

/-- What is read as UTF-8 has as many bytes as were read. -/
theorem byteLength_of_utf8? {bytes : List UInt8} {t : String} (h : utf8? bytes = some t) :
    bytes.length = byteLength t.toList := by
  rw [utf8?, String.fromUTF8?] at h
  split at h
  · next hvalid =>
    have hcode : t.toList.utf8Encode = ⟨bytes.toArray⟩ := by
      rw [← Option.some.inj h, String.utf8Encode_toList]
      rfl
    have hbytes := congrArg (fun b : ByteArray => b.data.toList) hcode
    rw [List.utf8Encode, List.data_toByteArray] at hbytes
    exact congrArg List.length hbytes.symm
  · cases h

/-- Two texts of the same length that begin the same texts are the same. -/
theorem append_inj_of_byteLength {cs ds rest more : List Char} (h : cs ++ rest = ds ++ more)
    (hlength : byteLength cs = byteLength ds) : cs = ds ∧ rest = more := by
  rcases List.append_eq_append_iff.mp h with ⟨lead, rfl, rfl⟩ | ⟨lead, rfl, rfl⟩ <;>
  · rw [byteLength_append] at hlength
    obtain rfl : lead = [] := eq_nil_of_byteLength (by omega)
    simp

end ApiExposure.Text
