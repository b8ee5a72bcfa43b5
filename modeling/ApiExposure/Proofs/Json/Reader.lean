import ApiExposure.Json.Reader
import ApiExposure.Proofs.Json.Canonical

/-!
# What a reader gives

A number without fraction and exponent is an integer only where it fits 64
bits, and an array or object below the greatest depth has no value. So whatever
text is read, its draft fits the greatest depth.
-/

namespace ApiExposure.Json

/-- A number is an integer of 64 bits, a double or has no value. -/
theorem NumberLiteral.fits_draft (l : NumberLiteral) (n : Nat) : l.draft.Fits n := by
  unfold NumberLiteral.draft
  extract_lets asDouble
  have hdouble : asDouble.Fits n := by
    unfold asDouble
    split <;> trivial
  split
  · split
    · split
      · next h =>
        have hsigned := Word.isSigned_iff.mp h.2
        have hgreatest : Word.greatestSigned ≤ Word.greatest := by decide
        exact ⟨hsigned.1, hsigned.2.trans hgreatest⟩
      · exact hdouble
    · split
      · next h =>
        have hleast : Word.leastSigned ≤ 0 := by decide
        exact ⟨hleast.trans (Int.natCast_nonneg _), Int.ofNat_le.mpr h⟩
      · exact hdouble
  · exact hdouble

/-- A number fits everywhere, and so does what is none. -/
theorem fits_readNumeral (cs : List Char) (n : Nat) : (readNumeral cs).content.Fits n := by
  unfold readNumeral
  split
  · exact NumberLiteral.fits_draft _ _
  · trivial

/-- An array or object fits as deep as it may have a value. -/
theorem fits_bounded {d : Draft} {depth : Nat}
    (h : depth < deepest → d.Fits (deepest - depth)) :
    (bounded (depth + 1) d).Fits (deepest - depth) := by
  unfold bounded
  split
  · next hdepth => exact h hdepth
  · split <;> trivial

section

variable (text? : List Piece → Option String)

/-- A text fits everywhere. -/
theorem fits_readString (cs : List Char) (n : Nat) : (readString text? cs).content.Fits n := by
  unfold readString
  split
  · trivial
  · split <;> trivial

mutual

/-- A value fits the depth that is left. -/
theorem fits_readValue : (fuel depth : Nat) → (cs : List Char) →
    (readValue text? fuel depth cs).content.Fits (deepest - depth)
  | 0, _, _ => by rw [readValue]; trivial
  | fuel + 1, depth, cs => by
    rw [readValue]
    split
    · trivial
    · trivial
    · trivial
    · exact fits_readString text? _ _
    · next items _ =>
      refine fits_bounded fun hdepth => ⟨by omega, ?_⟩
      rw [Nat.sub_sub]
      exact fits_readItems fuel (depth + 1) true items
    · next members _ =>
      refine fits_bounded fun hdepth => ⟨by omega, ?_⟩
      rw [Nat.sub_sub]
      exact fits_readMembers fuel (depth + 1) true members
    · exact fits_readNumeral _ _

/-- Items fit the depth that is left inside of their array. -/
theorem fits_readItems : (fuel depth : Nat) → (first : Bool) → (cs : List Char) →
    Draft.ItemsFit (readItems text? fuel depth first cs).content.1 (deepest - depth)
  | 0, _, _, _ => by rw [readItems]; trivial
  | fuel + 1, depth, first, cs => by
    rw [readItems]
    split
    · trivial
    · split
      · trivial
      · split
        · trivial
        · exact fits_readItem fuel depth _
    · split
      · exact fits_readItem fuel depth _
      · trivial

/-- An item and those behind it fit the depth that is left. -/
theorem fits_readItem : (fuel depth : Nat) → (cs : List Char) →
    Draft.ItemsFit (readItem text? fuel depth cs).content.1 (deepest - depth)
  | 0, _, _ => by rw [readItem]; trivial
  | fuel + 1, depth, cs => by
    rw [readItem]
    have hitem := fits_readValue fuel depth cs
    dsimp only
    split
    · exact ⟨hitem, trivial⟩
    · exact ⟨hitem, fits_readItems fuel depth false _⟩

/-- Members fit the depth that is left inside of their object. -/
theorem fits_readMembers : (fuel depth : Nat) → (first : Bool) → (cs : List Char) →
    Draft.MembersFit (readMembers text? fuel depth first cs).content.1 (deepest - depth)
  | 0, _, _, _ => by rw [readMembers]; trivial
  | fuel + 1, depth, first, cs => by
    rw [readMembers]
    split
    · trivial
    · split
      · trivial
      · exact fits_readMember fuel depth _
    · split
      · exact fits_readMember fuel depth _
      · trivial

/-- A member and those behind it fit the depth that is left. -/
theorem fits_readMember : (fuel depth : Nat) → (cs : List Char) →
    Draft.MembersFit (readMember text? fuel depth cs).content.1 (deepest - depth)
  | 0, _, _ => by rw [readMember]; trivial
  | fuel + 1, depth, cs => by
    unfold readMember
    split
    · split
      · trivial
      · dsimp only
        split
        · next rest _ =>
          have hvalue := fits_readValue fuel depth rest
          split
          · exact ⟨hvalue, trivial⟩
          · exact ⟨hvalue, fits_readMembers fuel depth false _⟩
        · exact ⟨trivial, trivial⟩
    · trivial

end

end

/-- Whatever a text is, its draft fits the greatest depth. -/
theorem Text.fits_read (text : String) : (Text.read text).draft.Fits deepest := by
  have hvalue := fits_readValue literal? (fuelFor (text : Bytes).list.length) 0 text.toList
  unfold Text.read Text.readFrom
  dsimp only
  split <;> exact hvalue

end ApiExposure.Json
