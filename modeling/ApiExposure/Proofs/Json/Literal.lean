import ApiExposure.Json.Reader
import ApiExposure.Json.Printer
import ApiExposure.Proofs.Json.Canonical
import ApiExposure.Proofs.Text.Digits

/-!
# Literals of written texts

A text is written with escapes that read back as its characters, and an integer
of 64 bits is written as a number that reads back as that integer.
-/

namespace ApiExposure.Json

open ApiExposure.Text

section Strings

variable {c e : Char} {cs rest : List Char} {ps : List Piece}

/-- A character that is written as itself. -/
theorem readPieces_plain (hcontrol : 0x20 ≤ c.toNat) (hquote : c ≠ '"') (hback : c ≠ '\\')
    (cs : List Char) :
    readPieces (c :: cs) = (readPieces cs).map fun r => (.char c :: r.1, r.2) := by
  have hplain : ¬ (c.toNat < 0x20 ∨ c = '\\') := by
    rw [not_or]
    exact ⟨Nat.not_lt.mpr hcontrol, hback⟩
  rw [readPieces.eq_5 c cs hquote (fun _ _ _ _ _ h _ => hback h) (fun _ _ h _ => hback h),
    if_neg hplain]
  cases readPieces cs <;> rfl

/-- A short escape. -/
theorem readPieces_short (hshort : shortEscape? e = some c)
    (h : readPieces cs = some (ps, rest)) :
    readPieces ('\\' :: e :: cs) = some (.char c :: ps, rest) := by
  have hu : e ≠ 'u' := by
    rintro rfl
    cases hshort
  rw [readPieces, hshort, h]
  intros
  simp_all

/-- An escape by number, for numbers of two hexadecimal digits. -/
theorem readPieces_unit {m n : Nat} (hm : m < 16) (hn : n < 16)
    (h : readPieces cs = some (ps, rest)) :
    readPieces ('\\' :: 'u' :: '0' :: '0' :: hexChar m :: hexChar n :: cs) =
      some (.unit (m * 16 + n) :: ps, rest) := by
  have hzero : hexDigit? '0' = some 0 := rfl
  have hunit : codeUnit? '0' '0' (hexChar m) (hexChar n) = some (m * 16 + n) := by
    simp only [codeUnit?, hzero, hexDigit?_hexChar hm, hexDigit?_hexChar hn, Nat.zero_mul,
      Nat.zero_add]
  rw [readPieces, hunit, h]

/-- A character denotes itself. -/
theorem assemble_char (c : Char) (ps : List Piece) :
    assemble (.char c :: ps) = (assemble ps).map (c :: ·) := by
  rw [assemble, denote]
  rfl

/-- A unit below the pairs stands for a character on its own. -/
theorem assemble_unit {n : Nat} (h : n < 0xD800) (ps : List Piece) :
    assemble (.unit n :: ps) = (assemble ps).map (Char.ofNat n :: ·) := by
  have hleading : isLeading n = false := by
    simp only [isLeading, Bool.and_eq_false_iff, decide_eq_false_iff_not]
    omega
  have htrailing : isTrailing n = false := by
    simp only [isTrailing, Bool.and_eq_false_iff, decide_eq_false_iff_not]
    omega
  rcases ps with _ | ⟨c | m, ps⟩ <;> simp [assemble, denote, hleading, htrailing]

/-- One character is written as one piece. -/
theorem exists_piece (c : Char) :
    ∃ p, (∀ {cs rest ps}, readPieces cs = some (ps, rest) →
        readPieces (escapeChar c ++ cs) = some (p :: ps, rest)) ∧
      ∀ ps, assemble (p :: ps) = (assemble ps).map (c :: ·) := by
  have hshort : ∀ {e}, shortEscape? e = some c → escapeChar c = ['\\', e] →
      ∃ p, (∀ {cs rest ps}, readPieces cs = some (ps, rest) →
          readPieces (escapeChar c ++ cs) = some (p :: ps, rest)) ∧
        ∀ ps, assemble (p :: ps) = (assemble ps).map (c :: ·) := by
    intro e he hc
    rw [hc]
    exact ⟨.char c, fun h => readPieces_short he h, assemble_char c⟩
  by_cases hquote : c = '"'
  · exact hshort (e := '"') (by rw [hquote]; rfl) (by rw [hquote]; rfl)
  by_cases hback : c = '\\'
  · exact hshort (e := '\\') (by rw [hback]; rfl) (by rw [hback]; rfl)
  by_cases hcontrol : c.toNat < 0x20
  · by_cases hnamed : c = '\n' ∨ c = '\r' ∨ c = '\t' ∨ c = '\x08' ∨ c = '\x0c'
    · rcases hnamed with h | h | h | h | h
      · exact hshort (e := 'n') (by rw [h]; rfl) (by rw [h]; rfl)
      · exact hshort (e := 'r') (by rw [h]; rfl) (by rw [h]; rfl)
      · exact hshort (e := 't') (by rw [h]; rfl) (by rw [h]; rfl)
      · exact hshort (e := 'b') (by rw [h]; rfl) (by rw [h]; rfl)
      · exact hshort (e := 'f') (by rw [h]; rfl) (by rw [h]; rfl)
    · simp only [not_or] at hnamed
      have hwritten : escapeChar c =
          ['\\', 'u', '0', '0', hexChar (c.toNat / 16), hexChar (c.toNat % 16)] := by
        simp only [escapeChar, hquote, hback, hnamed, hcontrol, if_true, if_false]
      have hnumber : c.toNat / 16 * 16 + c.toNat % 16 = c.toNat := by omega
      refine ⟨.unit c.toNat, fun h => ?_, fun ps => ?_⟩
      · have hunit := readPieces_unit (m := c.toNat / 16) (n := c.toNat % 16) (by omega)
          (by omega) h
        rw [hnumber] at hunit
        rw [hwritten]
        exact hunit
      · rw [assemble_unit (by omega), Char.ofNat_toNat]
  · have hnewline : ∀ d : Char, d.toNat < 0x20 → c ≠ d := by
      rintro d hd rfl
      exact hcontrol hd
    have hwritten : escapeChar c = [c] := by
      simp only [escapeChar, hquote, hback, hcontrol, hnewline '\n' (by decide),
        hnewline '\r' (by decide), hnewline '\t' (by decide), hnewline '\x08' (by decide),
        hnewline '\x0c' (by decide), if_false]
    refine ⟨.char c, fun h => ?_, assemble_char c⟩
    rw [hwritten, List.singleton_append,
      readPieces_plain (Nat.not_lt.mp hcontrol) hquote hback, h, Option.map_some]

/-- A written text reads back, with any continuation behind its closing quote. -/
theorem exists_pieces (text rest : List Char) :
    ∃ ps, readPieces (text.flatMap escapeChar ++ '"' :: rest) = some (ps, rest) ∧
      assemble ps = some text := by
  induction text with
  | nil => exact ⟨[], by rw [List.flatMap_nil, List.nil_append, readPieces], rfl⟩
  | cons c text ih =>
    obtain ⟨ps, hread, hassemble⟩ := ih
    obtain ⟨p, hpiece, hmeaning⟩ := exists_piece c
    refine ⟨p :: ps, ?_, ?_⟩
    · rw [List.flatMap_cons, List.append_assoc]
      exact hpiece hread
    · rw [hmeaning, hassemble, Option.map_some]

/-- A written text is a draft of the text. -/
theorem readString_quoted (text : String) (rest : List Char) :
    readString literal? (text.toList.flatMap escapeChar ++ '"' :: rest) =
      ⟨.str text, some rest⟩ := by
  obtain ⟨ps, hread, hassemble⟩ := exists_pieces text.toList rest
  simp only [readString, literal?, hread, hassemble, Option.map_some, String.ofList_toList]

end Strings

section Numbers

variable {rest : List Char}

/-- What may stand behind a value: nothing, a comma or a closing bracket. -/
def Follows (rest : List Char) : Prop := ∀ c ∈ rest.head?, c = ',' ∨ c = ']' ∨ c = '}'

theorem follows_nil : Follows [] := by
  intro c hc
  cases hc

/-- No digit stands behind a value. -/
theorem Follows.digit? (h : Follows rest) : ∀ c ∈ rest.head?, Text.digit? c = none := by
  intro c hc
  rcases h c hc with rfl | rfl | rfl <;> rfl

/-- No fraction stands behind a whole number. -/
theorem Follows.readFraction (h : Follows rest) : readFraction rest = some (none, rest) := by
  cases rest with
  | nil => rfl
  | cons c rest => rcases h c rfl with rfl | rfl | rfl <;> rfl

theorem Follows.readExponent (h : Follows rest) : readExponent rest = some (none, rest) := by
  cases rest with
  | nil => rfl
  | cons c rest => rcases h c rfl with rfl | rfl | rfl <;> rfl

/-- Digits without a zero in front are a number without fraction and exponent. -/
theorem readMagnitude_digits {cs : List Char} {d n : Nat} {ds : List Nat} (negative : Bool)
    (h : Spells cs (d :: ds) n) (hzero : d = 0 → ds = []) (hrest : Follows rest) :
    readMagnitude negative (cs ++ rest) = some (⟨negative, d :: ds, none, none⟩, rest) := by
  have htake : takeDigits (cs ++ rest) = (d :: ds, rest) := h.takeDigits_append hrest.digit?
  unfold readMagnitude
  split
  · next heq => cases htake.symm.trans heq
  · next heq => cases htake.symm.trans heq; cases hzero rfl
  · next heq =>
    cases htake.symm.trans heq
    simp only [hrest.readFraction, hrest.readExponent, bind, Option.bind]

/-- The text of an integer reads back; within 64 bits as an integer. -/
theorem exists_literal (z : Int) (hrest : Follows rest) :
    ∃ l, readNumber ((toString z).toList ++ rest) = some (l, rest) ∧
      (Word.Holds z → l.draft = .int z) := by
  cases z with
  | ofNat n =>
    obtain ⟨d, ds, hspells, hzero⟩ := exists_spells_toString n
    have hminus : ∀ cs, (toString n).toList ++ rest ≠ '-' :: cs := by
      intro cs heq
      rw [hspells.chars, List.map_cons, List.cons_append] at heq
      have hd : d < 10 := hspells.digits d List.mem_cons_self
      have hdigit := Text.digit?_digitChar hd
      rw [(List.cons.inj heq).1] at hdigit
      cases hdigit
    refine ⟨⟨false, d :: ds, none, none⟩, ?_, fun hholds => ?_⟩
    · have hread := readMagnitude_digits false hspells hzero hrest
      rw [← hread]
      exact readNumber.eq_2 _ hminus
    · have hle : n ≤ Word.greatest := Int.ofNat_le.mp hholds.2
      simp only [NumberLiteral.draft, hspells.value, Bool.false_eq_true, if_false, if_pos hle]
      rfl
  | negSucc n =>
    obtain ⟨d, ds, hspells, hzero⟩ := exists_spells_toString (n + 1)
    refine ⟨⟨true, d :: ds, none, none⟩, ?_, fun hholds => ?_⟩
    · have htext : (toString (Int.negSucc n)).toList = '-' :: (toString (n + 1)).toList := by
        show ("-" ++ toString (n + 1)).toList = _
        rw [String.toList_append]
        rfl
      rw [htext, List.cons_append, readNumber]
      exact readMagnitude_digits true hspells hzero hrest
    · have hvalue : -((n + 1 : Nat) : Int) = Int.negSucc n := rfl
      have hsigned : n + 1 ≠ 0 ∧ Word.isSigned (Int.negSucc n) = true := by
        refine ⟨Nat.succ_ne_zero n, Word.isSigned_iff.mpr ⟨hholds.1, ?_⟩⟩
        have hneg : Int.negSucc n < 0 := Int.negSucc_lt_zero n
        have hgreatest : 0 ≤ Word.greatestSigned := by decide
        omega
      simp only [NumberLiteral.draft, hspells.value, if_true, hvalue, if_pos hsigned]

end Numbers

end ApiExposure.Json
