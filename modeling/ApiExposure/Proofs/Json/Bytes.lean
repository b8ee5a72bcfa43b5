import ApiExposure.Proofs.Json.Literal
import ApiExposure.Proofs.Text.Bytes

/-!
# Reading the bytes of a text

The bytes of a text are read as the text is. A character of one byte stands for itself
among the bytes, and outside of literals JSON looks for no other characters. The bytes
of every other character are high: no blank, digit, mark or letter of the syntax is one,
so they end up in a literal as they are, or they break the text where the character
does. In a literal they are put together again.
-/

namespace ApiExposure.Json

open ApiExposure.Text

/-- The bytes of a character, each in the place of a character. -/
def spreadChar (c : Char) : List Char := (bytesOf c).map byteChar

/-- The bytes of a text, each in the place of a character. -/
def spread (cs : List Char) : List Char := cs.flatMap spreadChar

/-- Neither a character of one byte nor such a byte. -/
def High (c : Char) : Prop := 0x80 ≤ c.toNat

instance : DecidablePred High := fun c => inferInstanceAs (Decidable (0x80 ≤ c.toNat))

section Bytes

variable {c d : Char} {cs rest : List Char}

/-- A byte in the place of a character is found by its number. -/
theorem toNat_byteChar (b : UInt8) : (byteChar b).toNat = b.toNat := by
  have hlt : b.toNat < 256 := b.toNat_lt
  have hvalid : b.toNat.isValidChar := .inl (by omega)
  rw [byteChar, Char.ofNat, dif_pos hvalid]
  rfl

/-- The byte in the place of a character is found again. -/
theorem charByte_byteChar (b : UInt8) : charByte (byteChar b) = b := by
  rw [charByte, toNat_byteChar, UInt8.ofNat_toNat]

/-- A character that is not high is its only byte. -/
theorem spreadChar_of_not_high (h : ¬ High c) : spreadChar c = [c] := by
  have hlt : c.toNat < 0x80 := Nat.not_le.mp h
  have hbytes : bytesOf c = [UInt8.ofNat c.toNat] := by
    rw [bytesOf, String.utf8EncodeChar]
    exact if_pos (Nat.le_of_lt_succ hlt)
  have hnumber : (UInt8.ofNat c.toNat).toNat = c.toNat :=
    UInt8.toNat_ofNat_of_lt (hlt.trans (by decide))
  rw [spreadChar, hbytes, List.map_singleton, byteChar, hnumber, Char.ofNat_toNat]

/-- The bytes of a high character are high: the first one has its two upper bits, each of the
others its upper bit. -/
theorem high_of_mem_spreadChar (h : High c) : ∀ d ∈ spreadChar c, High d := by
  have hhigh : ∀ n, 0x80 ≤ n → n < 0x100 → High (byteChar (UInt8.ofNat n)) := by
    intro n hle hlt
    rwa [High, toNat_byteChar, UInt8.toNat_ofNat', Nat.mod_eq_of_lt hlt]
  have hlow : ¬ c.val.toNat ≤ 127 := Nat.not_le.mpr h
  simp only [spreadChar, bytesOf, String.utf8EncodeChar, if_neg hlow, List.forall_mem_map]
  split
  · simp only [List.forall_mem_cons]
    exact ⟨hhigh _ (by omega) (by omega), hhigh _ (by omega) (by omega), List.forall_mem_nil _⟩
  · split
    · simp only [List.forall_mem_cons]
      exact ⟨hhigh _ (by omega) (by omega), hhigh _ (by omega) (by omega),
        hhigh _ (by omega) (by omega), List.forall_mem_nil _⟩
    · simp only [List.forall_mem_cons]
      exact ⟨hhigh _ (by omega) (by omega), hhigh _ (by omega) (by omega),
        hhigh _ (by omega) (by omega), hhigh _ (by omega) (by omega), List.forall_mem_nil _⟩

/-- Text in front of which stands a character that is not high. -/
theorem spread_cons (h : ¬ High c) (cs : List Char) : spread (c :: cs) = c :: spread cs := by
  rw [spread, List.flatMap_cons, spreadChar_of_not_high h]
  rfl

/-- Text in front of which stands a high character. -/
theorem exists_spread_cons (h : High c) (cs : List Char) :
    ∃ d ds, spread (c :: cs) = d :: ds ∧ High d := by
  obtain ⟨d, ds, hd⟩ : ∃ d ds, spreadChar c = d :: ds :=
    List.exists_cons_of_length_pos (by rw [spreadChar, List.length_map]; exact length_bytesOf_pos c)
  refine ⟨d, ds ++ spread cs, ?_, high_of_mem_spreadChar h d (hd ▸ List.mem_cons_self)⟩
  rw [spread, List.flatMap_cons, hd]
  rfl

/-- A character that is not high stands in front of the bytes only where it stands in front of the
text. -/
theorem spread_eq_cons_iff (h : ¬ High d) :
    spread cs = d :: rest ↔ ∃ more, cs = d :: more ∧ spread more = rest := by
  constructor
  · intro hspread
    cases cs with
    | nil => cases hspread
    | cons c more =>
      by_cases hc : High c
      · obtain ⟨e, es, he, hhigh⟩ := exists_spread_cons hc more
        rw [he] at hspread
        exact absurd ((List.cons.inj hspread).1 ▸ hhigh) h
      · rw [spread_cons hc] at hspread
        obtain ⟨rfl, rfl⟩ := List.cons.inj hspread
        exact ⟨more, rfl, rfl⟩
  · rintro ⟨more, rfl, rfl⟩
    exact spread_cons h more

/-- Text in front of which stand characters that are not high. -/
theorem spread_append (ds : List Char) (hds : ds.any (fun d => High d) = false) (cs : List Char) :
    spread (ds ++ cs) = ds ++ spread cs := by
  induction ds with
  | nil => rfl
  | cons d ds ih =>
    rw [List.any_cons, Bool.or_eq_false_iff, decide_eq_false_iff_not] at hds
    rw [List.cons_append, spread_cons hds.1, ih hds.2, List.cons_append]

/-- Characters that are not high stand in front of the bytes only where they stand in front of the
text. -/
theorem of_spread_eq_append (ds : List Char) {cs rest : List Char}
    (hds : ds.any (fun d => High d) = false) (h : spread cs = ds ++ rest) :
    ∃ more, cs = ds ++ more ∧ spread more = rest := by
  induction ds generalizing cs with
  | nil => exact ⟨cs, rfl, h⟩
  | cons d ds ih =>
    rw [List.any_cons, Bool.or_eq_false_iff, decide_eq_false_iff_not] at hds
    obtain ⟨more, rfl, hmore⟩ := (spread_eq_cons_iff hds.1).mp h
    obtain ⟨more, rfl, rfl⟩ := ih hds.2 hmore
    exact ⟨more, rfl, rfl⟩

/-- A high character is none that is not high. -/
theorem High.ne (h : High c) (hd : ¬ High d) : c ≠ d := by
  rintro rfl
  exact hd h

/-- A high character comes behind all that are not high. -/
theorem High.not_le (h : High c) (hd : ¬ High d) : ¬ c ≤ d :=
  fun hle => hd (Nat.le_trans h (Char.le_def.mp hle))

end Bytes

/-- What a reader of the front of a text gives, with the bytes of what follows. -/
def spreadRest {α : Type} (r : α × List Char) : α × List Char := (r.1, spread r.2)

section Tokens

variable {c : Char}

/-- A high character is no digit. -/
theorem High.digit? (h : High c) : Text.digit? c = none :=
  if_neg fun hc => h.not_le (by decide) hc.2

/-- A high character is no hexadecimal digit. -/
theorem High.hexDigit? (h : High c) : Text.hexDigit? c = none := by
  rw [Text.hexDigit?, if_neg fun hc => h.not_le (by decide) hc.2,
    if_neg fun hc => h.not_le (by decide) hc.2, if_neg fun hc => h.not_le (by decide) hc.2]

/-- A high character is no blank. -/
theorem High.isSpace (h : High c) : isSpace c = false := by
  have hne : ∀ d, ¬ High d → (c == d) = false := fun d hd => beq_eq_false_iff_ne.mpr (h.ne hd)
  rw [Json.isSpace, hne ' ' (by decide), hne '\n' (by decide), hne '\t' (by decide),
    hne '\r' (by decide)]
  rfl

/-- Blanks in front of the bytes are those in front of the text. -/
theorem skipSpace_spread (cs : List Char) : skipSpace (spread cs) = spread (skipSpace cs) := by
  induction cs with
  | nil => rfl
  | cons c cs ih =>
    by_cases hc : High c
    · obtain ⟨d, ds, hd, hhigh⟩ := exists_spread_cons hc cs
      have hbytes : skipSpace (d :: ds) = d :: ds := by rw [skipSpace, hhigh.isSpace]; rfl
      have htext : skipSpace (c :: cs) = c :: cs := by rw [skipSpace, hc.isSpace]; rfl
      rw [htext, hd, hbytes]
    · rw [spread_cons hc, skipSpace, skipSpace]
      split
      · exact ih
      · exact (spread_cons hc cs).symm

/-- Digits in front of the bytes are those in front of the text. -/
theorem takeDigits_spread (cs : List Char) :
    takeDigits (spread cs) = spreadRest (takeDigits cs) := by
  induction cs with
  | nil => rfl
  | cons c cs ih =>
    by_cases hc : High c
    · obtain ⟨d, ds, hd, hhigh⟩ := exists_spread_cons hc cs
      simp only [hd, takeDigits, hhigh.digit?, hc.digit?, spreadRest]
    · simp only [spread_cons hc, takeDigits, ih]
      split
      · rfl
      · simp only [spreadRest, spread_cons hc]

/-- A fraction in front of the bytes is that in front of the text. -/
theorem readFraction_spread (cs : List Char) :
    readFraction (spread cs) = (readFraction cs).map spreadRest := by
  unfold readFraction
  split
  · next ds heq =>
    obtain ⟨more, rfl, rfl⟩ := (spread_eq_cons_iff (by decide)).mp heq
    simp only [takeDigits_spread]
    rcases takeDigits more with ⟨_ | ⟨d, ds⟩, rest⟩ <;> rfl
  · next hpoint =>
    split
    · next ds => exact (hpoint _ (spread_cons (by decide) ds)).elim
    · rfl

/-- Digits of an exponent in front of the bytes are those in front of the text. -/
theorem readExponentDigits_spread (minus : Bool) (cs : List Char) :
    readExponentDigits minus (spread cs) = (readExponentDigits minus cs).map spreadRest := by
  rw [readExponentDigits, readExponentDigits, takeDigits_spread]
  rcases takeDigits cs with ⟨_ | ⟨d, ds⟩, rest⟩ <;> rfl

/-- An exponent in front of the bytes is that in front of the text. -/
theorem readExponent_spread (cs : List Char) :
    readExponent (spread cs) = (readExponent cs).map spreadRest := by
  cases cs with
  | nil => rfl
  | cons c cs =>
    by_cases hc : High c
    · obtain ⟨d, ds, hd, hhigh⟩ := exists_spread_cons hc cs
      have hletter : ∀ {x}, High x → (x == 'e' || x == 'E') = false := by
        intro x hx
        rw [Bool.or_eq_false_iff]
        exact ⟨beq_eq_false_iff_ne.mpr (hx.ne (by decide)),
          beq_eq_false_iff_ne.mpr (hx.ne (by decide))⟩
      simp only [readExponent, hd, hletter hhigh, hletter hc, Bool.false_eq_true, if_false,
        Option.map_some, spreadRest]
    · simp only [spread_cons hc, readExponent]
      split
      · split
        · next ds heq =>
          obtain ⟨more, rfl, rfl⟩ := (spread_eq_cons_iff (by decide)).mp heq
          exact readExponentDigits_spread false more
        · next ds heq =>
          obtain ⟨more, rfl, rfl⟩ := (spread_eq_cons_iff (by decide)).mp heq
          exact readExponentDigits_spread true more
        · next hplus hminus =>
          split
          · next ds => exact (hplus _ (spread_cons (by decide) ds)).elim
          · next ds => exact (hminus _ (spread_cons (by decide) ds)).elim
          · exact readExponentDigits_spread false _
      · rw [Option.map_some, spreadRest, spread_cons hc]

/-- A number behind its sign in front of the bytes is that in front of the text. -/
theorem readMagnitude_spread (negative : Bool) (cs : List Char) :
    readMagnitude negative (spread cs) = (readMagnitude negative cs).map spreadRest := by
  have hrest : ∀ (whole : List Nat) (rest : List Char),
      ((readFraction (spread rest)).bind fun f => (readExponent f.2).bind fun e =>
        some ((⟨negative, whole, f.1, e.1⟩ : NumberLiteral), e.2)) =
      ((readFraction rest).bind fun f => (readExponent f.2).bind fun e =>
        some ((⟨negative, whole, f.1, e.1⟩ : NumberLiteral), e.2)).map spreadRest := by
    intro whole rest
    rw [readFraction_spread]
    cases readFraction rest with
    | none => rfl
    | some f =>
      simp only [Option.map_some, Option.bind_some, spreadRest, readExponent_spread]
      cases readExponent f.2 <;> rfl
  rw [readMagnitude, readMagnitude, takeDigits_spread]
  rcases takeDigits cs with ⟨_ | ⟨_ | d, _ | ⟨e, es⟩⟩, rest⟩
  · rfl
  · exact hrest [0] rest
  · rfl
  · exact hrest [d + 1] rest
  · exact hrest ((d + 1) :: e :: es) rest

/-- A number in front of the bytes is that in front of the text. -/
theorem readNumber_spread (cs : List Char) :
    readNumber (spread cs) = (readNumber cs).map spreadRest := by
  unfold readNumber
  split
  · next ds heq =>
    obtain ⟨more, rfl, rfl⟩ := (spread_eq_cons_iff (by decide)).mp heq
    exact readMagnitude_spread true more
  · next hminus =>
    split
    · next ds => exact (hminus _ (spread_cons (by decide) ds)).elim
    · exact readMagnitude_spread false _

end Tokens

section Literals

variable {a b c d e : Char} {cs ds : List Char} {r : List Piece × List Char}

/-- The pieces of the bytes of a literal in place of one of its own. -/
def spreadPiece : Piece → List Piece
  | .char c => (spreadChar c).map .char
  | .unit n => [.unit n]

/-- What is read of a literal, with the bytes in place of the characters. -/
def spreadPieces (r : List Piece × List Char) : List Piece × List Char :=
  (r.1.flatMap spreadPiece, spread r.2)

/-- The digits of a code unit are not high. -/
theorem any_high_of_codeUnit? {n : Nat} (h : codeUnit? a b c d = some n) :
    [a, b, c, d].any (fun x => High x) = false := by
  have hnot : ∀ {x : Char} {k : Nat}, Text.hexDigit? x = some k → ¬ High x := by
    intro x k hx hhigh
    rw [hhigh.hexDigit?] at hx
    cases hx
  unfold codeUnit? at h
  split at h
  · next ha hb hc hd =>
    simp only [List.any_cons, List.any_nil, hnot ha, hnot hb, hnot hc, hnot hd, decide_false,
      Bool.or_self]
  · cases h

/-- A short escape is not high, and so is what it stands for. -/
theorem not_high_of_shortEscape? (h : shortEscape? e = some c) : ¬ High e ∧ ¬ High c := by
  unfold shortEscape? at h
  split at h <;> cases h <;> decide

/-- An escape by number has four digits. -/
theorem exists_of_readPieces_unit (h : readPieces ('\\' :: 'u' :: cs) = some r) :
    ∃ a b c d rest n s, cs = a :: b :: c :: d :: rest ∧ codeUnit? a b c d = some n ∧
      readPieces rest = some s := by
  rcases cs with _ | ⟨a, _ | ⟨b, _ | ⟨c, _ | ⟨d, rest⟩⟩⟩⟩
  · cases h
  · cases h
  · cases h
  · cases h
  · rw [readPieces] at h
    split at h
    · next n ps tail hunit hrest => exact ⟨a, b, c, d, rest, n, _, rfl, hunit, hrest⟩
    · cases h

/-- Every other escape is short. -/
theorem exists_of_readPieces_short (he : e ≠ 'u') (h : readPieces ('\\' :: e :: cs) = some r) :
    ∃ c s, shortEscape? e = some c ∧ readPieces cs = some s := by
  rw [readPieces.eq_4 e cs fun _ _ _ _ _ hu _ => he hu] at h
  split at h
  · next c ps rest hshort hrest => exact ⟨c, _, hshort, hrest⟩
  · cases h

/-- A character that is written as itself in a literal. -/
def Plain (c : Char) : Prop := 0x20 ≤ c.toNat ∧ c ≠ '"' ∧ c ≠ '\\'

/-- High characters are written as themselves. -/
theorem High.plain (h : High c) : Plain c :=
  ⟨Nat.le_trans (by decide) h, h.ne (by decide), h.ne (by decide)⟩

/-- A character that is written as itself has such bytes. -/
theorem plain_of_mem_spreadChar (h : Plain c) : ∀ d ∈ spreadChar c, Plain d := by
  by_cases hc : High c
  · exact fun d hd => (high_of_mem_spreadChar hc d hd).plain
  · rw [spreadChar_of_not_high hc]
    exact List.forall_mem_singleton.mpr h

/-- Characters that are written as themselves, one after the other. -/
theorem readPieces_append (h : ∀ d ∈ ds, Plain d) (cs : List Char) :
    readPieces (ds ++ cs) = (readPieces cs).map fun r => (ds.map .char ++ r.1, r.2) := by
  induction ds with
  | nil => exact Option.map_id'.symm
  | cons d ds ih =>
    obtain ⟨⟨hcontrol, hquote, hback⟩, hds⟩ := List.forall_mem_cons.mp h
    rw [List.cons_append, readPieces_plain hcontrol hquote hback, ih hds, Option.map_map]
    rfl

/-- A literal in front of the bytes is that in front of the text, its pieces in bytes. The induction
is on the reader of the text. Where it finds an escape it finds only characters that are not high,
and so does the reader of the bytes. -/
theorem readPieces_spread (cs : List Char) :
    readPieces (spread cs) = (readPieces cs).map spreadPieces := by
  fun_induction readPieces cs with
  | case1 => rfl
  | case2 cs =>
    rw [spread_cons (by decide), readPieces]
    rfl
  | case3 a b c d cs n ps rest hrest hunit ih =>
    have hdigits : spread (a :: b :: c :: d :: cs) = a :: b :: c :: d :: spread cs :=
      spread_append [a, b, c, d] (any_high_of_codeUnit? hunit) cs
    rw [spread_cons (by decide), spread_cons (by decide), hdigits, readPieces, hunit, ih, hrest]
    rfl
  | case4 a b c d cs hnone ih =>
    rw [spread_cons (by decide), spread_cons (by decide), Option.map_none]
    refine Option.eq_none_iff_forall_ne_some.mpr fun r hread => ?_
    obtain ⟨a', b', c', d', rest, n, s, hcs, hunit, hrest⟩ := exists_of_readPieces_unit hread
    obtain ⟨more, happend, hmore⟩ :=
      of_spread_eq_append [a', b', c', d'] (any_high_of_codeUnit? hunit) hcs
    obtain ⟨rfl, rfl, rfl, rfl, rfl⟩ : a = a' ∧ b = b' ∧ c = c' ∧ d = d' ∧ cs = more := by
      simpa using happend
    obtain ⟨t, ht, -⟩ := Option.map_eq_some_iff.mp (ih.symm.trans (hmore ▸ hrest))
    exact hnone n t.1 t.2 hunit ht
  | case5 e cs hu c ps rest hrest hshort ih =>
    obtain ⟨he, hc⟩ := not_high_of_shortEscape? hshort
    rw [spread_cons (by decide), spread_cons he,
      readPieces_short hshort (by rw [ih, hrest]; rfl), Option.map_some, spreadPieces,
      List.flatMap_cons, spreadPiece, spreadChar_of_not_high hc]
    rfl
  | case6 e cs hu hnone ih =>
    rw [spread_cons (by decide), Option.map_none]
    refine Option.eq_none_iff_forall_ne_some.mpr fun r hread => ?_
    by_cases he : High e
    · obtain ⟨d, ds, hd, hhigh⟩ := exists_spread_cons he cs
      rw [hd] at hread
      obtain ⟨c, s, hshort, -⟩ := exists_of_readPieces_short (hhigh.ne (by decide)) hread
      exact (not_high_of_shortEscape? hshort).1 hhigh
    · rw [spread_cons he] at hread
      by_cases hletter : e = 'u'
      · subst hletter
        obtain ⟨a, b, c, d, rest, n, s, hcs, hunit, -⟩ := exists_of_readPieces_unit hread
        obtain ⟨more, hcs, -⟩ := of_spread_eq_append [a, b, c, d] (any_high_of_codeUnit? hunit) hcs
        exact hu a b c d more rfl hcs
      · obtain ⟨c, s, hshort, hrest⟩ := exists_of_readPieces_short hletter hread
        obtain ⟨t, ht, -⟩ := Option.map_eq_some_iff.mp (ih.symm.trans hrest)
        exact hnone c t.1 t.2 hshort ht
  | case7 c cs hquote hunit hshort hbroken =>
    rcases hbroken with hcontrol | rfl
    · have hc : ¬ High c := fun hhigh => absurd (Nat.lt_of_le_of_lt hhigh hcontrol) (by decide)
      have hback : c ≠ '\\' := by
        rintro rfl
        exact absurd hcontrol (by decide)
      rw [spread_cons hc, readPieces.eq_5 c _ hquote (fun _ _ _ _ _ h _ => hback h)
        (fun _ _ h _ => hback h), if_pos (.inl hcontrol), Option.map_none]
    · cases cs with
      | nil => rfl
      | cons e cs => exact (hshort e cs rfl rfl).elim
  | case8 c cs hquote hunit hshort hplain ps rest hrest ih =>
    have hc : Plain c := ⟨Nat.not_lt.mp (not_or.mp hplain).1, hquote, (not_or.mp hplain).2⟩
    rw [spread, List.flatMap_cons, readPieces_append (plain_of_mem_spreadChar hc), ← spread, ih,
      hrest]
    rfl
  | case9 c cs hquote hunit hshort hplain hrest ih =>
    have hc : Plain c := ⟨Nat.not_lt.mp (not_or.mp hplain).1, hquote, (not_or.mp hplain).2⟩
    rw [spread, List.flatMap_cons, readPieces_append (plain_of_mem_spreadChar hc), ← spread, ih,
      hrest]
    rfl

/-- Characters denote one after the other what each of them stands for. -/
theorem denote_append {β : Type} (plain coded : Char → List β) (cs : List Char)
    (ps : List Piece) :
    denote plain coded (cs.map .char ++ ps) =
      (denote plain coded ps).map (cs.flatMap plain ++ ·) := by
  induction cs with
  | nil => exact Option.map_id'.symm
  | cons c cs ih =>
    rw [List.map_cons, List.cons_append, denote, ih, Option.map_map]
    simp only [Function.comp_def, List.flatMap_cons, List.append_assoc]

/-- The bytes of a literal begin with a code unit only where the literal does. -/
theorem flatMap_spreadPiece_ne {ps : List Piece} (h : ∀ m qs, ps = .unit m :: qs → False) :
    ∀ m qs, ps.flatMap spreadPiece = .unit m :: qs → False := by
  intro m qs heq
  rcases ps with _ | ⟨c | n, ps⟩
  · cases heq
  · have hpos := length_bytesOf_pos c
    cases hc : spreadChar c with
    | nil => rw [← List.length_map byteChar, ← spreadChar, hc] at hpos; cases hpos
    | cons d ds =>
      rw [List.flatMap_cons, spreadPiece, hc] at heq
      cases heq
  · exact h n ps rfl

/-- The pieces in bytes denote the bytes of what the pieces denote. -/
theorem denote_spread (ps : List Piece) :
    denote (fun c => [charByte c]) bytesOf (ps.flatMap spreadPiece) =
      (assemble ps).map (·.flatMap bytesOf) := by
  rw [assemble]
  induction ps using denote.induct with
  | case1 => rfl
  | case2 c ps ih =>
    have hbytes : (spreadChar c).flatMap (fun d => [charByte d]) = bytesOf c := by
      simp only [spreadChar, List.flatMap_map, charByte_byteChar, List.flatMap_singleton']
    rw [List.flatMap_cons, spreadPiece, denote_append, ih, denote, hbytes, Option.map_map,
      Option.map_map]
    rfl
  | case3 n m ps hpair ih =>
    change denote _ _ (.unit n :: .unit m :: ps.flatMap spreadPiece) = _
    rw [denote, if_pos hpair, ih, denote, if_pos hpair, Option.map_map, Option.map_map]
    rfl
  | case4 n m ps hpair halone =>
    change denote _ _ (.unit n :: .unit m :: ps.flatMap spreadPiece) = _
    rw [denote, if_neg hpair, if_pos halone, denote, if_neg hpair, if_pos halone]
    rfl
  | case5 n m ps hpair halone ih =>
    change denote _ _ (.unit n :: .unit m :: ps.flatMap spreadPiece) = _
    change denote _ _ (.unit m :: ps.flatMap spreadPiece) = _ at ih
    rw [denote, if_neg hpair, if_neg halone, ih, denote, if_neg hpair, if_neg halone,
      Option.map_map, Option.map_map]
    rfl
  | case6 n ps hunit halone =>
    change denote _ _ (.unit n :: ps.flatMap spreadPiece) = _
    rw [denote.eq_4 _ _ n _ (flatMap_spreadPiece_ne hunit), denote.eq_4 _ _ n ps hunit,
      if_pos halone, if_pos halone]
    rfl
  | case7 n ps hunit halone ih =>
    change denote _ _ (.unit n :: ps.flatMap spreadPiece) = _
    rw [denote.eq_4 _ _ n _ (flatMap_spreadPiece_ne hunit), denote.eq_4 _ _ n ps hunit,
      if_neg halone, if_neg halone, ih, Option.map_map, Option.map_map]
    rfl

/-- A literal among the bytes has the text that it has in the text. -/
theorem byteLiteral?_spread (ps : List Piece) :
    byteLiteral? (ps.flatMap spreadPiece) = literal? ps := by
  rw [byteLiteral?, denote_spread, literal?, Option.bind_map]
  cases assemble ps with
  | none => rfl
  | some cs => exact utf8?_flatMap_bytesOf cs

end Literals

/-- What is read of a text, with the bytes of what follows. -/
def Part.spread {α : Type} (p : Part α) : Part α := ⟨p.content, p.rest.map Json.spread⟩

/-- A literal among the bytes is the draft that it is in the text. -/
theorem readString_spread (cs : List Char) :
    readString byteLiteral? (spread cs) = (readString literal? cs).spread := by
  rw [readString, readString, readPieces_spread]
  cases readPieces cs with
  | none => rfl
  | some r =>
    simp only [Option.map_some, spreadPieces, byteLiteral?_spread]
    cases literal? r.1 <;> rfl

/-- A number among the bytes is the draft that it is in the text. -/
theorem readNumeral_spread (cs : List Char) :
    readNumeral (spread cs) = (readNumeral cs).spread := by
  rw [readNumeral, readNumeral, readNumber_spread]
  cases readNumber cs <;> rfl

mutual

/-- A value among the bytes is the draft that it is in the text. -/
theorem readValue_spread : (fuel depth : Nat) → (cs : List Char) →
    readValue byteLiteral? fuel depth (spread cs) = (readValue literal? fuel depth cs).spread
  | 0, _, _ => by rw [readValue, readValue]; rfl
  | fuel + 1, depth, cs => by
    rw [readValue, readValue, skipSpace_spread]
    generalize skipSpace cs = ys
    split
    · next more heq =>
      obtain ⟨more, rfl, rfl⟩ := of_spread_eq_append ['n', 'u', 'l', 'l'] (by decide) heq
      rfl
    · next more heq =>
      obtain ⟨more, rfl, rfl⟩ := of_spread_eq_append ['t', 'r', 'u', 'e'] (by decide) heq
      rfl
    · next more heq =>
      obtain ⟨more, rfl, rfl⟩ := of_spread_eq_append ['f', 'a', 'l', 's', 'e'] (by decide) heq
      rfl
    · next more heq =>
      obtain ⟨more, rfl, rfl⟩ := of_spread_eq_append ['"'] (by decide) heq
      exact readString_spread more
    · next more heq =>
      obtain ⟨more, rfl, rfl⟩ := of_spread_eq_append ['['] (by decide) heq
      simp only [readItems_spread fuel (depth + 1) true more, Part.spread]
      rfl
    · next more heq =>
      obtain ⟨more, rfl, rfl⟩ := of_spread_eq_append ['{'] (by decide) heq
      simp only [readMembers_spread fuel (depth + 1) true more, Part.spread]
      rfl
    · next hnull htrue hfalse hquote harray hobject =>
      split
      · next more => exact (hnull _ (spread_append ['n', 'u', 'l', 'l'] (by decide) more)).elim
      · next more => exact (htrue _ (spread_append ['t', 'r', 'u', 'e'] (by decide) more)).elim
      · next more =>
        exact (hfalse _ (spread_append ['f', 'a', 'l', 's', 'e'] (by decide) more)).elim
      · next more => exact (hquote _ (spread_append ['"'] (by decide) more)).elim
      · next more => exact (harray _ (spread_append ['['] (by decide) more)).elim
      · next more => exact (hobject _ (spread_append ['{'] (by decide) more)).elim
      · exact readNumeral_spread ys

/-- Items among the bytes are those in the text. -/
theorem readItems_spread : (fuel depth : Nat) → (first : Bool) → (cs : List Char) →
    readItems byteLiteral? fuel depth first (spread cs) =
      (readItems literal? fuel depth first cs).spread
  | 0, _, _, _ => by rw [readItems, readItems]; rfl
  | fuel + 1, depth, first, cs => by
    rw [readItems, readItems, skipSpace_spread]
    generalize skipSpace cs = ys
    split
    · next more heq =>
      obtain ⟨more, rfl, rfl⟩ := of_spread_eq_append [']'] (by decide) heq
      rfl
    · next more heq =>
      obtain ⟨more, rfl, rfl⟩ := of_spread_eq_append [','] (by decide) heq
      cases first with
      | true => rfl
      | false =>
        simp only [Bool.false_eq_true, if_false, skipSpace_spread, List.cons_append,
          List.nil_append]
        generalize skipSpace more = zs
        split
        · next last heq =>
          obtain ⟨last, rfl, -⟩ := of_spread_eq_append [']'] (by decide) heq
          rfl
        · next hclose =>
          split
          · next last => exact (hclose _ (spread_append [']'] (by decide) last)).elim
          · exact readItem_spread fuel depth zs
    · next hclose hcomma =>
      rw [readItem_spread fuel depth ys]
      cases first <;> simp only [if_true, Bool.false_eq_true, if_false] <;> split
      · next more => exact (hclose _ (spread_append [']'] (by decide) more)).elim
      · next more => exact (hcomma _ (spread_append [','] (by decide) more)).elim
      · rfl
      · next more => exact (hclose _ (spread_append [']'] (by decide) more)).elim
      · next more => exact (hcomma _ (spread_append [','] (by decide) more)).elim
      · rfl

/-- An item among the bytes, with those behind it, is that in the text. -/
theorem readItem_spread : (fuel depth : Nat) → (cs : List Char) →
    readItem byteLiteral? fuel depth (spread cs) = (readItem literal? fuel depth cs).spread
  | 0, _, _ => by rw [readItem, readItem]; rfl
  | fuel + 1, depth, cs => by
    rw [readItem, readItem, readValue_spread fuel depth cs]
    simp only [Part.spread]
    cases (readValue literal? fuel depth cs).rest with
    | none => rfl
    | some rest => simp only [Option.map_some, readItems_spread fuel depth false rest, Part.spread]

/-- Members among the bytes are those in the text. -/
theorem readMembers_spread : (fuel depth : Nat) → (first : Bool) → (cs : List Char) →
    readMembers byteLiteral? fuel depth first (spread cs) =
      (readMembers literal? fuel depth first cs).spread
  | 0, _, _, _ => by rw [readMembers, readMembers]; rfl
  | fuel + 1, depth, first, cs => by
    rw [readMembers, readMembers, skipSpace_spread]
    generalize skipSpace cs = ys
    split
    · next more heq =>
      obtain ⟨more, rfl, rfl⟩ := of_spread_eq_append ['}'] (by decide) heq
      rfl
    · next more heq =>
      obtain ⟨more, rfl, rfl⟩ := of_spread_eq_append [','] (by decide) heq
      cases first with
      | true => rfl
      | false =>
        rw [skipSpace_spread]
        exact readMember_spread fuel depth (skipSpace more)
    · next hclose hcomma =>
      rw [readMember_spread fuel depth ys]
      cases first <;> simp only [if_true, Bool.false_eq_true, if_false] <;> split
      · next more => exact (hclose _ (spread_append ['}'] (by decide) more)).elim
      · next more => exact (hcomma _ (spread_append [','] (by decide) more)).elim
      · rfl
      · next more => exact (hclose _ (spread_append ['}'] (by decide) more)).elim
      · next more => exact (hcomma _ (spread_append [','] (by decide) more)).elim
      · rfl

/-- A member among the bytes, with those behind it, is that in the text. -/
theorem readMember_spread : (fuel depth : Nat) → (cs : List Char) →
    readMember byteLiteral? fuel depth (spread cs) = (readMember literal? fuel depth cs).spread
  | 0, _, _ => by rw [readMember, readMember]; rfl
  | fuel + 1, depth, cs => by
    unfold readMember
    split
    · next more heq =>
      obtain ⟨more, rfl, rfl⟩ := of_spread_eq_append ['"'] (by decide) heq
      simp only [List.cons_append, List.nil_append, readPieces_spread]
      cases readPieces more with
      | none => rfl
      | some r =>
        simp only [Option.map_some, spreadPieces, byteLiteral?_spread, skipSpace_spread]
        generalize skipSpace r.2 = zs
        split
        · next last heq =>
          obtain ⟨last, rfl, rfl⟩ := of_spread_eq_append [':'] (by decide) heq
          simp only [List.cons_append, List.nil_append, readValue_spread fuel depth last,
            Part.spread]
          cases (readValue literal? fuel depth last).rest with
          | none => rfl
          | some rest =>
            simp only [Option.map_some, readMembers_spread fuel depth false rest, Part.spread]
        · next hcolon =>
          split
          · next last => exact (hcolon _ (spread_append [':'] (by decide) last)).elim
          · rfl
    · next hquote =>
      split
      · next more => exact (hquote _ (spread_append ['"'] (by decide) more)).elim
      · rfl

end

/-- The bytes of a text are read as the text is: with the same draft, and with the same answer to
whether anything follows it. -/
theorem readBytes_toBytes (text : String) : Text.readBytes (toBytes text) = Text.read text := by
  have hbytes : (toBytes text).list.map byteChar = spread text.toList := List.map_flatMap
  rw [Text.readBytes, Text.read, hbytes, Text.readFrom, Text.readFrom, readValue_spread]
  simp only [Part.spread]
  cases (readValue literal? (fuelFor (toBytes text).list.length) 0 text.toList).rest with
  | none => rfl
  | some rest =>
    simp only [Option.map_some, skipSpace_spread]
    cases skipSpace rest with
    | nil => rfl
    | cons c cs =>
      by_cases hc : High c
      · obtain ⟨d, ds, hd, -⟩ := exists_spread_cons hc cs
        rw [hd]
        rfl
      · rw [spread_cons hc]
        rfl

end ApiExposure.Json
