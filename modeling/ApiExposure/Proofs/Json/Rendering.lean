import ApiExposure.Proofs.Json.Literal
import ApiExposure.Proofs.Text.Bytes

/-!
# Reading written texts

A value without doubles that fits the greatest depth reads back from its
compact text. The reader takes at most four steps of fuel for a character.
-/

namespace ApiExposure.Json

mutual

/-- No double occurs: every number is an integer. -/
def Integral : Json → Prop
  | .real _ => False
  | .arr items => ItemsIntegral items
  | .obj members => MembersIntegral members
  | _ => True

/-- No double occurs in an item. -/
def ItemsIntegral : List Json → Prop
  | [] => True
  | v :: vs => Integral v ∧ ItemsIntegral vs

/-- No double occurs in a member. -/
def MembersIntegral : List (String × Json) → Prop
  | [] => True
  | (_, v) :: ms => Integral v ∧ MembersIntegral ms

end

/-- How a written value begins: not with a blank and not like the end of an item. -/
def Starts (cs : List Char) : Prop :=
  ∃ c rest, cs = c :: rest ∧ isSpace c = false ∧ c ≠ ',' ∧ c ≠ ']'

/-- No blank is skipped in front of a written value. -/
theorem Starts.skipSpace {cs : List Char} (h : Starts cs) : skipSpace cs = cs := by
  obtain ⟨c, rest, rfl, hspace, -, -⟩ := h
  rw [Json.skipSpace, hspace]
  rfl

/-- The beginning of a written value does not depend on what follows. -/
theorem Starts.append {cs : List Char} (h : Starts cs) (rest : List Char) :
    Starts (cs ++ rest) := by
  obtain ⟨c, more, rfl, hc⟩ := h
  exact ⟨c, more ++ rest, rfl, hc⟩

/-- A number begins like a value and like no other value. -/
theorem starts_of_readNumber {cs rest : List Char} {l : NumberLiteral}
    (h : readNumber cs = some (l, rest)) : Starts cs := by
  cases cs with
  | nil => cases h
  | cons c cs =>
    refine ⟨c, cs, rfl, ?_, ?_, ?_⟩
    · by_contra hspace
      simp only [isSpace, Bool.not_eq_false, Bool.or_eq_true, beq_iff_eq] at hspace
      rcases hspace with ((rfl | rfl) | rfl) | rfl <;> cases h
    · rintro rfl
      cases h
    · rintro rfl
      cases h

/-- A text that begins with a number is read as the number, since no other value begins so. -/
theorem readValue_of_readNumber {cs rest : List Char} {l : NumberLiteral} {fuel depth : Nat}
    (h : readNumber cs = some (l, rest)) :
    readValue literal? (fuel + 1) depth cs = ⟨l.draft, some rest⟩ := by
  unfold readValue
  rw [(starts_of_readNumber h).skipSpace]
  split
  · cases h
  · cases h
  · cases h
  · cases h
  · cases h
  · cases h
  · rw [readNumeral, h]

/-- A written value without doubles begins like a value. -/
theorem starts_render (v : Json) (hv : v.Integral) : Starts (render v) := by
  cases v with
  | null => exact ⟨'n', _, rfl, rfl, by decide, by decide⟩
  | bool b => cases b <;> exact ⟨_, _, rfl, rfl, by decide, by decide⟩
  | int z =>
    obtain ⟨l, hread, -⟩ := exists_literal z follows_nil
    rw [List.append_nil] at hread
    exact starts_of_readNumber hread
  | real x => exact hv.elim
  | str s => exact ⟨'"', _, rfl, rfl, by decide, by decide⟩
  | arr vs => exact ⟨'[', _, rfl, rfl, by decide, by decide⟩
  | obj ms => exact ⟨'{', _, rfl, rfl, by decide, by decide⟩

/-- A written value has at least one character. -/
theorem length_render_pos {v : Json} (hv : v.Integral) : 0 < (render v).length := by
  obtain ⟨c, rest, heq, -⟩ := starts_render v hv
  rw [heq, List.length_cons]
  omega

section Steps

variable {cs rest : List Char} {fuel depth : Nat}

/-- An opening bracket is read as the items behind it. -/
theorem readValue_array : readValue literal? (fuel + 1) depth ('[' :: cs) =
    ⟨bounded (depth + 1) (.arr (readItems literal? fuel (depth + 1) true cs).content.1
      (readItems literal? fuel (depth + 1) true cs).content.2),
      (readItems literal? fuel (depth + 1) true cs).rest⟩ := by
  unfold readValue
  rfl

/-- An opening brace is read as the members behind it. -/
theorem readValue_object : readValue literal? (fuel + 1) depth ('{' :: cs) =
    ⟨bounded (depth + 1) (.obj (readMembers literal? fuel (depth + 1) true cs).content.1
      (readMembers literal? fuel (depth + 1) true cs).content.2),
      (readMembers literal? fuel (depth + 1) true cs).rest⟩ := by
  unfold readValue
  rfl

/-- A closing bracket ends the items. -/
theorem readItems_close (first : Bool) :
    readItems literal? (fuel + 1) depth first (']' :: cs) = ⟨([], true), some cs⟩ := by
  unfold readItems
  rfl

/-- The first item comes without a comma. -/
theorem readItems_first (h : Starts cs) :
    readItems literal? (fuel + 1) depth true cs = readItem literal? fuel depth cs := by
  obtain ⟨c, more, rfl, hc⟩ := id h
  unfold readItems
  rw [h.skipSpace]
  split
  · next heq => exact absurd (List.cons.inj heq).1 hc.2.2
  · next heq => exact absurd (List.cons.inj heq).1 hc.2.1
  · rfl

/-- Every other item comes behind a comma. -/
theorem readItems_comma (h : Starts cs) :
    readItems literal? (fuel + 1) depth false (',' :: cs) = readItem literal? fuel depth cs := by
  obtain ⟨c, more, rfl, hc⟩ := id h
  have hcomma : skipSpace (',' :: c :: more) = ',' :: c :: more := rfl
  unfold readItems
  simp only [hcomma, Bool.false_eq_true, if_false, h.skipSpace]
  split
  · next heq => exact absurd (List.cons.inj heq).1 hc.2.2
  · rfl

/-- An item that is read stands before those behind it. -/
theorem readItem_step {d : Draft} (h : readValue literal? fuel depth cs = ⟨d, some rest⟩) :
    readItem literal? (fuel + 1) depth cs =
      ⟨(d :: (readItems literal? fuel depth false rest).content.1,
        (readItems literal? fuel depth false rest).content.2),
        (readItems literal? fuel depth false rest).rest⟩ := by
  rw [readItem, h]

theorem readMembers_close (first : Bool) :
    readMembers literal? (fuel + 1) depth first ('}' :: cs) = ⟨([], true), some cs⟩ := by
  unfold readMembers
  rfl

theorem readMembers_first :
    readMembers literal? (fuel + 1) depth true ('"' :: cs) =
      readMember literal? fuel depth ('"' :: cs) := by
  unfold readMembers
  rfl

theorem readMembers_comma :
    readMembers literal? (fuel + 1) depth false (',' :: '"' :: cs) =
      readMember literal? fuel depth ('"' :: cs) := by
  unfold readMembers
  rfl

/-- A member that is read stands before those behind it. -/
theorem readMember_step {key : String} {d : Draft}
    (h : readValue literal? fuel depth cs = ⟨d, some rest⟩) :
    readMember literal? (fuel + 1) depth (quote key ++ ':' :: cs) =
      ⟨((some key, d) :: (readMembers literal? fuel depth false rest).content.1,
        (readMembers literal? fuel depth false rest).content.2),
        (readMembers literal? fuel depth false rest).rest⟩ := by
  obtain ⟨ps, hread, hassemble⟩ := exists_pieces key.toList (':' :: cs)
  have hquote : quote key ++ ':' :: cs =
      '"' :: (key.toList.flatMap escapeChar ++ '"' :: ':' :: cs) := by
    rw [quote, List.cons_append, List.append_assoc]
    rfl
  have hcolon : skipSpace (':' :: cs) = ':' :: cs := rfl
  rw [hquote]
  simp only [readMember, literal?, hread, hcolon, h, hassemble, Option.map_some,
    String.ofList_toList]

end Steps

/-- Written items begin like their first one. -/
theorem starts_renderItems : {vs : List Json} → ItemsIntegral vs → vs ≠ [] →
    Starts (renderItems vs)
  | [], _, hne => absurd rfl hne
  | [v], hv, _ => starts_render v hv.1
  | v :: _ :: _, hv, _ => (starts_render v hv.1).append _

/-- The text of members begins with a quote. -/
theorem exists_renderMembers : {ms : List (String × Json)} → ms ≠ [] →
    ∃ cs, renderMembers ms = '"' :: cs
  | [], hne => absurd rfl hne
  | [_], _ => ⟨_, rfl⟩
  | _ :: _ :: _, _ => ⟨_, rfl⟩

/-- A comma or a closing bracket may stand behind a value. -/
theorem follows_of_closing {c : Char} {rest : List Char} (hc : c = ',' ∨ c = ']' ∨ c = '}') :
    Follows (c :: rest) := by
  intro d hd
  cases hd
  exact hc

mutual

/-- A value reads back from its text, whatever follows it. -/
theorem readValue_render : (v : Json) → (fuel depth : Nat) → (rest : List Char) →
    v.Integral → v.Fits (deepest - depth) → Follows rest → 4 * (render v).length ≤ fuel →
    readValue literal? fuel depth (render v ++ rest) = ⟨.ofJson v, some rest⟩
  | v, 0, _, _, hv, _, _, hfuel => by
    have hpos := length_render_pos hv
    omega
  | .null, fuel + 1, _, _, _, _, _, _ => by unfold readValue; rfl
  | .bool true, fuel + 1, _, _, _, _, _, _ => by unfold readValue; rfl
  | .bool false, fuel + 1, _, _, _, _, _, _ => by unfold readValue; rfl
  | .int z, fuel + 1, _, _, _, hfits, hrest, _ => by
    obtain ⟨l, hread, hdraft⟩ := exists_literal z hrest
    rw [render, readValue_of_readNumber hread, hdraft hfits]
    rfl
  | .real _, _ + 1, _, _, hv, _, _, _ => hv.elim
  | .str s, fuel + 1, _, rest, _, _, _, _ => by
    have hquote : render (.str s) ++ rest =
        '"' :: (s.toList.flatMap escapeChar ++ '"' :: rest) := by
      rw [render, quote, List.cons_append, List.append_assoc]
      rfl
    rw [hquote]
    unfold readValue
    exact readString_quoted s rest
  | .arr vs, fuel + 1, depth, rest, hv, hfits, _, hfuel => by
    have hdepth : depth + 1 ≤ deepest := by
      have hpos : 0 < deepest - depth := hfits.1
      omega
    have hitems : Draft.ItemsFit (Draft.ofItems vs) (deepest - (depth + 1)) := by
      rw [← Nat.sub_sub]
      exact hfits.2
    have hlength : (render (.arr vs)).length = (renderItems vs).length + 2 := by
      rw [render, List.length_cons, List.length_append, List.length_singleton]
    have htext : render (.arr vs) ++ rest = '[' :: (renderItems vs ++ ']' :: rest) := by
      rw [render, List.cons_append, List.append_assoc]
      rfl
    have hbody : readItems literal? fuel (depth + 1) true (renderItems vs ++ ']' :: rest) =
        ⟨(Draft.ofItems vs, true), some rest⟩ := by
      obtain ⟨fuel, rfl⟩ : ∃ k, fuel = k + 1 := ⟨fuel - 1, by omega⟩
      by_cases hne : vs = []
      · subst hne
        exact readItems_close true
      · rw [readItems_first ((starts_renderItems hv hne).append _)]
        exact readItem_render vs fuel (depth + 1) rest hne hv hitems (by omega)
    rw [htext, readValue_array, hbody, bounded, if_pos hdepth]
    rfl
  | .obj ms, fuel + 1, depth, rest, hv, hfits, _, hfuel => by
    have hdepth : depth + 1 ≤ deepest := by
      have hpos : 0 < deepest - depth := hfits.1
      omega
    have hmembers : Draft.MembersFit (Draft.ofMembers ms) (deepest - (depth + 1)) := by
      rw [← Nat.sub_sub]
      exact hfits.2
    have hlength : (render (.obj ms)).length = (renderMembers ms).length + 2 := by
      rw [render, List.length_cons, List.length_append, List.length_singleton]
    have htext : render (.obj ms) ++ rest = '{' :: (renderMembers ms ++ '}' :: rest) := by
      rw [render, List.cons_append, List.append_assoc]
      rfl
    have hbody : readMembers literal? fuel (depth + 1) true (renderMembers ms ++ '}' :: rest) =
        ⟨(Draft.ofMembers ms, true), some rest⟩ := by
      obtain ⟨fuel, rfl⟩ : ∃ k, fuel = k + 1 := ⟨fuel - 1, by omega⟩
      by_cases hne : ms = []
      · subst hne
        exact readMembers_close true
      · obtain ⟨cs, hcs⟩ := exists_renderMembers hne
        have hmember := readMember_render ms fuel (depth + 1) rest hne hv hmembers (by omega)
        rw [hcs, List.cons_append] at hmember ⊢
        rw [readMembers_first, hmember]
    rw [htext, readValue_object, hbody, bounded, if_pos hdepth]
    rfl

/-- Items read back one by one up to the closing bracket. -/
theorem readItem_render : (vs : List Json) → (fuel depth : Nat) → (rest : List Char) →
    vs ≠ [] → ItemsIntegral vs → Draft.ItemsFit (Draft.ofItems vs) (deepest - depth) →
    4 * (renderItems vs).length + 2 ≤ fuel →
    readItem literal? fuel depth (renderItems vs ++ ']' :: rest) =
      ⟨(Draft.ofItems vs, true), some rest⟩
  | [], _, _, _, hne, _, _, _ => absurd rfl hne
  | [v], fuel, depth, rest, _, hv, hfits, hfuel => by
    obtain ⟨fuel, rfl⟩ : ∃ k, fuel = k + 1 + 1 := ⟨fuel - 2, by omega⟩
    have hvalue : readValue literal? (fuel + 1) depth (render v ++ ']' :: rest) =
        ⟨.ofJson v, some (']' :: rest)⟩ := by
      refine readValue_render v _ _ _ hv.1 hfits.1 (follows_of_closing (by decide)) ?_
      rw [renderItems] at hfuel
      omega
    rw [renderItems, readItem_step hvalue, readItems_close]
    rfl
  | v :: w :: vs, fuel, depth, rest, _, hv, hfits, hfuel => by
    obtain ⟨fuel, rfl⟩ : ∃ k, fuel = k + 1 + 1 := ⟨fuel - 2, by omega⟩
    have hlength : (renderItems (v :: w :: vs)).length =
        (render v).length + (renderItems (w :: vs)).length + 1 := by
      rw [renderItems, List.length_append, List.length_cons, Nat.add_assoc]
    have htext : renderItems (v :: w :: vs) ++ ']' :: rest =
        render v ++ ',' :: (renderItems (w :: vs) ++ ']' :: rest) := by
      rw [renderItems, List.append_assoc, List.cons_append]
    have hvalue := readValue_render v (fuel + 1) depth
      (',' :: (renderItems (w :: vs) ++ ']' :: rest)) hv.1 hfits.1
      (follows_of_closing (by decide)) (by omega)
    have hstarts : Starts (renderItems (w :: vs) ++ ']' :: rest) :=
      (starts_renderItems hv.2 (List.cons_ne_nil w vs)).append _
    have hmore := readItem_render (w :: vs) fuel depth rest (List.cons_ne_nil w vs) hv.2
      hfits.2 (by omega)
    rw [htext, readItem_step hvalue, readItems_comma hstarts, hmore]
    rfl

/-- Members read back one by one up to the closing brace. -/
theorem readMember_render : (ms : List (String × Json)) → (fuel depth : Nat) →
    (rest : List Char) → ms ≠ [] → MembersIntegral ms →
    Draft.MembersFit (Draft.ofMembers ms) (deepest - depth) →
    4 * (renderMembers ms).length + 2 ≤ fuel →
    readMember literal? fuel depth (renderMembers ms ++ '}' :: rest) =
      ⟨(Draft.ofMembers ms, true), some rest⟩
  | [], _, _, _, hne, _, _, _ => absurd rfl hne
  | [(k, v)], fuel, depth, rest, _, hv, hfits, hfuel => by
    obtain ⟨fuel, rfl⟩ : ∃ k, fuel = k + 1 + 1 := ⟨fuel - 2, by omega⟩
    have hlength : (renderMembers [(k, v)]).length =
        (quote k).length + (render v).length + 1 := by
      rw [renderMembers, List.length_append, List.length_cons, Nat.add_assoc]
    have htext : renderMembers [(k, v)] ++ '}' :: rest =
        quote k ++ ':' :: (render v ++ '}' :: rest) := by
      rw [renderMembers, List.append_assoc, List.cons_append]
    have hvalue := readValue_render v (fuel + 1) depth ('}' :: rest) hv.1 hfits.1
      (follows_of_closing (by decide)) (by omega)
    rw [htext, readMember_step hvalue, readMembers_close]
    rfl
  | (k, v) :: m :: ms, fuel, depth, rest, _, hv, hfits, hfuel => by
    obtain ⟨fuel, rfl⟩ : ∃ k, fuel = k + 1 + 1 := ⟨fuel - 2, by omega⟩
    have hlength : (renderMembers ((k, v) :: m :: ms)).length =
        (quote k).length + (render v).length + (renderMembers (m :: ms)).length + 2 := by
      rw [renderMembers, List.length_append, List.length_cons, List.length_append,
        List.length_cons]
      omega
    have htext : renderMembers ((k, v) :: m :: ms) ++ '}' :: rest =
        quote k ++ ':' :: (render v ++ ',' :: (renderMembers (m :: ms) ++ '}' :: rest)) := by
      rw [renderMembers, List.append_assoc, List.cons_append, List.append_assoc,
        List.cons_append]
    have hvalue := readValue_render v (fuel + 1) depth
      (',' :: (renderMembers (m :: ms) ++ '}' :: rest)) hv.1 hfits.1
      (follows_of_closing (by decide)) (by omega)
    have hmore := readMember_render (m :: ms) fuel depth rest (List.cons_ne_nil m ms) hv.2
      hfits.2 (by omega)
    obtain ⟨cs, hcs⟩ := exists_renderMembers (List.cons_ne_nil m ms)
    rw [htext, readMember_step hvalue]
    rw [hcs, List.cons_append] at hmore ⊢
    rw [readMembers_comma, hmore]
    rfl

end

/-- The compact text of a value reads back as the value. -/
theorem read_compact {v : Json} (hv : v.Integral) (hfits : v.Fits deepest) :
    Text.read v.compact = ⟨.ofJson v, true⟩ := by
  have hfuel : 4 * (render v).length ≤ fuelFor (Text.byteLength (render v)) := by
    have hbytes := Text.length_le_byteLength (render v)
    rw [fuelFor]
    omega
  have hvalue := readValue_render v _ 0 [] hv hfits follows_nil hfuel
  rw [List.append_nil, Text.byteLength] at hvalue
  simp only [Text.read, Text.readFrom, compact, Text.toBytes, String.toList_ofList]
  rw [hvalue]
  rfl

end ApiExposure.Json
