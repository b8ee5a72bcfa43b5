import ApiExposure.Uuid
import ApiExposure.Proofs.Text.Digits

/-!
# Identifiers as read and as written

Whatever text an identifier is read from, it has 32 hexadecimal digits, and it
is read back from its written form.
-/

namespace ApiExposure.Uuid

open Text

/-- An identifier that can be read: 32 hexadecimal digits. -/
structure Regular (u : Uuid) : Prop where
  length : u.digits.length = 32
  digits : ∀ d ∈ u.digits, d < 16

/-- Characters that are all read as hexadecimal digits give numbers below sixteen. -/
theorem mapM_hexDigit?_lt {cs : List Char} {ds : List Nat} (h : cs.mapM hexDigit? = some ds) :
    ∀ d ∈ ds, d < 16 := by
  induction cs generalizing ds with
  | nil =>
    cases h
    exact List.forall_mem_nil _
  | cons c cs ih =>
    simp only [List.mapM_cons, Option.bind_eq_bind, Option.bind_eq_some_iff, Option.pure_def,
      Option.some.injEq] at h
    obtain ⟨d, hd, rest, hrest, rfl⟩ := h
    exact List.forall_mem_cons.mpr ⟨hexDigit?_lt hd, ih hrest⟩

/-- Digits without hyphens that are read are 32. -/
theorem regular_of_plain? {cs : List Char} {u : Uuid} (h : plain? cs = some u) : u.Regular := by
  simp only [plain?, Option.bind_eq_bind, Option.bind_eq_some_iff,
    Option.ite_none_right_eq_some, Option.some.injEq] at h
  obtain ⟨ds, hds, hlength, rfl⟩ := h
  exact ⟨hlength, mapM_hexDigit?_lt hds⟩

/-- Digits with hyphens that are read are 32, since the hyphens stand in fixed places. -/
theorem regular_of_hyphenated? {cs : List Char} {u : Uuid} (h : hyphenated? cs = some u) :
    u.Regular := by
  unfold hyphenated? at h
  split at h
  · exact regular_of_plain? h
  · cases h

/-- Every spelling that is read gives 32 digits. -/
theorem regular_of_read? {s : String} {u : Uuid} (h : read? s = some u) : u.Regular := by
  unfold read? at h
  dsimp only at h
  split at h
  · exact regular_of_plain? h
  · exact regular_of_hyphenated? h
  · split at h
    · exact regular_of_hyphenated? h
    · cases h
  · split at h
    · exact regular_of_hyphenated? h
    · cases h
  · cases h

/-- Digits without separators are read back. -/
theorem plain?_map_hexChar {u : Uuid} (h : u.Regular) :
    plain? (u.digits.map hexChar) = some u := by
  have hdigits : ∀ ds : List Nat, (∀ d ∈ ds, d < 16) →
      (ds.map hexChar).mapM hexDigit? = some ds := by
    intro ds
    induction ds with
    | nil => intro _; rfl
    | cons d ds ih =>
      intro hall
      rw [List.forall_mem_cons] at hall
      simp only [List.map_cons, List.mapM_cons, hexDigit?_hexChar hall.1, ih hall.2,
        Option.bind_eq_bind, Option.bind_some, Option.pure_def]
  rw [plain?, hdigits u.digits h.digits]
  simp only [Option.bind_eq_bind, Option.bind_some, h.length, if_true]

/-- A part of a text is found by where it starts and how long it is. -/
theorem take_drop_of_eq {cs part : List Char} {i n : Nat} (before after : List Char)
    (h : cs = before ++ part ++ after) (hbefore : before.length = i) (hpart : part.length = n) :
    (cs.drop i).take n = part := by
  rw [h, List.append_assoc, List.drop_left' hbefore, List.take_left' hpart]

/-- Groups with hyphens between them are joined again. -/
theorem hyphenated?_groups {a b c d e : List Char} (ha : a.length = 8) (hb : b.length = 4)
    (hc : c.length = 4) (hd : d.length = 4) (he : e.length = 12) :
    hyphenated? (a ++ '-' :: b ++ '-' :: c ++ '-' :: d ++ '-' :: e) =
      plain? (a ++ b ++ c ++ d ++ e) := by
  generalize hcs : a ++ '-' :: b ++ '-' :: c ++ '-' :: d ++ '-' :: e = cs
  have hlength : cs.length = 36 := by simp [← hcs, ha, hb, hc, hd, he]
  have hmarks : [8, 13, 18, 23].all (fun i => cs[i]? = some '-') = true := by
    simp [← hcs, List.getElem?_append, ha, hb, hc, hd]
  have hfirst : cs.take 8 = a :=
    take_drop_of_eq [] ('-' :: b ++ '-' :: c ++ '-' :: d ++ '-' :: e) (by simp [← hcs]) rfl ha
  have hsecond : (cs.drop 9).take 4 = b :=
    take_drop_of_eq (a ++ ['-']) ('-' :: c ++ '-' :: d ++ '-' :: e)
      (by simp [← hcs]) (by simp [ha]) hb
  have hthird : (cs.drop 14).take 4 = c :=
    take_drop_of_eq (a ++ '-' :: b ++ ['-']) ('-' :: d ++ '-' :: e)
      (by simp [← hcs]) (by simp [ha, hb]) hc
  have hfourth : (cs.drop 19).take 4 = d :=
    take_drop_of_eq (a ++ '-' :: b ++ '-' :: c ++ ['-']) ('-' :: e)
      (by simp [← hcs]) (by simp [ha, hb, hc]) hd
  have hlast : cs.drop 24 = e := by
    have hsplit : cs = (a ++ '-' :: b ++ '-' :: c ++ '-' :: d ++ ['-']) ++ e := by simp [← hcs]
    rw [hsplit, List.drop_left' (by simp [ha, hb, hc, hd])]
  rw [hyphenated?, if_pos ⟨hlength, hmarks⟩, hfirst, hsecond, hthird, hfourth, hlast]

/-- An identifier that can be read at all is read back from its own spelling. -/
theorem read?_text {u : Uuid} (h : u.Regular) : read? u.text = some u := by
  have hplain := plain?_map_hexChar h
  have hlength : (u.digits.map hexChar).length = 32 := by rw [List.length_map, h.length]
  rw [text]
  generalize u.digits.map hexChar = cs at hplain hlength ⊢
  have ha : (cs.take 8).length = 8 := by rw [List.length_take]; omega
  have hb : ((cs.drop 8).take 4).length = 4 := by
    rw [List.length_take, List.length_drop]; omega
  have hc : ((cs.drop 12).take 4).length = 4 := by
    rw [List.length_take, List.length_drop]; omega
  have hd : ((cs.drop 16).take 4).length = 4 := by
    rw [List.length_take, List.length_drop]; omega
  have he : (cs.drop 20).length = 12 := by rw [List.length_drop]; omega
  have hjoin : cs.take 8 ++ (cs.drop 8).take 4 ++ (cs.drop 12).take 4 ++ (cs.drop 16).take 4 ++
      cs.drop 20 = cs := by
    rw [← List.take_add, ← List.take_add, ← List.take_add, List.take_append_drop]
  have hgroups : hyphenated? (cs.take 8 ++ '-' :: (cs.drop 8).take 4 ++
      '-' :: (cs.drop 12).take 4 ++ '-' :: (cs.drop 16).take 4 ++ '-' :: cs.drop 20) =
        some u := by
    rw [hyphenated?_groups ha hb hc hd he, hjoin, hplain]
  have htext : (cs.take 8 ++ '-' :: (cs.drop 8).take 4 ++ '-' :: (cs.drop 12).take 4 ++
      '-' :: (cs.drop 16).take 4 ++ '-' :: cs.drop 20).length = 36 := by
    simp only [List.length_append, List.length_cons, ha, hb, hc, hd, he]
  simp only [read?, String.toList_ofList, htext, hgroups]

/-- Whatever an identifier is read from, it is read back from its written form. -/
theorem read?_text_of_read? {s : String} {u : Uuid} (h : read? s = some u) :
    read? u.text = some u := read?_text (regular_of_read? h)

end ApiExposure.Uuid
