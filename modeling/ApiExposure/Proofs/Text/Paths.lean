import Mathlib.Data.List.TakeWhile
import ApiExposure.Text.Form
import ApiExposure.Proofs.Text.Bytes

/-!
# Texts in a path

A path is cut at slashes, after its query and its fragment are taken off, and each
part is decoded. A text stands for itself when none of this changes it: it has none of
the marks at which a path is cut, and no escape in it. Decoding takes away bytes at each
escape and adds none, so a text with an escape never decodes to itself.
-/

namespace ApiExposure.Text

/-- Whether a text begins with a percent sign and two hexadecimal digits. -/
def startsEscape : List Char → Bool
  | '%' :: a :: b :: _ => (hexDigit? a).isSome && (hexDigit? b).isSome
  | _ => false

/-- Whether an escape stands in a text. -/
def hasEscape : List Char → Bool
  | [] => false
  | c :: cs => startsEscape (c :: cs) || hasEscape cs

/-- Without two digits behind it a percent sign begins no escape. -/
theorem startsEscape_eq_false {a b : Char} {cs : List Char}
    (h : ∀ x y, hexDigit? a = some x → hexDigit? b = some y → False) :
    startsEscape ('%' :: a :: b :: cs) = false := by
  rw [startsEscape]
  cases hx : hexDigit? a with
  | none => rfl
  | some x =>
    cases hy : hexDigit? b with
    | none => rfl
    | some y => exact (h x y hx hy).elim

/-- What is no percent sign with two characters behind it begins no escape. -/
theorem startsEscape_eq_false_of_short {c : Char} {cs : List Char}
    (h : ∀ a b ds, c = '%' → cs = a :: b :: ds → False) : startsEscape (c :: cs) = false := by
  unfold startsEscape
  split
  · next a b ds heq =>
    cases heq
    exact (h a b ds rfl rfl).elim
  · rfl

/-- Without an escape decoding gives the bytes of the text. -/
theorem percentBytes_of_not_hasEscape {cs : List Char} (h : hasEscape cs = false) :
    percentBytes cs = cs.flatMap bytesOf := by
  fun_induction percentBytes cs with
  | case1 => rfl
  | case2 a b cs x y hy hx ih => simp [hasEscape, startsEscape, hx, hy] at h
  | case3 a b cs hdigits ih =>
    rw [hasEscape, Bool.or_eq_false_iff] at h
    rw [ih h.2]
    rfl
  | case4 c cs hshort ih =>
    rw [hasEscape, Bool.or_eq_false_iff] at h
    rw [ih h.2]
    rfl

/-- Decoding adds no byte, and at an escape it takes some away. -/
theorem length_percentBytes (cs : List Char) :
    (percentBytes cs).length + (if hasEscape cs = true then 1 else 0) ≤ byteLength cs := by
  fun_induction percentBytes cs with
  | case1 => exact Nat.le_refl 0
  | case2 a b cs x y hy hx ih =>
    have ha := length_bytesOf_pos a
    have hb := length_bytesOf_pos b
    have hsign := length_bytesOf_pos '%'
    simp only [List.length_cons, byteLength_cons]
    split <;> omega
  | case3 a b cs hdigits ih =>
    rw [hasEscape, startsEscape_eq_false hdigits, Bool.false_or, List.length_append,
      byteLength_cons]
    omega
  | case4 c cs hshort ih =>
    rw [hasEscape, startsEscape_eq_false_of_short hshort, Bool.false_or, List.length_append,
      byteLength_cons]
    omega

/-- A text without the separator is a single part. -/
theorem splitAtEach_of_not_mem {separator : Char} {cs : List Char} (h : separator ∉ cs) :
    splitAtEach separator cs = [cs] := by
  induction cs with
  | nil => rfl
  | cons c cs ih =>
    rw [List.mem_cons, not_or] at h
    rw [splitAtEach, if_neg (Ne.symm h.1), ih h.2]

/-- A part ends at the first separator. -/
theorem splitAtEach_append {separator : Char} {cs : List Char} (h : separator ∉ cs)
    (rest : List Char) :
    splitAtEach separator (cs ++ separator :: rest) = cs :: splitAtEach separator rest := by
  induction cs with
  | nil => rw [List.nil_append, splitAtEach, if_pos rfl]
  | cons c cs ih =>
    rw [List.mem_cons, not_or] at h
    rw [List.cons_append, splitAtEach, if_neg (Ne.symm h.1), ih h.2]

/-- No part has a separator in it. -/
theorem not_mem_of_mem_splitAtEach {separator : Char} {cs part : List Char}
    (h : part ∈ splitAtEach separator cs) : separator ∉ part := by
  induction cs generalizing part with
  | nil =>
    rw [splitAtEach, List.mem_singleton] at h
    rw [h]
    exact List.not_mem_nil
  | cons c cs ih =>
    unfold splitAtEach at h
    split at h
    · rcases List.mem_cons.mp h with rfl | h
      · exact List.not_mem_nil
      · exact ih h
    · next hc =>
      split at h
      · next first parts hparts =>
        rw [hparts] at ih
        rcases List.mem_cons.mp h with rfl | h
        · rw [List.mem_cons, not_or]
          exact ⟨Ne.symm hc, ih List.mem_cons_self⟩
        · exact ih (List.mem_cons_of_mem _ h)
      · next hnil => exact absurd hnil (splitAtEach_ne_nil separator cs)

/-- A text without the separator has no second part. -/
theorem splitAtFirst_of_not_mem {separator : Char} {cs : List Char} (h : separator ∉ cs) :
    splitAtFirst separator cs = (cs, none) := by
  have hdrop : cs.dropWhile (· != separator) = [] := by
    refine List.dropWhile_eq_nil_iff.mpr fun c hc => ?_
    exact bne_iff_ne.mpr fun heq => h (heq ▸ hc)
  rw [splitAtFirst, hdrop]

/-- The first part goes up to the separator. -/
theorem splitAtFirst_fst (separator : Char) (cs : List Char) :
    (splitAtFirst separator cs).1 = cs.takeWhile (· != separator) := by
  rw [splitAtFirst]
  split
  · next hdrop =>
    have hsplit : cs.takeWhile (· != separator) ++ cs.dropWhile (· != separator) = cs :=
      List.takeWhile_append_dropWhile
    rw [hdrop, List.append_nil] at hsplit
    exact hsplit.symm
  · rfl

/-- What stands before the first separator has none, and the text begins with it. -/
theorem of_splitAtFirst (separator : Char) (cs : List Char) :
    (splitAtFirst separator cs).1 <+: cs ∧ separator ∉ (splitAtFirst separator cs).1 := by
  rw [splitAtFirst_fst]
  refine ⟨List.takeWhile_prefix _, fun hmem => ?_⟩
  have hother := List.mem_takeWhile_imp hmem
  simp at hother

/-- A separator behind a text without one ends the first part no earlier than that text. -/
theorem splitAtFirst_append {separator : Char} {cs : List Char} (h : separator ∉ cs)
    (ds : List Char) :
    (splitAtFirst separator (cs ++ ds)).1 = cs ++ (splitAtFirst separator ds).1 := by
  rw [splitAtFirst_fst, splitAtFirst_fst]
  refine List.takeWhile_append_of_pos fun c hc => ?_
  exact bne_iff_ne.mpr fun heq => h (heq ▸ hc)

/-- Whether a text, written into a path as it is, is read back from it. -/
def isVerbatim (text : String) : Bool :=
  text.toList.all (fun c => c != '/' && c != '?' && c != '#') && !hasEscape text.toList

/-- A text stands for itself exactly when it has no mark at which a path is cut, and no escape. -/
theorem isVerbatim_iff {text : String} :
    isVerbatim text = true ↔ ('/' ∉ text.toList ∧ '?' ∉ text.toList ∧ '#' ∉ text.toList) ∧
      hasEscape text.toList = false := by
  simp only [isVerbatim, Bool.and_eq_true, Bool.not_eq_true', List.all_eq_true, bne_iff_ne]
  refine and_congr_left fun _ => ⟨fun h => ?_, fun h c hc => ?_⟩
  · exact ⟨fun hc => (h _ hc).1.1 rfl, fun hc => (h _ hc).1.2 rfl, fun hc => (h _ hc).2 rfl⟩
  · exact ⟨⟨fun heq => h.1 (heq ▸ hc), fun heq => h.2.1 (heq ▸ hc)⟩, fun heq => h.2.2 (heq ▸ hc)⟩

/-- Decoding leaves such a text as it is. -/
theorem decode_of_isVerbatim {text : String} (h : isVerbatim text = true) :
    utf8? (percentBytes text.toList) = some text := by
  rw [percentBytes_of_not_hasEscape (isVerbatim_iff.mp h).2, utf8?_flatMap_bytesOf,
    String.ofList_toList]

end ApiExposure.Text
