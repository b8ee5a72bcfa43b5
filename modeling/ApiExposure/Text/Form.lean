import ApiExposure.Text.Percent

/-!
# Form-encoded pairs

A query is a sequence of names and values. Pairs are separated by ampersands and
empty ones are left out; the first equals sign separates a name from its value,
and a name alone has the empty value. In both a plus stands for a space and
percent escapes stand for bytes.
-/

namespace ApiExposure.Text

/-- The parts of a text between separators, at least one. -/
def splitAtEach (separator : Char) : List Char → List (List Char)
  | [] => [[]]
  | c :: cs =>
    if c = separator then [] :: splitAtEach separator cs
    else
      match splitAtEach separator cs with
      | part :: parts => (c :: part) :: parts
      | [] => [[c]]

/-- There is at least one part, though it may be empty. -/
theorem splitAtEach_ne_nil (separator : Char) (cs : List Char) :
    splitAtEach separator cs ≠ [] := by
  cases cs with
  | nil => simp [splitAtEach]
  | cons c cs =>
    unfold splitAtEach
    split
    · simp
    · split <;> simp

/-- Joining the parts with the separator gives the text back. -/
theorem intercalate_splitAtEach (separator : Char) (cs : List Char) :
    List.intercalate [separator] (splitAtEach separator cs) = cs := by
  induction cs with
  | nil => rfl
  | cons c cs ih =>
    by_cases h : c = separator
    · subst h
      cases hs : splitAtEach c cs with
      | nil => exact absurd hs (splitAtEach_ne_nil c cs)
      | cons part parts =>
        rw [hs] at ih
        simp only [splitAtEach, if_true, hs]
        rw [← ih]
        simp [List.intercalate]
    · cases hs : splitAtEach separator cs with
      | nil => exact absurd hs (splitAtEach_ne_nil separator cs)
      | cons part parts =>
        rw [hs] at ih
        simp only [splitAtEach, if_neg h, hs]
        rw [← ih]
        cases parts <;> simp [List.intercalate]

/-- What stands before the first separator and what stands behind it, if there is one. -/
def splitAtFirst (separator : Char) (cs : List Char) : List Char × Option (List Char) :=
  match cs.dropWhile (· != separator) with
  | [] => (cs, none)
  | _ :: rest => (cs.takeWhile (· != separator), some rest)

/-- A name or a value as meant. -/
def formText (cs : List Char) : String :=
  lossy (percentBytes (cs.map (fun c => if c = '+' then ' ' else c)))

/-- The pairs of a query, in order. -/
def formPairs (query : String) : List (String × String) :=
  ((splitAtEach '&' query.toList).filter (fun part => !part.isEmpty)).map (fun part =>
    let (name, value) := splitAtFirst '=' part
    (formText name, formText (value.getD [])))

end ApiExposure.Text
