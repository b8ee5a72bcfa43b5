import Mathlib.Algebra.Group.Nat.Defs
import Mathlib.Data.List.Induction
import ApiExposure.Text.Digit

/-!
# Digits of numbers

The decimal text of a number, padded or not, spells digits that denote the
number, and a run of digits is taken up to the first character that is none.
Without padding only zero itself begins with a zero. A hexadecimal digit reads
back as well.
-/

namespace ApiExposure.Text

/-- Characters are the digits of a number. -/
structure Spells (cs : List Char) (ds : List Nat) (n : Nat) : Prop where
  /-- The characters are those of the digits. -/
  chars : cs = ds.map Nat.digitChar
  /-- The digits are decimal. -/
  digits : ∀ d ∈ ds, d < 10
  /-- The digits denote the number. -/
  value : valueOf 10 ds = n

/-- A decimal digit is read back from its character. -/
theorem digit?_digitChar {d : Nat} (h : d < 10) : digit? d.digitChar = some d := by
  have hall : ∀ d < 10, digit? d.digitChar = some d := by decide
  exact hall d h

/-- A hexadecimal digit is read back from its character. -/
theorem hexDigit?_hexChar {d : Nat} (h : d < 16) : hexDigit? (hexChar d) = some d := by
  have hall : ∀ d < 16, hexDigit? (hexChar d) = some d := by decide
  exact hall d h

/-- A digit behind others counts once, the others the base times as much as before. -/
theorem valueOf_concat (base : Nat) (ds : List Nat) (d : Nat) :
    valueOf base (ds ++ [d]) = valueOf base ds * base + d := by
  rw [valueOf, List.foldl_append, List.foldl_cons, List.foldl_nil, valueOf]

/-- Decimal digits denote less than the power of ten of their number. -/
theorem valueOf_lt {ds : List Nat} (h : ∀ d ∈ ds, d < 10) : valueOf 10 ds < 10 ^ ds.length := by
  induction ds using List.reverseRecOn with
  | nil => decide
  | append_singleton ds d ih =>
    rw [List.forall_mem_append, List.forall_mem_singleton] at h
    have hds := ih h.1
    rw [valueOf_concat, List.length_append, List.length_singleton, Nat.pow_succ]
    omega

/-- What is taken for a decimal digit is below ten. -/
theorem takeDigits_lt (cs : List Char) : ∀ d ∈ (takeDigits cs).1, d < 10 := by
  induction cs with
  | nil => exact List.forall_mem_nil _
  | cons c cs ih =>
    unfold takeDigits
    split
    · next d hd => exact List.forall_mem_cons.mpr ⟨digit?_lt hd, ih⟩
    · exact List.forall_mem_nil _

/-- Zeros in front denote nothing. -/
theorem valueOf_replicate_append (base k : Nat) (ds : List Nat) :
    valueOf base (List.replicate k 0 ++ ds) = valueOf base ds := by
  induction k with
  | zero => rfl
  | succ k ih =>
    rw [List.replicate_succ, List.cons_append, valueOf, List.foldl_cons, Nat.zero_mul,
      Nat.zero_add]
    exact ih

/-- A run of digits ends where the text does or at a character that is no digit. -/
theorem Spells.takeDigits_append {cs rest : List Char} {ds : List Nat} {n : Nat}
    (h : Spells cs ds n) (hrest : ∀ c ∈ rest.head?, digit? c = none) :
    takeDigits (cs ++ rest) = (ds, rest) := by
  obtain ⟨rfl, hdigits, -⟩ := h
  induction ds with
  | nil =>
    cases rest with
    | nil => rfl
    | cons c rest =>
      rw [List.map_nil, List.nil_append, takeDigits, hrest c rfl]
  | cons d ds ih =>
    rw [List.forall_mem_cons] at hdigits
    rw [List.map_cons, List.cons_append, takeDigits, digit?_digitChar hdigits.1]
    simp only [ih hdigits.2]

/-- One digit more at the end. -/
theorem Spells.concat {cs : List Char} {ds : List Nat} {n d : Nat} (h : Spells cs ds n)
    (hd : d < 10) : Spells (cs ++ [d.digitChar]) (ds ++ [d]) (n * 10 + d) where
  chars := by rw [h.chars, List.map_append, List.map_singleton]
  digits := List.forall_mem_append.mpr ⟨h.digits, List.forall_mem_singleton.mpr hd⟩
  value := by rw [valueOf_concat, h.value]

/-- The digits of a number; the first is zero for zero only. -/
theorem exists_spells_toDigits (n : Nat) :
    ∃ d ds, Spells (Nat.toDigits 10 n) (d :: ds) n ∧ (d = 0 → ds = []) := by
  induction n using Nat.strongRecOn with
  | ind n ih =>
    by_cases hn : n < 10
    · refine ⟨n, [], ⟨?_, List.forall_mem_singleton.mpr hn, ?_⟩, fun _ => rfl⟩
      · exact Nat.toDigits_of_lt_base hn
      · exact Nat.zero_add n
    · have hbase : 10 ≤ n := Nat.le_of_not_lt hn
      obtain ⟨d, ds, hspells, hzero⟩ := ih (n / 10) (by omega)
      refine ⟨d, ds ++ [n % 10], ?_, fun hd => ?_⟩
      · have hconcat := hspells.concat (Nat.mod_lt n (by decide : 0 < 10))
        rw [← Nat.toDigits_of_base_le (by decide) hbase, Nat.mul_comm,
          Nat.div_add_mod] at hconcat
        exact hconcat
      · have hvalue := hspells.value
        rw [hzero hd, hd] at hvalue
        have hsmall : n / 10 = 0 := hvalue.symm
        omega

/-- The text of a number spells the number. -/
theorem exists_spells_toString (n : Nat) :
    ∃ d ds, Spells (toString n).toList (d :: ds) n ∧ (d = 0 → ds = []) := by
  rw [Nat.toString_eq_repr, Nat.toList_repr]
  exact exists_spells_toDigits n

/-- The padded text of a number spells the number and is as wide as asked for if that
suffices. -/
theorem exists_spells_padded (width n : Nat) (hwidth : 0 < width) :
    ∃ ds, Spells (padded width n).toList ds n ∧ width ≤ ds.length ∧
      (n < 10 ^ width → ds.length = width) := by
  obtain ⟨d, ds, hspells, -⟩ := exists_spells_toString n
  have hlength : (toString n).length = (d :: ds).length := by
    rw [← String.length_toList, hspells.chars, List.length_map]
  refine ⟨List.replicate (width - (d :: ds).length) 0 ++ d :: ds, ⟨?_, ?_, ?_⟩, ?_, fun h => ?_⟩
  · rw [padded, String.toList_append, String.toList_ofList, hlength, hspells.chars,
      List.map_append, List.map_replicate]
    rfl
  · refine List.forall_mem_append.mpr ⟨fun z hz => ?_, hspells.digits⟩
    rw [List.eq_of_mem_replicate hz]
    decide
  · rw [valueOf_replicate_append, hspells.value]
  · rw [List.length_append, List.length_replicate]
    omega
  · have hle : (d :: ds).length ≤ width := by
      rw [← hlength, ← String.length_toList, Nat.toString_eq_repr, Nat.toList_repr]
      exact (Nat.length_toDigits_le_iff (by decide) hwidth).mpr h
    rw [List.length_append, List.length_replicate]
    omega

end ApiExposure.Text
