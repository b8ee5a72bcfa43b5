import ApiExposure.Proofs.Discovery.Refinement
import ApiExposure.Proofs.Registry.Table
import ApiExposure.Proofs.Text.Digits

/-!
# Masks as numbers

A mask spells a number in base sixteen, and the empty one spells zero. What is
proved elsewhere of the features of a mask, place by place, is read off here from
the bits of that number: four bits belong to a digit. To cover is to have all the
bits, so widths, zeros in front and letter case play no part. The comparison pads
the shorter mask by a difference of lengths; with every difference and every index
checked it gives the same answer, so none of the checks ever fails.
-/

namespace ApiExposure

namespace Text

/-- The sixteen digits in lower case, each at the place of its value. -/
def hexDigits : List Char :=
  ['0', '1', '2', '3', '4', '5', '6', '7', '8', '9', 'a', 'b', 'c', 'd', 'e', 'f']

/-- The characters of hexadecimal numbers, letters in both cases. -/
def hexCharacters : List Char := hexDigits ++ ['A', 'B', 'C', 'D', 'E', 'F']

/-- The number that a hexadecimal text denotes. -/
def hexNumber (cs : List Char) : Nat :=
  valueOf 16 (cs.map (fun c => hexDigits.idxOf c.toLower))

/-- A digit is read as its place among the sixteen; nothing else is read. -/
theorem hexDigit?_eq (c : Char) :
    hexDigit? c = if c ∈ hexCharacters then some (hexDigits.idxOf c.toLower) else none := by
  have hall : ∀ n < 103, hexDigit? (Char.ofNat n) =
      if Char.ofNat n ∈ hexCharacters then some (hexDigits.idxOf (Char.ofNat n).toLower)
      else none := by
    decide +kernel
  by_cases hc : c.toNat < 103
  · have hn := hall c.toNat hc
    rwa [Char.ofNat_toNat] at hn
  · have hmem : c ∉ hexCharacters := by
      have hsmall : ∀ d ∈ hexCharacters, d.toNat < 103 := by simp [hexCharacters, hexDigits]
      exact fun hmem => hc (hsmall c hmem)
    have hbeyond : ∀ d : Char, d.toNat < 103 → ¬ c ≤ d := fun d hd hle =>
      hc (Nat.lt_of_le_of_lt (Char.le_def.mp hle) hd)
    rw [if_neg hmem, hexDigit?, if_neg fun h => hbeyond '9' (by decide) h.2,
      if_neg fun h => hbeyond 'f' (by decide) h.2, if_neg fun h => hbeyond 'F' (by decide) h.2]

/-- Each digit of a hexadecimal number stands for four of its bits. -/
theorem testBit_valueOf {ds : List Nat} (h : ∀ d ∈ ds, d < 16) (place : Nat) {bit : Nat}
    (hbit : bit < 4) :
    (valueOf 16 ds).testBit (4 * place + bit) = (ds.reverse.getD place 0).testBit bit := by
  induction ds using List.reverseRecOn generalizing place with
  | nil => simp [valueOf]
  | append_singleton ds d ih =>
    rw [List.forall_mem_append, List.forall_mem_singleton] at h
    have hvalue : valueOf 16 (ds ++ [d]) = 2 ^ 4 * valueOf 16 ds + d := by
      rw [valueOf_concat]
      omega
    rw [hvalue, Nat.testBit_two_pow_mul_add _ h.2, List.reverse_append, List.reverse_singleton,
      List.singleton_append]
    cases place with
    | zero =>
      have hlow : 4 * 0 + bit < 4 := by omega
      rw [if_pos hlow, List.getD_cons_zero, Nat.mul_zero, Nat.zero_add]
    | succ place =>
      have hhigh : ¬ 4 * (place + 1) + bit < 4 := by omega
      have hrest : 4 * (place + 1) + bit - 4 = 4 * place + bit := by omega
      rw [if_neg hhigh, hrest, List.getD_cons_succ]
      exact ih h.1 place

end Text

namespace Features

variable {f g h : Features}

/-- The number that a mask denotes. -/
def value (f : Features) : Nat := Text.hexNumber f.text.toList

/-- The masks are the texts of hexadecimal characters. -/
theorem parse?_isSome_iff_hex {text : String} :
    (parse? text).isSome = true ↔ ∀ c ∈ text.toList, c ∈ Text.hexCharacters := by
  rw [parse?_isSome_iff]
  refine forall₂_congr fun c _ => ?_
  rw [Text.hexDigit?_eq]
  split <;> simp_all

/-- A mask has the text that it was read from. -/
theorem text_of_parse? {text : String} (h : parse? text = some f) : f.text = text := by
  unfold parse? at h
  split at h
  · cases h
    rfl
  · cases h

/-- The digits of a mask are the places of its characters among the hexadecimal digits. -/
theorem nibbles_eq (f : Features) :
    f.nibbles = f.text.toList.map (fun c => Text.hexDigits.idxOf c.toLower) := by
  have hparsed : (parse? f.text).isSome = true := by rw [parse?_text]; rfl
  have hdigits := parse?_isSome_iff_hex.mp hparsed
  rw [nibbles, ← List.filterMap_eq_map]
  refine List.filterMap_congr fun c hc => ?_
  rw [Text.hexDigit?_eq, if_pos (hdigits c hc)]
  rfl

/-- A feature of a mask is a bit of its number. -/
theorem has_iff_testBit {place bit : Nat} :
    f.Has place bit ↔ bit < 4 ∧ f.value.testBit (4 * place + bit) = true := by
  have hsmall : ∀ d ∈ f.nibbles, d < 16 := fun d hd => by
    obtain ⟨c, _, hc⟩ := List.mem_filterMap.mp hd
    exact Text.hexDigit?_lt hc
  by_cases hbit : bit < 4
  · have hvalue : f.value = Text.valueOf 16 f.nibbles := by rw [value, Text.hexNumber, nibbles_eq]
    rw [hvalue, Text.testBit_valueOf hsmall place hbit]
    exact (and_iff_right hbit).symm
  · have hpow : 2 ^ 4 ≤ 2 ^ bit := Nat.pow_le_pow_right (by omega) (by omega)
    have hzero : (f.digit place).testBit bit = false :=
      Nat.testBit_lt_two_pow (Nat.lt_of_lt_of_le (f.digit_lt place) hpow)
    simp [Has, hzero, hbit]

/-- To have all features is to have all bits. -/
theorem forall_has_iff {P : Nat → Prop} :
    (∀ place bit, f.Has place bit → P (4 * place + bit)) ↔
      ∀ i, f.value.testBit i = true → P i := by
  constructor
  · intro hall i hi
    have hsplit : 4 * (i / 4) + i % 4 = i := Nat.div_add_mod i 4
    have hhas : f.Has (i / 4) (i % 4) :=
      has_iff_testBit.mpr ⟨Nat.mod_lt i (by decide), hsplit.symm ▸ hi⟩
    exact hsplit ▸ hall _ _ hhas
  · intro hall place bit hhas
    exact hall _ (has_iff_testBit.mp hhas).2

/-- A mask covers another one exactly when its number has all the bits of the other's. -/
theorem covers_iff_testBit :
    f.covers g = true ↔ ∀ i, g.value.testBit i = true → f.value.testBit i = true := by
  rw [← forall_has_iff, covers_iff]
  refine forall₃_congr fun place bit hhas => ?_
  rw [has_iff_testBit, and_iff_right (has_iff_testBit.mp hhas).1]

/-- A mask is empty exactly when its number is zero. -/
theorem isEmpty_iff_value : f.isEmpty = true ↔ f.value = 0 := by
  have hbits : f.isEmpty = true ↔ ∀ i, f.value.testBit i = true → False := by
    rw [← forall_has_iff (P := fun _ => False), isEmpty_iff]
  rw [hbits]
  constructor
  · intro hnone
    refine Nat.eq_of_testBit_eq fun i => ?_
    rw [Nat.zero_testBit]
    exact Bool.eq_false_iff.mpr (hnone i)
  · intro hzero i hi
    rw [hzero, Nat.zero_testBit] at hi
    cases hi

/-- Masks that cover each other denote the same number. -/
theorem covers_and_covers_iff : f.covers g = true ∧ g.covers f = true ↔ f.value = g.value := by
  rw [covers_iff_testBit, covers_iff_testBit]
  constructor
  · rintro ⟨hgf, hfg⟩
    exact Nat.eq_of_testBit_eq fun i => Bool.eq_iff_iff.mpr ⟨hfg i, hgf i⟩
  · intro heq
    rw [heq]
    exact ⟨fun _ hi => hi, fun _ hi => hi⟩

/-- Only the numbers matter to a comparison. -/
theorem covers_congr {f' g' : Features} (hf : f.value = f'.value) (hg : g.value = g'.value) :
    f.covers g = f'.covers g' := by
  rw [Bool.eq_iff_iff, covers_iff_testBit, covers_iff_testBit, hf, hg]

/-- A mask of zero covers the empty masks. -/
theorem covers_of_value_eq_zero (hf : f.value = 0) : f.covers g = g.isEmpty := by
  rw [Bool.eq_iff_iff, isEmpty_iff_value]
  have hf' : f.isEmpty = true := isEmpty_iff_value.mpr hf
  constructor
  · exact fun hcovers => isEmpty_iff_value.mp (isEmpty_of_covers hf' hcovers)
  · intro hg
    rw [covers_iff_testBit, hg, hf]
    exact fun _ hi => hi

/-- Two spellings of a mask: the same digits but for zeros in front and letter case. -/
def Respells (f g : Features) : Prop :=
  ∃ m n, List.replicate m '0' ++ f.text.toList.map Char.toLower =
    List.replicate n '0' ++ g.text.toList.map Char.toLower

/-- Zeros in front and letter case do not change the number. -/
theorem value_eq_of_padded (m : Nat) (f : Features) :
    Text.valueOf 16 ((List.replicate m '0' ++ f.text.toList.map Char.toLower).map
      Text.hexDigits.idxOf) = f.value := by
  have hzero : Text.hexDigits.idxOf '0' = 0 := by decide
  rw [List.map_append, List.map_replicate, hzero, Text.valueOf_replicate_append, List.map_map]
  rfl

/-- A mask that is spelt differently has the same value. -/
theorem Respells.value_eq (h : f.Respells g) : f.value = g.value := by
  obtain ⟨m, n, heq⟩ := h
  rw [← value_eq_of_padded m f, heq, value_eq_of_padded]

/-- A difference of lengths, if it is none below zero. -/
def difference? (m n : Nat) : Option Nat := if n ≤ m then some (m - n) else none

/-- The digit at a position of the mask widened on the left with zeros, with every difference and
the index checked. -/
def nibbleAt? (nibbles : List Nat) (width position : Nat) : Option Nat := do
  let pad ← difference? width nibbles.length
  if position < pad then some 0 else nibbles[← difference? position pad]?

/-- The comparison of two masks with all lookups checked. -/
def covers? (advertised requested : Features) : Option Bool :=
  let have_ := advertised.nibbles
  let want := requested.nibbles
  let width := max have_.length want.length
  (List.range width).allM (fun position => do
    let wanted ← nibbleAt? want width position
    let had ← nibbleAt? have_ width position
    some (wanted &&& (15 ^^^ had) == 0))

/-- Within the width no check fails. -/
theorem nibbleAt?_eq {nibbles : List Nat} {width position : Nat} (hl : nibbles.length ≤ width)
    (hposition : position < width) :
    nibbleAt? nibbles width position = some (nibbleAt nibbles width position) := by
  rw [nibbleAt?, nibbleAt, difference?, if_pos hl, Option.bind_eq_bind, Option.bind_some]
  by_cases hpad : position < width - nibbles.length
  · rw [if_pos hpad, if_pos hpad]
  · have hindex : position - (width - nibbles.length) < nibbles.length := by omega
    rw [if_neg hpad, if_neg hpad, difference?, if_pos (Nat.le_of_not_lt hpad), Option.bind_some,
      List.getD_eq_getElem?_getD, List.getElem?_eq_getElem hindex, Option.getD_some]

/-- Tests that all have results have the result of the tests together. -/
theorem allM_eq_some {α : Type} {l : List α} {p : α → Option Bool} {q : α → Bool}
    (h : ∀ a ∈ l, p a = some (q a)) : l.allM p = some (l.all q) := by
  induction l with
  | nil => rfl
  | cons a l ih =>
    rw [List.forall_mem_cons] at h
    rw [List.allM, h.1, List.all_cons, Option.bind_eq_bind, Option.bind_some]
    cases q a with
    | false => rfl
    | true => exact ih h.2

/-- So the checked comparison always answers, and as the plain one does. -/
theorem covers?_eq (f g : Features) : f.covers? g = some (f.covers g) := by
  refine allM_eq_some fun position hposition => ?_
  have hwithin := List.mem_range.mp hposition
  rw [nibbleAt?_eq (Nat.le_max_right _ _) hwithin, nibbleAt?_eq (Nat.le_max_left _ _) hwithin]
  rfl

end Features

/-- A mask that is advertised in place of another one: the same, or one of zero where none was. -/
inductive FillsMask : Option Features → Option Features → Prop
  /-- The same. -/
  | same (mask : Option Features) : FillsMask mask mask
  /-- A mask of zero in place of none. -/
  | zero {mask : Features} (h : mask.value = 0) : FillsMask none (some mask)

namespace PublishedApi

/-- The API with other masks. -/
def withMasks (a : PublishedApi) (features apiFeatures : Option Features) : PublishedApi :=
  { a with description := { a.description with features, apiFeatures } }

/-- An API that advertises masks of zero where another one advertises none. -/
inductive Fills (a : PublishedApi) : PublishedApi → Prop
  /-- It is the same otherwise. -/
  | mk {features apiFeatures : Option Features}
      (h : FillsMask a.description.features features)
      (hapi : FillsMask a.description.apiFeatures apiFeatures) :
      Fills a (a.withMasks features apiFeatures)

end PublishedApi

/-- A core whose APIs advertise masks of zero where those of another core advertise none. -/
structure Core.Fills (c d : Core) : Prop where
  /-- The APIs are stored under the same identifiers. -/
  apis : List.Forall₂ (fun p q => p.1 = q.1 ∧ p.2.Fills q.2) c.store.apis.entries
    d.store.apis.entries
  /-- The providers are the same. -/
  providers : d.providers = c.providers
  /-- So are the invokers. -/
  invokers : d.invokers = c.invokers

/-- To advertise zero is to advertise nothing. -/
theorem FillsMask.coversRequest_eq {m n : Option Features} (h : FillsMask m n)
    (requested : Option Features) :
    Criteria.coversRequest n requested = Criteria.coversRequest m requested := by
  cases h with
  | same _ => rfl
  | zero h =>
    cases requested with
    | none => rfl
    | some r => exact Features.covers_of_value_eq_zero h

namespace PublishedApi.Fills

variable {a b : PublishedApi} {c d : Core}

/-- Criteria select both APIs or neither. -/
theorem selects_eq (h : a.Fills b) (criteria : Criteria) :
    criteria.selects b = criteria.selects a := by
  obtain ⟨h, hapi⟩ := h
  have hmasks := h.coversRequest_eq criteria.features
  have hapiMasks := hapi.coversRequest_eq criteria.apiFeatures
  simp only [Criteria.selects, Criteria.matchesApi, withMasks, hmasks, hapiMasks]
  rfl

/-- A holder of grants sees the same profiles of both. -/
theorem view? (h : a.Fills b) (hproviders : d.providers = c.providers) (grants : List Grant)
    (criteria : Criteria) :
    Option.Rel PublishedApi.Fills (c.view? grants criteria a) (d.view? grants criteria b) := by
  obtain @⟨features, apiFeatures, h, hapi⟩ := h
  have hvisible : d.isVisible grants criteria (a.withMasks features apiFeatures) =
      c.isVisible grants criteria a := by
    funext p
    rw [Core.isVisible, Core.isVisible, hproviders]
    rfl
  have hpublisher : (a.withMasks features apiFeatures).publisher = a.publisher := rfl
  rw [Core.view?, Core.view?, hvisible, hproviders, hpublisher]
  split
  · dsimp only [withMasks]
    cases a.description.profiles.filter (c.isVisible grants criteria a) with
    | nil => exact .none
    | cons p ps => exact .some (.mk h hapi)
  · exact .none

end PublishedApi.Fills

/-- Who discovers finds the same APIs, but for the masks themselves. -/
theorem Core.Fills.discover {c d : Core} (h : c.Fills d) (id : InvokerId) (criteria : Criteria) :
    (∃ f, c.discover id criteria = .error f ∧ d.discover id criteria = .error f) ∨
      ∃ found filled, c.discover id criteria = .ok found ∧ d.discover id criteria = .ok filled ∧
        List.Forall₂ PublishedApi.Fills found filled := by
  rw [Core.discover, Core.discover, h.invokers]
  cases c.invokers.table.get? id with
  | none => exact .inl ⟨_, rfl, rfl⟩
  | some i =>
    have hvalues : List.Forall₂ PublishedApi.Fills c.store.apis.values d.store.apis.values := by
      rw [Table.values, Table.values, List.forall₂_map_left_iff, List.forall₂_map_right_iff]
      exact h.apis.imp fun _ _ hpair => hpair.2
    have hquery : List.Forall₂ PublishedApi.Fills (c.store.query criteria)
        (d.store.query criteria) :=
      List.rel_filter (fun _ _ hab => Bool.eq_iff_iff.mp (hab.selects_eq criteria).symm) hvalues
    refine .inr ⟨_, _, rfl, rfl, ?_⟩
    exact List.rel_filterMap (fun a b hab => hab.view? h.providers i.grants criteria) hquery

/-- The mask with one digit zero. -/
def Features.zero : Features := ⟨"0", by decide⟩

/-- The core whose APIs advertise zero where they advertise nothing. -/
def Core.withZeroMasks (c : Core) : Core :=
  { c with store := { c.store with apis := c.store.apis.mapValues (fun a => a.withMasks
      (a.description.features.or (some .zero)) (a.description.apiFeatures.or (some .zero))) } }

/-- Missing masks that are set to zero are filled. -/
theorem Core.fills_withZeroMasks (c : Core) : c.Fills c.withZeroMasks := by
  have hmask : ∀ mask : Option Features, FillsMask mask (mask.or (some .zero)) := by
    intro mask
    cases mask with
    | none => exact .zero (by decide)
    | some mask => exact .same _
  refine ⟨?_, rfl, rfl⟩
  refine List.forall₂_map_right_iff.mpr (List.forall₂_same.mpr fun p _ => ⟨rfl, ?_⟩)
  exact .mk (hmask _) (hmask _)

namespace Features

/-- Masks are compared as numbers: the masks are the texts of hexadecimal characters, one covers
another when its number has every bit of the other's, and one is empty when its number is zero. So
coverage is reflexive and transitive, does not depend on zeros in front or on letter case, and is
mutual just for equal numbers. No lookup of the comparison goes wrong. In discovery an API
without a mask is found as one with a mask of zero. -/
theorem masks_compare_as_numbers :
    (∀ text, ((parse? text).isSome = true ↔ ∀ c ∈ text.toList, c ∈ Text.hexCharacters) ∧
      ∀ f, parse? text = some f → f.text = text) ∧
    (∀ f g : Features, f.covers g = true ↔
      ∀ i, g.value.testBit i = true → f.value.testBit i = true) ∧
    (∀ f : Features, f.isEmpty = true ↔ f.value = 0) ∧
    (∀ f : Features, f.covers f = true) ∧
    (∀ f g h : Features, f.covers g = true → g.covers h = true → f.covers h = true) ∧
    (∀ f f' g g' : Features, f.Respells f' → g.Respells g' →
      f.covers g = f'.covers g' ∧ f.isEmpty = f'.isEmpty) ∧
    (∀ f g : Features, f.covers g = true ∧ g.covers f = true ↔ f.value = g.value) ∧
    (∀ f g : Features, f.covers? g = some (f.covers g)) ∧
    ∀ (c d : Core), c.Fills d → ∀ id criteria,
      (∃ f, c.discover id criteria = .error f ∧ d.discover id criteria = .error f) ∨
        ∃ found filled, c.discover id criteria = .ok found ∧
          d.discover id criteria = .ok filled ∧ List.Forall₂ PublishedApi.Fills found filled := by
  refine ⟨fun text => ⟨parse?_isSome_iff_hex, fun f => text_of_parse?⟩, fun f g => covers_iff_testBit,
    fun f => isEmpty_iff_value, covers_refl, fun f g h => covers_trans, ?_,
    fun f g => covers_and_covers_iff, covers?_eq, fun c d h => h.discover⟩
  intro f f' g g' hf hg
  refine ⟨covers_congr hf.value_eq hg.value_eq, ?_⟩
  rw [Bool.eq_iff_iff, isEmpty_iff_value, isEmpty_iff_value, hf.value_eq]

end Features

/-- The second of three masks respells the first one, and both cover the third. Whoever asks for no
feature finds the sample API, with a mask of zero or without any. -/
theorem Features.masks_compare_as_numbers_sample :
    (∃ f g h, parse? "00C" = some f ∧ parse? "c" = some g ∧ parse? "4" = some h ∧
      f.text = "00C" ∧ f.Respells g ∧ f.covers g = true ∧ g.covers h = true ∧
      f.covers h = true ∧ f.covers h = g.covers h) ∧
    ∃ (s : System) (found filled : List PublishedApi), s.Seen ∧ found.length = 1 ∧
      s.core.Fills s.core.withZeroMasks ∧
      s.core.discover (.generate "c") { features := some .zero } = .ok found ∧
      s.core.withZeroMasks.discover (.generate "c") { features := some .zero } = .ok filled ∧
      List.Forall₂ PublishedApi.Fills found filled := by
  obtain ⟨hparse, -, -, hrefl, htrans, hrespells, -, -, hdiscover⟩ :=
    Features.masks_compare_as_numbers
  constructor
  · obtain ⟨f, hf⟩ : ∃ f, parse? "00C" = some f :=
      Option.isSome_iff_exists.mp (by decide +kernel)
    obtain ⟨g, hg⟩ : ∃ g, parse? "c" = some g :=
      Option.isSome_iff_exists.mp (by decide +kernel)
    obtain ⟨h, hh⟩ : ∃ h, parse? "4" = some h :=
      Option.isSome_iff_exists.mp (by decide +kernel)
    have hftext : f.text = "00C" := (hparse "00C").2 f hf
    have hgtext : g.text = "c" := (hparse "c").2 g hg
    have hhtext : h.text = "4" := (hparse "4").2 h hh
    have hfg : f.Respells g := ⟨0, 2, by rw [hftext, hgtext]; decide +kernel⟩
    have hcovers : f.covers g = true := (hrespells f g g g hfg ⟨0, 0, rfl⟩).1.trans (hrefl g)
    have hsmaller : g.covers h = true := by
      rw [covers, nibbles, nibbles, hgtext, hhtext]
      decide +kernel
    exact ⟨f, g, h, hf, hg, hh, hftext, hfg, hcovers, hsmaller, htrans f g h hcovers hsmaller,
      (hrespells f g h h hfg ⟨0, 0, rfl⟩).1⟩
  · have hrun : (System.fresh.run System.sampleGranting).bind (fun s =>
        (s.core.discover (.generate "c") { features := some .zero }).toOption.map (·.length)) =
        some 1 := by
      decide +kernel
    obtain ⟨s, hs, h⟩ := Option.bind_eq_some_iff.mp hrun
    have hfills : s.core.Fills s.core.withZeroMasks := s.core.fills_withZeroMasks
    rcases hdiscover s.core s.core.withZeroMasks hfills (.generate "c")
      { features := some .zero } with ⟨f, hf, -⟩ | ⟨found, filled, hfound, hfilled, hsame⟩
    · rw [hf] at h
      cases h
    · rw [hfound] at h
      exact ⟨s, found, filled, System.seen_run hs, Option.some.inj h, hfills, hfound, hfilled,
        hsame⟩

end ApiExposure
