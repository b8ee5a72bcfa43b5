import ApiExposure.Time.Instant
import ApiExposure.Proofs.Text.Digits

/-!
# Instants as read and as written

Whatever text an instant is read from, it has a valid date, a minute of the
day, a second of the minute and nanoseconds of the second, twice as many in the
last second of a minute. Every such instant is read back from its written form.
-/

namespace ApiExposure.Instant

open Text

/-- An instant that can be read: a valid date and a time of day, with leap seconds at the end of
a minute. -/
structure Regular (t : Instant) : Prop where
  date : t.date.isValid = true
  minute : t.minute < 1440
  second : t.second ≤ 59
  nanosecond : t.nanosecond < 1000000000 ∨ t.second = 59 ∧ t.nanosecond < 2000000000

section Read

variable {cs rest : List Char}

/-- A fraction is less than a second. -/
theorem fraction?_lt {n : Nat} (h : fraction? cs = some (n, rest)) : n < 1000000000 := by
  unfold fraction? at h
  split at h
  · next digits =>
    split at h
    · cases h
    · next ds more _ htake =>
      simp only [Option.some.injEq, Prod.mk.injEq] at h
      have hdigits : ∀ d ∈ ds.take 9, d < 10 := by
        intro d hd
        have hlt := takeDigits_lt digits d
        rw [htake] at hlt
        exact hlt (List.mem_of_mem_take hd)
      have hlength : (ds.take 9).length ≤ 9 := List.length_take_le 9 ds
      calc n = valueOf 10 (ds.take 9) * 10 ^ (9 - (ds.take 9).length) := h.1.symm
        _ < 10 ^ (ds.take 9).length * 10 ^ (9 - (ds.take 9).length) :=
          Nat.mul_lt_mul_of_pos_right (valueOf_lt hdigits) (Nat.pow_pos (by decide))
        _ = 10 ^ 9 := by rw [← Nat.pow_add, Nat.add_sub_cancel' hlength]
  · cases h
    decide

/-- An offset is less than a day in either direction. -/
theorem offset?_lt {o : Int} (h : offset? cs = some (o, rest)) : -1440 < o ∧ o < 1440 := by
  have hminutes : ∀ {cs more m}, offsetMinutes? cs = some (m, more) → m < 1440 := by
    intro cs more m hm
    simp only [offsetMinutes?, Option.bind_eq_bind, Option.bind_eq_some_iff,
      Option.ite_none_right_eq_some, Option.some.injEq, Prod.mk.injEq] at hm
    obtain ⟨_, _, _, _, hrange, hm, _⟩ := hm
    omega
  have hsigned : ∀ {cs : List Char} {f : Nat → Int}, (∀ m, f m = m ∨ f m = -m) →
      (offsetMinutes? cs).map (fun p => (f p.1, p.2)) = some (o, rest) →
      -1440 < o ∧ o < 1440 := by
    intro cs f hf hmap
    obtain ⟨⟨m, more⟩, hm, heq⟩ := Option.map_eq_some_iff.mp hmap
    have hlt := hminutes hm
    have ho : f m = o := (Prod.mk.inj heq).1
    rcases hf m with hsign | hsign <;> omega
  unfold offset? at h
  split at h
  · cases h
    decide
  · cases h
    decide
  · exact hsigned (f := fun m => m) (fun m => .inl rfl) h
  · exact hsigned (f := fun m => -m) (fun m => .inr rfl) h
  · exact hsigned (f := fun m => -m) (fun m => .inr rfl) h
  · split at h
    · cases h
      decide
    · cases h
  · cases h

/-- A time of day is a minute of the day with a second and nanoseconds, the leap second counted
with the second before it. -/
theorem time?_range {m s n : Nat} (h : time? cs = some ((m, s, n), rest)) :
    m < 1440 ∧ s ≤ 59 ∧ (n < 1000000000 ∨ s = 59 ∧ n < 2000000000) := by
  simp only [time?, Option.bind_eq_bind, Option.bind_eq_some_iff,
    Option.ite_none_right_eq_some, Option.some.injEq, Prod.mk.injEq] at h
  obtain ⟨_, _, _, _, _, _, _, _, ⟨second, _⟩, _, ⟨nanosecond, _⟩, hfraction, hrange,
    ⟨hm, hs, hn⟩, _⟩ := h
  have hlt := fraction?_lt hfraction
  by_cases hleap : second = 60
  · rw [if_pos hleap] at hs hn
    omega
  · rw [if_neg hleap] at hs hn
    omega

/-- Universal time is a minute of a day too. -/
theorem toUniversal_snd_lt (date : Date) {minute : Nat} {o : Int} (hminute : minute < 1440)
    (ho : -1440 < o ∧ o < 1440) : (toUniversal date minute o).2 < 1440 := by
  unfold toUniversal
  dsimp only
  split
  · omega
  · split <;> omega

/-- What is read is a valid date with a time of day, also behind an offset. -/
theorem regular_of_read? {s : String} {t : Instant} (h : read? s = some t) : t.Regular := by
  simp only [read?, Option.bind_eq_bind, Option.bind_eq_some_iff,
    Option.ite_none_right_eq_some, Option.some.injEq] at h
  obtain ⟨⟨date, _⟩, _, _, _, ⟨⟨minute, second, nanosecond⟩, _⟩, htime, ⟨o, _⟩, hoffset,
    ⟨_, _, hvalid⟩, rfl⟩ := h
  obtain ⟨hminute, hsecond, hnanosecond⟩ := time?_range htime
  exact ⟨hvalid, toUniversal_snd_lt date hminute (offset?_lt hoffset), hsecond, hnanosecond⟩

end Read

section Written

variable {cs rest : List Char} {ds : List Nat} {n : Nat}

/-- Where a text begins with no blank there is nothing to drop. -/
theorem trimLeft_cons {c : Char} (h : isWhiteSpace c = false) :
    trimLeft (c :: cs) = c :: cs := by
  rw [trimLeft, List.dropWhile_cons_of_neg (by simp [h])]

/-- A number begins with no blank. -/
theorem trimLeft_digits (h : Spells cs ds n) (hne : ds ≠ []) :
    trimLeft (cs ++ rest) = cs ++ rest := by
  obtain ⟨rfl, hdigits, -⟩ := h
  cases ds with
  | nil => exact absurd rfl hne
  | cons d ds =>
    have hall : ∀ d < 10, isWhiteSpace d.digitChar = false := by decide
    exact trimLeft_cons (hall d (hdigits d List.mem_cons_self))

/-- Digits are a number as far as they are not too many. -/
theorem number?_digits {most : Nat} (h : Spells cs ds n) (hne : ds ≠ [])
    (hlength : ds.length ≤ most) (hrest : ∀ c ∈ rest.head?, digit? c = none) :
    number? most (cs ++ rest) = some (n, rest) := by
  have hdrop : (cs ++ rest).drop ds.length = rest := by
    have hlength : (ds.map Nat.digitChar).length = ds.length := List.length_map _
    rw [h.chars, ← hlength, List.drop_left]
  rw [number?, trimLeft_digits h hne, h.takeDigits_append hrest]
  cases ds with
  | nil => exact absurd rfl hne
  | cons d ds =>
    rw [List.take_of_length_le hlength]
    simp only [h.value, ← List.length_cons (a := d), hdrop]

/-- Digits end before a character that is none. -/
theorem head_cons {c : Char} (h : digit? c = none) :
    ∀ d ∈ (c :: rest).head?, digit? d = none := by
  intro d hd
  cases hd
  exact h

/-- A padded number of the width at most. -/
theorem number?_padded {width : Nat} (hwidth : 0 < width) (hn : n < 10 ^ width)
    (hrest : ∀ c ∈ rest.head?, digit? c = none) :
    number? width ((padded width n).toList ++ rest) = some (n, rest) := by
  obtain ⟨ds, hspells, -, hlength⟩ := exists_spells_padded width n hwidth
  have hds := hlength hn
  have hne : ds ≠ [] := by
    rintro rfl
    rw [List.length_nil] at hds
    omega
  exact number?_digits hspells hne (Nat.le_of_eq hds) hrest

/-- A mark that is no blank is found in front. -/
theorem mark?_cons {c : Char} (h : isWhiteSpace c = false) : mark? c (c :: rest) = some rest := by
  simp only [mark?, trimLeft_cons h, if_true]

/-- A text put together from a character and a text begins with that character. -/
theorem cons_toList_append {c : Char} {lead s : String} (h : lead.toList = [c]) :
    (lead ++ s).toList ++ rest = c :: (s.toList ++ rest) := by
  rw [String.toList_append, h, List.append_assoc, List.singleton_append]

/-- A number does not begin with a character that is no digit. -/
theorem head_digits_ne {c : Char} (h : Spells cs ds n) (hne : ds ≠ []) (hc : digit? c = none) :
    ∀ more, cs ++ rest ≠ c :: more := by
  intro more heq
  cases ds with
  | nil => exact hne rfl
  | cons d ds =>
    rw [h.chars, List.map_cons, List.cons_append] at heq
    have hdigit := digit?_digitChar (h.digits d List.mem_cons_self)
    rw [(List.cons.inj heq).1, hc] at hdigit
    cases hdigit

/-- A year of four digits stands alone, any other behind its sign. -/
theorem year?_text (y : Int) : year? ((yearText y).toList ++ '-' :: rest) =
    some (y, '-' :: rest) := by
  have hend : ∀ c ∈ ('-' :: rest).head?, digit? c = none := head_cons rfl
  have hsigned : ∀ n, ∃ d ds, takeDigits ((padded 4 n).toList ++ '-' :: rest) =
      (d :: ds, '-' :: rest) ∧ valueOf 10 (d :: ds) = n := by
    intro n
    obtain ⟨ds, hspells, hlength, -⟩ := exists_spells_padded 4 n (by decide)
    cases ds with
    | nil => exact absurd hlength (by decide)
    | cons d ds => exact ⟨d, ds, hspells.takeDigits_append hend, hspells.value⟩
  unfold yearText
  split
  · next hy =>
    obtain ⟨ds, hspells, hlength, -⟩ := exists_spells_padded 4 y.toNat (by decide)
    have hne : ds ≠ [] := by
      rintro rfl
      exact absurd hlength (by decide)
    have hnumber : number? 4 ((padded 4 y.toNat).toList ++ '-' :: rest) =
        some (y.toNat, '-' :: rest) := number?_padded (by decide) (by omega) hend
    unfold year?
    rw [trimLeft_digits hspells hne]
    dsimp only
    split
    · next heq => exact absurd heq (head_digits_ne hspells hne rfl _)
    · next heq => exact absurd heq (head_digits_ne hspells hne rfl _)
    · simp only [hnumber, Option.map_some, Int.toNat_of_nonneg hy.1]
  · split
    · next hneg =>
      obtain ⟨d, ds, htake, hvalue⟩ := hsigned y.natAbs
      have htext : ("-" ++ padded 4 y.natAbs).toList ++ '-' :: rest =
          '-' :: ((padded 4 y.natAbs).toList ++ '-' :: rest) := cons_toList_append rfl
      have habs : -(y.natAbs : Int) = y := by omega
      rw [htext, year?, trimLeft_cons (by decide)]
      simp only [htake, hvalue, Option.map_some, habs]
    · next hneg =>
      obtain ⟨d, ds, htake, hvalue⟩ := hsigned y.natAbs
      have htext : ("+" ++ padded 4 y.natAbs).toList ++ '-' :: rest =
          '+' :: ((padded 4 y.natAbs).toList ++ '-' :: rest) := cons_toList_append rfl
      have habs : (y.natAbs : Int) = y := by omega
      rw [htext, year?, trimLeft_cons (by decide)]
      simp only [htake, hvalue, Option.map_some, habs]

/-- The shortest exact fraction has three, six or nine digits. -/
theorem fraction?_text {n : Nat} (hn : n < 1000000000) :
    fraction? ((fractionText n).toList ++ 'Z' :: rest) = some (n, 'Z' :: rest) := by
  have hdigits : ∀ {width m}, 0 < width → width ≤ 9 → m < 10 ^ width →
      m * 10 ^ (9 - width) = n →
      fraction? (("." ++ padded width m).toList ++ 'Z' :: rest) = some (n, 'Z' :: rest) := by
    intro width m hpos hwidth hm hvalue
    obtain ⟨ds, hspells, -, hlength⟩ := exists_spells_padded width m hpos
    have hds := hlength hm
    have htake : takeDigits ((padded width m).toList ++ 'Z' :: rest) = (ds, 'Z' :: rest) :=
      hspells.takeDigits_append (head_cons rfl)
    have htext : ("." ++ padded width m).toList ++ 'Z' :: rest =
        '.' :: ((padded width m).toList ++ 'Z' :: rest) := cons_toList_append rfl
    rw [htext, fraction?, htake]
    cases ds with
    | nil =>
      rw [List.length_nil] at hds
      omega
    | cons d ds =>
      have hpow : m * Nat.pow 10 (9 - width) = n := hvalue
      simp only [List.take_of_length_le (Nat.le_trans (Nat.le_of_eq hds) hwidth), hds,
        hspells.value, hpow]
  unfold fractionText
  split
  · next hzero =>
    rw [hzero]
    rfl
  · split
    · exact hdigits (by decide) (by decide) (by omega) (by omega)
    · split
      · exact hdigits (by decide) (by decide) (by omega) (by omega)
      · exact hdigits (by decide) (by decide) hn (by omega)

/-- The written form of a date is read back. -/
theorem date?_text (date : Date) (rest : List Char) (hmonth : date.month < 100)
    (hday : date.day < 100) :
    date? ((yearText date.year).toList ++ '-' :: ((padded 2 date.month).toList ++
      '-' :: ((padded 2 date.day).toList ++ 'T' :: rest))) = some (date, 'T' :: rest) := by
  have hmonth? : ∀ more, number? 2 ((padded 2 date.month).toList ++ '-' :: more) =
      some (date.month, '-' :: more) :=
    fun more => number?_padded (by decide) hmonth (head_cons rfl)
  have hday? : number? 2 ((padded 2 date.day).toList ++ 'T' :: rest) =
      some (date.day, 'T' :: rest) := number?_padded (by decide) hday (head_cons rfl)
  simp only [date?, year?_text, mark?_cons (c := '-') (by decide), hmonth?, hday?,
    Option.bind_eq_bind, Option.bind_some]

/-- The seconds end where their fraction begins, or the zone where there is none. -/
theorem head_fractionText (n : Nat) :
    ∀ c ∈ ((fractionText n).toList ++ 'Z' :: rest).head?, digit? c = none := by
  have hpoint : ∀ s : String, ∀ c ∈ (("." ++ s).toList ++ 'Z' :: rest).head?,
      digit? c = none := by
    intro s
    rw [cons_toList_append (c := '.') rfl]
    exact head_cons rfl
  unfold fractionText
  split
  · exact head_cons rfl
  · split
    · exact hpoint _
    · split <;> exact hpoint _

/-- A time of day is read as written, second 60 as a leap second. -/
theorem time?_clock {hour minute second f : Nat} (hhour : hour ≤ 23) (hminute : minute ≤ 59)
    (hsecond : second ≤ 60) (hf : f < 1000000000) :
    time? ((padded 2 hour).toList ++ ':' :: ((padded 2 minute).toList ++
      ':' :: ((padded 2 second).toList ++ ((fractionText f).toList ++ 'Z' :: rest)))) =
      some ((hour * 60 + minute, if second = 60 then 59 else second,
        if second = 60 then f + 1000000000 else f), 'Z' :: rest) := by
  have hnumber : ∀ n, n < 100 → ∀ more, number? 2 ((padded 2 n).toList ++ ':' :: more) =
      some (n, ':' :: more) := fun n hn more => number?_padded (by decide) hn (head_cons rfl)
  have hsecond? : number? 2 ((padded 2 second).toList ++ ((fractionText f).toList ++
      'Z' :: rest)) = some (second, (fractionText f).toList ++ 'Z' :: rest) :=
    number?_padded (by decide) (by omega) (head_fractionText f)
  simp only [time?, hnumber hour (by omega), hnumber minute (by omega), hsecond?,
    fraction?_text hf, mark?_cons (c := ':') (by decide), Option.bind_eq_bind, Option.bind_some,
    if_pos (And.intro hhour (And.intro hminute hsecond))]

/-- A time of day with its second and nanoseconds is read back, a leap second as such. -/
theorem time?_text {minute second nanosecond : Nat} (rest : List Char)
    (hminute : minute < 1440) (hsecond : second ≤ 59)
    (hnanosecond : nanosecond < 1000000000 ∨ second = 59 ∧ nanosecond < 2000000000) :
    time? ((padded 2 (minute / 60)).toList ++ ':' :: ((padded 2 (minute % 60)).toList ++
      ':' :: ((padded 2 (if nanosecond < 1000000000 then second else second + 1)).toList ++
        ((fractionText (nanosecond % 1000000000)).toList ++ 'Z' :: rest)))) =
      some ((minute, second, nanosecond), 'Z' :: rest) := by
  have hclock : minute / 60 * 60 + minute % 60 = minute := by omega
  have hfraction : nanosecond % 1000000000 < 1000000000 := Nat.mod_lt _ (by decide)
  by_cases hleap : nanosecond < 1000000000
  · have hmod : nanosecond % 1000000000 = nanosecond := Nat.mod_eq_of_lt hleap
    have hbefore : second ≠ 60 := by omega
    rw [if_pos hleap, time?_clock (by omega) (by omega) (by omega) hfraction, hclock,
      if_neg hbefore, if_neg hbefore, hmod]
  · have hlast : second + 1 = 60 ∧ second = 59 := by omega
    have hmod : nanosecond % 1000000000 + 1000000000 = nanosecond := by omega
    rw [if_neg hleap, time?_clock (by omega) (by omega) (by omega) hfraction, hclock,
      if_pos hlast.1, if_pos hlast.1, hmod, hlast.2]

/-- An instant that can be read is read back from its written form. -/
theorem read?_text {t : Instant} (h : t.Regular) : read? t.text = some t := by
  obtain ⟨⟨year, month, day⟩, minute, second, nanosecond⟩ := t
  obtain ⟨hdate, hminute, hsecond, hnanosecond⟩ := h
  dsimp only at hdate hminute hsecond hnanosecond
  have hrange : month < 100 ∧ day < 100 := by
    have hdays := Date.daysInMonth_le year month
    simp only [Date.isValid, Bool.and_eq_true, decide_eq_true_eq] at hdate
    omega
  have hhyphen : "-".toList = ['-'] := rfl
  have hcolon : ":".toList = [':'] := rfl
  have hseparator : "T".toList = ['T'] := rfl
  have hzone : "Z".toList = ['Z'] := rfl
  have hdate? : ∀ rest, date? ((yearText year).toList ++ '-' :: ((padded 2 month).toList ++
      '-' :: ((padded 2 day).toList ++ 'T' :: rest))) = some (⟨year, month, day⟩, 'T' :: rest) :=
    fun rest => date?_text ⟨year, month, day⟩ rest hrange.1 hrange.2
  have htime? := time?_text [] hminute hsecond hnanosecond
  simp only [read?, text, String.toList_append, List.append_assoc, hhyphen, hcolon, hseparator,
    hzone, List.cons_append, List.nil_append, Option.bind_eq_bind] at hdate? ⊢
  simp only [hdate?, separator?, true_or, if_true, Option.bind_some, htime?]
  have hoffset : offset? ['Z'] = some (0, []) := rfl
  simp only [hoffset, Option.bind_some, toUniversal_zero _ hminute, hdate, true_and, and_true]
  rfl

end Written

/-- Whatever an instant is read from, it is read back from its written form. -/
theorem read?_text_of_read? {s : String} {t : Instant} (h : read? s = some t) :
    read? t.text = some t := read?_text (regular_of_read? h)

end ApiExposure.Instant
