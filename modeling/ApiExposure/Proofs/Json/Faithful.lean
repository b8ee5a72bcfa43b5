import ApiExposure.Role
import ApiExposure.Proofs.Json.Canonical

/-!
# Faithful forms

A form is faithful to a decoder when whatever the decoder gives, its form fits
where the draft fitted, is canonical and is decoded to the same value, as it
stands or collected. A form may need some depth of its own, for an empty list
that the draft left out. Lists of a faithful form are faithful. A faithful form
reproduces whatever is decoded from a text.
-/

namespace ApiExposure

namespace Draft

/-- A value as a decoder meets it: as its draft, or as its draft collected. -/
def asRead (collect : Bool) (v : Json) : Draft :=
  if collect then (ofJson v).collected else ofJson v

variable {b : Bool}

/-- A text is met as itself. -/
theorem asRead_str (s : String) : asRead b (.str s) = .str s := by cases b <;> rfl

/-- An integer is met as itself. -/
theorem asRead_int (z : Int) : asRead b (.int z) = .int z := by cases b <;> rfl

/-- An array is met item by item. -/
theorem asRead_arr (vs : List Json) : asRead b (.arr vs) = .arr (vs.map (asRead b)) true := by
  cases b
  · rw [asRead, if_neg (by decide), ofJson, ofItems_eq_map]
    rfl
  · rw [asRead, if_pos rfl, ofJson, collected, ofItems_eq_map, collectedItems_eq_map,
      List.map_map]
    rfl

/-- The object without members is marked when it is collected. -/
theorem asRead_obj (ms : List (String × Json)) :
    asRead b (.obj ms) =
      if b = true ∧ ms = [] then .void
      else .obj (ms.map (fun m => (some m.1, asRead b m.2))) true := by
  cases b
  · rw [asRead, if_neg (by decide), if_neg (by simp), ofJson, ofMembers_eq_map]
    rfl
  · rw [asRead, if_pos rfl, ofJson, collected_obj, ofMembers_eq_map]
    simp only [List.map_eq_nil_iff, and_true, true_and, collectedMembers_eq_map, List.map_map]
    rfl

/-- A canonical value is still there when it is met as a draft. -/
theorem value?_asRead {v : Json} (h : v.Canonical) : (asRead b v).value? = some v := by
  cases b
  · exact value?_ofJson v h
  · exact (value?_collected _).trans (value?_ofJson v h)

/-- Only `null` is met as `null`. -/
theorem asRead_ne_null {v : Json} (h : v ≠ .null) : asRead b v ≠ .null := by
  cases v with
  | null => exact absurd rfl h
  | bool => cases b <;> nofun
  | int => cases b <;> nofun
  | real => cases b <;> nofun
  | str => cases b <;> nofun
  | arr => rw [asRead_arr]; nofun
  | obj =>
    rw [asRead_obj]
    split <;> nofun

end Draft

open Draft (asRead)

/-- A value keeps in a form: the form fits, is canonical and is decoded to the value. -/
structure Keeps {α : Type} (decode : Decoder α) (form : α → Json) (n : Nat) (a : α) : Prop where
  fits : (form a).Fits n
  canonical : (form a).Canonical
  decodes : ∀ b, decode (asRead b (form a)) = .ok a

/-- What is decoded from a draft that fits keeps in the form, and only `null` becomes `null`.
The form may need a depth of its own. -/
structure Faithful {α : Type} (need : Nat) (decode : Decoder α) (form : α → Json) : Prop where
  keeps : ∀ {n d a}, need ≤ n → d.Fits n → decode d = .ok a → Keeps decode form n a
  ne_null : ∀ {n d a}, need ≤ n → d.Fits n → decode d = .ok a → d ≠ .null → form a ≠ .null

/-- What is decoded from a draft of at most the greatest depth has a form of at most that
depth, which is decoded to it. -/
def Reproduces {α : Type} (decode : Decoder α) (form : α → Json) : Prop :=
  ∀ d a, d.Fits Json.deepest → decode d = .ok a →
    (form a).Fits Json.deepest ∧ decode (.ofJson (form a)) = .ok a

/-- A faithful form reproduces what is decoded, if its own depth is not too great. -/
theorem Faithful.reproduces {α : Type} {need : Nat} {decode : Decoder α} {form : α → Json}
    (h : Faithful need decode form) (hneed : need ≤ Json.deepest) : Reproduces decode form := by
  intro d a hfits hd
  have hkeeps := h.keeps hneed hfits hd
  exact ⟨hkeeps.fits, hkeeps.decodes false⟩

namespace Decoder

variable {α : Type} {need : Nat}

/-- Two steps succeed exactly when the first does and the second does with its value. -/
theorem bind_eq_ok_iff {β : Type} {x : Except DecodeFailure α}
    {f : α → Except DecodeFailure β} {b : β} :
    (x >>= f) = .ok b ↔ ∃ a, x = .ok a ∧ f a = .ok b := by
  cases x with
  | error e => simp [bind, Except.bind]
  | ok a => simp [bind, Except.bind]

/-- A changed result comes from a result. -/
theorem map_eq_ok_iff {β : Type} {x : Except DecodeFailure α} {f : α → β} {b : β} :
    x.map f = .ok b ↔ ∃ a, x = .ok a ∧ f a = b := by
  cases x with
  | error e => simp [Except.map]
  | ok a => simp [Except.map]

/-- A value keeps in a text that is decoded to it. -/
theorem keeps_of_str {decode : Decoder α} {text : α → String} {n : Nat} {a : α}
    (h : decode (.str (text a)) = .ok a) : Keeps decode (fun a => .str (text a)) n a :=
  ⟨trivial, trivial, fun b => by rw [Draft.asRead_str]; exact h⟩

/-- A form that is a text. -/
theorem faithful_of_str {decode : Decoder α} (text : α → String)
    (h : ∀ {d a}, decode d = .ok a → decode (.str (text a)) = .ok a) :
    Faithful need decode (fun a => .str (text a)) where
  keeps := fun _ _ hd => keeps_of_str (h hd)
  ne_null := fun _ _ _ _ => nofun

/-- Texts. -/
theorem faithful_text : Faithful need text .str := faithful_of_str id fun _ => rfl

/-- Names of a few values, each found by its own name. -/
theorem faithful_named {all : List α} {name : α → String}
    (h : ∀ a, named all name (.str (name a)) = .ok a) :
    Faithful need (named all name) (fun a => .str (name a)) :=
  faithful_of_str name fun _ => h _

/-- Texts that a reader accepts and that it reads again as written. -/
theorem faithful_parsed {read : String → Option α} (text : α → String)
    (h : ∀ {s a}, read s = some a → read (text a) = some a) :
    Faithful need (parsed read) (fun a => .str (text a)) := by
  refine faithful_of_str text fun {d a} hd => ?_
  have hread : ∃ s, read s = some a := by
    obtain ⟨s, _, hs⟩ := bind_eq_ok_iff.mp hd
    refine ⟨s, ?_⟩
    split at hs
    · next heq =>
      cases hs
      exact heq
    · cases hs
  obtain ⟨s, hs⟩ := hread
  simp only [parsed, Decoder.text, bind, Except.bind, h hs]

/-- Integers up to a bound within 64 bits. -/
theorem faithful_natUpTo {bound : Nat} (hbound : bound ≤ Word.greatest) :
    Faithful need (natUpTo bound) (fun n => .int n) where
  keeps := by
    intro n d m _ _ hd
    have hm : m ≤ bound := by
      cases d with
      | int z =>
        rw [natUpTo] at hd
        split at hd
        · next hz =>
          cases hd
          omega
        · cases hd
      | _ => cases hd
    have hrange : (0 : Int) ≤ m ∧ (m : Int) ≤ bound := by omega
    refine ⟨⟨?_, ?_⟩, trivial, fun b => ?_⟩
    · have hleast : Word.leastSigned ≤ 0 := by decide
      omega
    · omega
    · rw [Draft.asRead_int, natUpTo, if_pos hrange]
      rfl
  ne_null := fun _ _ _ _ => nofun

/-- Any JSON stands for itself. -/
theorem faithful_json : Faithful need json id := by
  have hvalue : ∀ {d : Draft} {v : Json}, json d = .ok v → d.value? = some v := by
    intro d v hd
    unfold json at hd
    split at hd
    · next w hw =>
      cases hd
      exact hw
    · cases hd
  refine ⟨fun {n d v} _ hfits hd => ?_, fun {n d v} _ _ hd hnull hv => ?_⟩
  · have hcanonical : v.Canonical := Draft.canonical_of_value? d (hvalue hd)
    refine ⟨Draft.fits_of_value? d (hvalue hd) hfits, hcanonical, fun b => ?_⟩
    rw [id, json, Draft.value?_asRead hcanonical]
  · have hd := hvalue hd
    rw [show v = .null from hv] at hd
    cases d with
    | null => exact hnull rfl
    | arr items closed =>
      rw [Draft.value?] at hd
      split at hd
      · obtain ⟨_, _, hw⟩ := Option.map_eq_some_iff.mp hd
        cases hw
      · cases hd
    | obj members closed =>
      rw [Draft.value?] at hd
      split at hd
      · obtain ⟨_, _, hw⟩ := Option.map_eq_some_iff.mp hd
        cases hw
      · cases hd
    | _ => cases hd

/-- Every value of an array comes from an item. -/
theorem exists_of_mem_items {decode : Decoder α} {closed : Bool} {ds : List Draft}
    {as : List α} (h : items decode closed ds = .ok as) :
    ∀ a ∈ as, ∃ d ∈ ds, decode d = .ok a := by
  induction ds generalizing as with
  | nil =>
    rw [items] at h
    split at h
    · cases h
      exact List.forall_mem_nil _
    · cases h
  | cons d ds ih =>
    rw [items] at h
    obtain ⟨a, hd, h⟩ := bind_eq_ok_iff.mp h
    obtain ⟨rest, hds, h⟩ := bind_eq_ok_iff.mp h
    cases h
    refine List.forall_mem_cons.mpr ⟨⟨d, List.mem_cons_self, hd⟩, fun a' ha' => ?_⟩
    obtain ⟨d', hd', hda'⟩ := ih hds a' ha'
    exact ⟨d', List.mem_cons_of_mem d hd', hda'⟩

/-- An array of drafts, each decoded to its own value, is decoded to the values. -/
theorem items_map {decode : Decoder α} {draft : α → Draft} {as : List α}
    (h : ∀ a ∈ as, decode (draft a) = .ok a) : items decode true (as.map draft) = .ok as := by
  induction as with
  | nil => rfl
  | cons a as ih =>
    rw [List.forall_mem_cons] at h
    simp only [List.map_cons, items, h.1, ih h.2, bind, Except.bind]

/-- A list keeps one level above its items. -/
theorem keeps_list {decode : Decoder α} {form : α → Json} {n : Nat} {as : List α}
    (h : ∀ a ∈ as, Keeps decode form n a) : Keeps (list decode) (.ofList form) (n + 1) as where
  fits := Json.fits_arr.mpr ⟨n.succ_pos, List.forall_mem_map.mpr fun a ha => (h a ha).fits⟩
  canonical := Json.canonical_arr.mpr (List.forall_mem_map.mpr fun a ha => (h a ha).canonical)
  decodes := by
    intro b
    rw [Json.ofList, Draft.asRead_arr, List.map_map]
    exact items_map fun a ha => (h a ha).decodes b

/-- Each value of an array is read from a draft one level below. -/
theorem exists_of_mem_list {decode : Decoder α} {n : Nat} {d : Draft} {as : List α}
    (hfits : d.Fits n) (h : list decode d = .ok as) :
    0 < n ∧ ∀ a ∈ as, ∃ e : Draft, e.Fits (n - 1) ∧ decode e = .ok a := by
  cases d with
  | arr ds closed =>
    refine ⟨hfits.1, fun a ha => ?_⟩
    obtain ⟨e, he, hea⟩ := exists_of_mem_items h a ha
    exact ⟨e, Draft.itemsFit_iff.mp hfits.2 e he, hea⟩
  | _ => cases h

/-- Lists of a faithful form. -/
theorem faithful_list {decode : Decoder α} {form : α → Json} (h : Faithful need decode form) :
    Faithful (need + 1) (list decode) (.ofList form) where
  keeps := by
    intro n d as hneed hfits hd
    obtain ⟨hpos, hitems⟩ := exists_of_mem_list hfits hd
    have hkeeps : Keeps (list decode) (.ofList form) (n - 1 + 1) as := by
      refine keeps_list fun a ha => ?_
      obtain ⟨e, he, hea⟩ := hitems a ha
      exact h.keeps (by omega) he hea
    rwa [Nat.sub_add_cancel hpos] at hkeeps
  ne_null := fun _ _ _ _ => nofun

end Decoder

end ApiExposure
