import Mathlib.Data.List.Forall2
import ApiExposure.Proofs.Json.Faithful

/-!
# Forms of records

The form of a record writes some of the fields that the record reads, in any
order. A record is followed field by field in the order of its declaration:
whatever a field was read from, its form passes the check of that field and
gives its value back, and a field that is left out has its fallback for value.
From this the form of the whole record is faithful, because an object holds
its members by distinct keys.
-/

namespace ApiExposure

open Draft (asRead)
open Decoder (bind_eq_ok_iff map_eq_ok_iff)

namespace Record

variable {α β : Type}

/-- A value comes from written fields or from items, all of which fit. -/
def Reads (r : Record α) (n : Nat) (a : α) : Prop :=
  (∃ written, (∀ name d, written name = some d → d.Fits n) ∧ r.ofMembers written = .ok a) ∨
    ∃ items closed rest, (∀ d ∈ items, d.Fits n) ∧ r.ofItems items closed = .ok (a, rest)

/-- The written values of the fields, in the order of the fields; `none` for a field that is
left out. Each passes the check of its field, and together they give the value back. -/
structure Writes (r : Record α) (n : Nat) (a : α) (slots : List (String × Option Json)) :
    Prop where
  fields : List.Forall₂ (fun f s => f.1 = s.1 ∧
    ∀ v ∈ s.2, v.Fits n ∧ v.Canonical ∧ ∀ b, f.2 (asRead b v) = .ok ()) r.fields slots
  ofMembers : ∀ b written, (∀ s ∈ slots, written s.1 = s.2.map (asRead b)) →
    r.ofMembers written = .ok a

/-- The members that a written field puts into an object. -/
def members (slot : String × Option Json) : List (String × Json) :=
  Json.optionalMember slot.1 id slot.2

/-- Whatever a record is read from, it is written in groups of members that have a property. -/
structure Tracks (need : Nat) (r : Record α)
    (form : α → List (List (String × Json)) → Prop) : Prop where
  subset : ∀ {items closed a rest}, r.ofItems items closed = .ok (a, rest) → rest ⊆ items
  writes : ∀ {n a}, need ≤ n → r.Reads n a →
    ∃ slots, r.Writes n a slots ∧ form a (slots.map members)

/-- What follows from a property of the groups is tracked as well. -/
theorem Tracks.imp {need : Nat} {r : Record α} {p q : α → List (List (String × Json)) → Prop}
    (h : Tracks need r p) (himp : ∀ a groups, p a groups → q a groups) : Tracks need r q where
  subset := h.subset
  writes := by
    intro n a hneed hread
    obtain ⟨slots, hwrites, hp⟩ := h.writes hneed hread
    exact ⟨slots, hwrites, himp a _ hp⟩

section Fields

variable {need : Nat} {name : String} {decode : Decoder α} {form : α → Json}

/-- A record without fields writes nothing. -/
theorem Writes.pure (n : Nat) (a : α) : (Record.pure a).Writes n a [] :=
  ⟨.nil, fun _ _ _ => rfl⟩

/-- One record after the other writes the fields of both. -/
theorem Writes.seq {f : Record (α → β)} {x : Record α} {n : Nat} {g : α → β} {a : α}
    {first second : List (String × Option Json)} (hf : f.Writes n g first)
    (hx : x.Writes n a second) : (Record.seq f x).Writes n (g a) (first ++ second) where
  fields := List.rel_append hf.fields hx.fields
  ofMembers := by
    intro b written hwritten
    rw [List.forall_mem_append] at hwritten
    exact bind_eq_ok_iff.mpr ⟨g, hf.ofMembers b written hwritten.1,
      bind_eq_ok_iff.mpr ⟨a, hx.ofMembers b written hwritten.2, rfl⟩⟩

/-- A record without fields has one value. -/
theorem eq_of_reads_pure {n : Nat} {a b : α} (h : (Record.pure a).Reads n b) : b = a := by
  rcases h with ⟨_, _, hread⟩ | ⟨_, _, _, _, hread⟩
  · cases hread
    rfl
  · cases hread
    rfl

/-- It takes no item. -/
theorem subset_of_ofItems_pure {a b : α} {items rest : List Draft} {closed : Bool}
    (h : (Record.pure a).ofItems items closed = .ok (b, rest)) : rest ⊆ items := by
  cases h
  exact List.Subset.refl _

/-- A record without fields writes nothing. -/
theorem Tracks.pure {a : α} {form : α → List (List (String × Json)) → Prop} (h : form a []) :
    Tracks need (Record.pure a) form where
  subset := subset_of_ofItems_pure
  writes := by
    intro n b _ hread
    obtain rfl := eq_of_reads_pure hread
    exact ⟨[], .pure n b, h⟩

/-- Two records one after the other are read from the same members. -/
theorem ofMembers_seq_eq_ok {f : Record (α → β)} {x : Record α}
    {written : String → Option Draft} {b : β} (h : (Record.seq f x).ofMembers written = .ok b) :
    ∃ g a, f.ofMembers written = .ok g ∧ x.ofMembers written = .ok a ∧ b = g a := by
  obtain ⟨g, hg, h⟩ := bind_eq_ok_iff.mp h
  obtain ⟨a, ha, h⟩ := bind_eq_ok_iff.mp h
  cases h
  exact ⟨g, a, hg, ha, rfl⟩

/-- Of two records one after the other the second is read from the items that the first leaves. -/
theorem ofItems_seq_eq_ok {f : Record (α → β)} {x : Record α} {items rest : List Draft}
    {closed : Bool} {b : β} (h : (Record.seq f x).ofItems items closed = .ok (b, rest)) :
    ∃ g more a, f.ofItems items closed = .ok (g, more) ∧
      x.ofItems more closed = .ok (a, rest) ∧ b = g a := by
  obtain ⟨⟨g, more⟩, hg, h⟩ := bind_eq_ok_iff.mp h
  obtain ⟨⟨a, rest⟩, ha, h⟩ := bind_eq_ok_iff.mp h
  cases h
  exact ⟨g, more, a, hg, ha, rfl⟩

/-- Reading two records is reading one and then, from what is left, the other. -/
theorem reads_seq {f : Record (α → β)} {x : Record α} {n : Nat} {b : β}
    (hf : ∀ {items closed g rest}, f.ofItems items closed = .ok (g, rest) → rest ⊆ items)
    (h : (Record.seq f x).Reads n b) : ∃ g a, f.Reads n g ∧ x.Reads n a ∧ b = g a := by
  rcases h with ⟨written, hfits, hread⟩ | ⟨items, closed, rest, hfits, hread⟩
  · obtain ⟨g, a, hg, ha, hb⟩ := ofMembers_seq_eq_ok hread
    exact ⟨g, a, .inl ⟨written, hfits, hg⟩, .inl ⟨written, hfits, ha⟩, hb⟩
  · obtain ⟨g, more, a, hg, ha, hb⟩ := ofItems_seq_eq_ok hread
    have hmore : ∀ d ∈ more, d.Fits n := fun d hd => hfits d (hf hg hd)
    exact ⟨g, a, .inr ⟨items, closed, more, hfits, hg⟩, .inr ⟨more, closed, rest, hmore, ha⟩, hb⟩

/-- One field more writes one group more. -/
theorem Tracks.seq {f : Record (α → β)} {x : Record α} {group : α → List (String × Json)}
    {form : β → List (List (String × Json)) → Prop}
    (hf : Tracks need f fun g groups => ∀ a, form (g a) (groups ++ [group a]))
    (hx : Tracks need x fun a groups => groups = [group a]) :
    Tracks need (Record.seq f x) form where
  subset := by
    intro items closed b rest hread
    obtain ⟨g, more, a, hg, ha, -⟩ := ofItems_seq_eq_ok hread
    exact List.Subset.trans (hx.subset ha) (hf.subset hg)
  writes := by
    intro n b hneed hread
    obtain ⟨g, a, hg, ha, rfl⟩ := reads_seq hf.subset hread
    obtain ⟨first, hfirst, hform⟩ := hf.writes hneed hg
    obtain ⟨second, hsecond, hgroup⟩ := hx.writes hneed ha
    refine ⟨first ++ second, hfirst.seq hsecond, ?_⟩
    rw [List.map_append, hgroup]
    exact hform a

/-- A field takes the first item, if there is one, or it is left out. -/
theorem ofItems_field_eq_ok {missing : Except DecodeFailure α} {items rest : List Draft}
    {closed : Bool} {a : α} (h : (field name decode missing).ofItems items closed = .ok (a, rest)) :
    rest ⊆ items ∧ ((∃ d ∈ items, decode d = .ok a) ∨ missing = .ok a) := by
  cases items with
  | nil =>
    cases closed with
    | false => cases h
    | true =>
      obtain ⟨a', hmissing, heq⟩ := map_eq_ok_iff.mp h
      cases heq
      exact ⟨List.Subset.refl _, .inr hmissing⟩
  | cons d ds =>
    obtain ⟨a', hd, heq⟩ := map_eq_ok_iff.mp h
    cases heq
    exact ⟨List.subset_cons_self d _, .inl ⟨d, List.mem_cons_self, hd⟩⟩

/-- A field is read from a draft that fits, or it is left out. -/
theorem reads_field {missing : Except DecodeFailure α} {n : Nat} {a : α}
    (h : (field name decode missing).Reads n a) :
    (∃ d : Draft, d.Fits n ∧ decode d = .ok a) ∨ missing = .ok a := by
  rcases h with ⟨written, hfits, hread⟩ | ⟨items, closed, rest, hfits, hread⟩
  · cases hwritten : written name with
    | none =>
      simp only [field, hwritten] at hread
      exact .inr hread
    | some d =>
      simp only [field, hwritten] at hread
      exact .inl ⟨d, hfits name d hwritten, hread⟩
  · rcases (ofItems_field_eq_ok hread).2 with ⟨d, hmem, hd⟩ | hmissing
    · exact .inl ⟨d, hfits d hmem, hd⟩
    · exact .inr hmissing

/-- A field that is written. -/
theorem writes_field {missing : Except DecodeFailure α} {n : Nat} {a : α}
    (h : Keeps decode form n a) :
    (field name decode missing).Writes n a [(name, some (form a))] where
  fields := by
    refine .cons ⟨rfl, fun v hv => ?_⟩ .nil
    cases hv
    exact ⟨h.fits, h.canonical, fun b => map_eq_ok_iff.mpr ⟨a, h.decodes b, rfl⟩⟩
  ofMembers := by
    intro b written hwritten
    have hname : written name = some (asRead b (form a)) :=
      hwritten _ (List.mem_singleton.mpr rfl)
    simp only [field, hname, h.decodes b]

/-- A field that is left out. -/
theorem omits_field {missing : Except DecodeFailure α} {n : Nat} {a : α}
    (h : missing = .ok a) : (field name decode missing).Writes n a [(name, none)] where
  fields := .cons ⟨rfl, fun v hv => by cases hv⟩ .nil
  ofMembers := by
    intro b written hwritten
    have hname : written name = none := hwritten _ (List.mem_singleton.mpr rfl)
    simp only [field, hname, h]

/-- An optional field that is written. -/
theorem writes_present {n : Nat} {a : α} (h : Keeps decode form n a) (hnull : form a ≠ .null) :
    (optional name decode).Writes n (some a) [(name, some (form a))] := by
  have hkeeps : Keeps (Decoder.orNone decode) (Json.orNull form) n (some a) := by
    refine ⟨h.fits, h.canonical, fun b => ?_⟩
    unfold Decoder.orNone
    split
    · next heq => exact absurd heq (Draft.asRead_ne_null hnull)
    · exact map_eq_ok_iff.mpr ⟨a, h.decodes b, rfl⟩
  exact writes_field hkeeps

/-- A field that has to be written and always is. -/
theorem tracks_required (h : Faithful need decode form) :
    Tracks need (required name decode) fun a groups => groups = [Json.member name (form a)] where
  subset := fun h => (ofItems_field_eq_ok h).1
  writes := by
    intro n a hneed hread
    rcases reads_field hread with ⟨d, hfits, hd⟩ | hmissing
    · exact ⟨_, writes_field (h.keeps hneed hfits hd), rfl⟩
    · cases hmissing

/-- A field with a fallback that is always written, the fallback too. -/
theorem tracks_withDefault {value : α} (h : Faithful need decode form)
    (hvalue : ∃ d : Draft, (∀ n, need ≤ n → d.Fits n) ∧ decode d = .ok value) :
    Tracks need (withDefault name decode value)
      fun a groups => groups = [Json.member name (form a)] where
  subset := fun h => (ofItems_field_eq_ok h).1
  writes := by
    intro n a hneed hread
    rcases reads_field hread with ⟨d, hfits, hd⟩ | hmissing
    · exact ⟨_, writes_field (h.keeps hneed hfits hd), rfl⟩
    · obtain ⟨d, hfits, hd⟩ := hvalue
      cases hmissing
      exact ⟨_, writes_field (h.keeps hneed (hfits n hneed) hd), rfl⟩

/-- A field that may be left out or be `null` and is left out when it has no value. -/
theorem tracks_optional (h : Faithful need decode form) :
    Tracks need (optional name decode)
      fun a groups => groups = [Json.optionalMember name form a] where
  subset := fun h => (ofItems_field_eq_ok h).1
  writes := by
    intro n a hneed hread
    cases a with
    | none => exact ⟨_, omits_field rfl, rfl⟩
    | some a =>
      rcases reads_field hread with ⟨d, hfits, hd⟩ | hmissing
      · have hsome : decode d = .ok a ∧ d ≠ .null := by
          unfold Decoder.orNone at hd
          split at hd
          · cases hd
          · next hnull =>
            obtain ⟨a', ha, heq⟩ := map_eq_ok_iff.mp hd
            cases heq
            exact ⟨ha, hnull⟩
        have hkeeps : Keeps decode form n a := h.keeps hneed hfits hsome.1
        have hnull : form a ≠ .null := h.ne_null hneed hfits hsome.1 hsome.2
        exact ⟨_, writes_present hkeeps hnull, rfl⟩
      · cases hmissing

/-- A list that may be left out and is left out when it is empty. -/
theorem tracks_list (h : Faithful need decode form) :
    Tracks (need + 1) (withDefault name (.list decode) [])
      fun as groups => groups = [Json.listMember name form as] where
  subset := fun h => (ofItems_field_eq_ok h).1
  writes := by
    intro n as hneed hread
    cases as with
    | nil => exact ⟨_, omits_field rfl, rfl⟩
    | cons a as =>
      rcases reads_field hread with ⟨d, hfits, hd⟩ | hmissing
      · exact ⟨_, writes_field ((Decoder.faithful_list h).keeps hneed hfits hd), rfl⟩
      · cases hmissing

/-- A text that may be left out but is always written. -/
theorem tracks_defaultText : Tracks need (withDefault name .text "")
    fun s groups => groups = [Json.member name (.str s)] :=
  tracks_withDefault Decoder.faithful_text ⟨.str "", fun _ _ => trivial, rfl⟩

/-- A list that may be left out but is always written. -/
theorem tracks_defaultList (h : Faithful need decode form) :
    Tracks (need + 1) (withDefault name (.list decode) [])
      fun as groups => groups = [Json.member name (.ofList form as)] :=
  tracks_withDefault (Decoder.faithful_list h)
    ⟨.arr [] true, fun n hn => ⟨by omega, trivial⟩, rfl⟩

end Fields

section Objects

variable {fields : List (String × (Draft → Except DecodeFailure Unit))}
  {slots : List (String × Option Json)} {ms : List (String × Json)} {draft : Json → Draft}

/-- Members of distinct keys are all accepted when each passes the check of its field or, where
the key is not known, the one for such members. -/
theorem walk_eq_ok {unknown : Draft → Except DecodeFailure Unit} {seen : List String}
    (hfields : (fields.map (·.1)).Nodup) (hms : (ms.map (·.1)).Nodup)
    (hseen : ∀ m ∈ ms, m.1 ∉ seen)
    (h : ∀ m ∈ ms, (∃ f ∈ fields, f.1 = m.1 ∧ f.2 (draft m.2) = .ok ()) ∨
      m.1 ∉ fields.map (·.1) ∧ unknown (draft m.2) = .ok ()) :
    walk fields unknown true (ms.map (fun m => (some m.1, draft m.2))) seen = .ok () := by
  induction ms generalizing seen with
  | nil => rfl
  | cons m ms ih =>
    rw [List.map_cons, List.nodup_cons] at hms
    rw [List.forall_mem_cons] at hseen h
    rcases h.1 with ⟨f, hf, hname, hcheck⟩ | ⟨hother, hunknown⟩
    case inr =>
      have hfind : fields.find? (fun g => g.1 == m.1) = none := by
        refine List.find?_eq_none.mpr fun g hg hkey => hother ?_
        exact List.mem_map.mpr ⟨g, hg, by simpa using hkey⟩
      simp only [List.map_cons, walk, hfind, hunknown, bind, Except.bind]
      exact ih hms.2 hseen.2 h.2
    have hfind : fields.find? (fun g => g.1 == m.1) = some f := by
      cases hfind : fields.find? (fun g => g.1 == m.1) with
      | none =>
        have hnone := List.find?_eq_none.mp hfind f hf
        simp [hname] at hnone
      | some g =>
        have hg : g.1 = m.1 := by simpa using List.find?_some hfind
        have hmem : g ∈ fields := List.mem_of_find?_eq_some hfind
        rw [List.inj_on_of_nodup_map hfields hmem hf (hg.trans hname.symm)]
    have hnew : seen.contains m.1 = false := by simpa using hseen.1
    have hunseen : ∀ e ∈ ms, e.1 ∉ m.1 :: seen := by
      intro e he hmem
      rcases List.mem_cons.mp hmem with hkey | hmem
      · exact hms.1 (hkey ▸ List.mem_map.mpr ⟨e, he, rfl⟩)
      · exact hseen.2 e he hmem
    simp only [List.map_cons, walk, hfind, hnew, hcheck, Bool.false_eq_true, if_false, bind,
      Except.bind]
    exact ih hms.2 hunseen h.2

/-- The members of an object are the fields that are not left out. -/
theorem mem_flatMap_members {k : String} {v : Json} :
    (k, v) ∈ slots.flatMap members ↔ (k, some v) ∈ slots := by
  rw [List.mem_flatMap]
  constructor
  · rintro ⟨⟨name, value⟩, hmem, hv⟩
    cases value with
    | none => cases hv
    | some w =>
      cases List.mem_singleton.mp hv
      exact hmem
  · intro hmem
    exact ⟨(k, some v), hmem, List.mem_singleton.mpr rfl⟩

/-- The members of an object hold the written values of the fields: one member for each field
that is written, in the order of the keys. -/
theorem exists_ofGroups (hslots : (slots.map (·.1)).Nodup) :
    ∃ ms, Json.ofGroups (slots.map members) = .obj ms ∧ (ms.map (·.1)).Pairwise (· < ·) ∧
      ∀ {k v}, (k, v) ∈ ms ↔ (k, some v) ∈ slots := by
  have hsublist : ((slots.flatMap members).map (·.1)).Sublist (slots.map (·.1)) := by
    induction slots with
    | nil => exact .slnil
    | cons s slots ih =>
      obtain ⟨name, value⟩ := s
      have hrest := ih (List.nodup_cons.mp hslots).2
      cases value with
      | none => exact hrest.cons name
      | some v => exact hrest.cons_cons name
  obtain ⟨hperm, hascending⟩ := Json.foldl_insertMember (l := []) (hslots.sublist hsublist)
    .nil (fun m _ => List.not_mem_nil)
  refine ⟨_, by rw [Json.ofGroups, Json.ofMembers, ← List.flatMap_def], hascending,
    fun {k v} => ?_⟩
  rw [hperm.mem_iff, List.nil_append, mem_flatMap_members]

/-- In such an object each field is found with its value, or not at all. -/
theorem written_eq (hslots : (slots.map (·.1)).Nodup)
    (hms : ∀ {k v}, (k, v) ∈ ms ↔ (k, some v) ∈ slots) :
    ∀ s ∈ slots, written (ms.map (fun m => (some m.1, draft m.2))) s.1 = s.2.map draft := by
  rintro ⟨name, value⟩ hs
  have hvalue : ∀ {v}, (name, v) ∈ ms → value = some v := by
    intro v hv
    have heq := List.inj_on_of_nodup_map hslots hs (hms.mp hv) rfl
    exact (Prod.mk.inj heq).2
  rw [written, List.find?_map]
  cases hfind : ms.find? ((fun m => m.1 == some name) ∘ fun m => (some m.1, draft m.2)) with
  | none =>
    cases value with
    | none => rfl
    | some v =>
      have hnone := List.find?_eq_none.mp hfind (name, v) (hms.mpr hs)
      simp at hnone
  | some m =>
    obtain ⟨k, v⟩ := m
    have hk : k = name := by simpa using List.find?_some hfind
    subst hk
    rw [hvalue (List.mem_of_find?_eq_some hfind)]
    rfl

end Objects

section Forms

variable {need n : Nat} {r : Record α} {a : α} {slots : List (String × Option Json)}

/-- Each field has its slot. -/
theorem Writes.names (h : r.Writes n a slots) : slots.map (·.1) = r.fields.map (·.1) := by
  obtain ⟨hfields, -⟩ := h
  generalize r.fields = fields at hfields ⊢
  induction hfields with
  | nil => rfl
  | cons hf _ ih => rw [List.map_cons, List.map_cons, ih, hf.1]

/-- A written value fits, is canonical and passes the check of its field. -/
theorem Writes.check (h : r.Writes n a slots) {k : String} {v : Json}
    (hv : (k, some v) ∈ slots) :
    v.Fits n ∧ v.Canonical ∧ ∃ f ∈ r.fields, f.1 = k ∧ ∀ b, f.2 (asRead b v) = .ok () := by
  obtain ⟨hfields, -⟩ := h
  generalize r.fields = fields at hfields ⊢
  induction hfields with
  | nil => cases hv
  | @cons f s fs ss hf _ ih =>
    rcases List.mem_cons.mp hv with heq | hmem
    · obtain ⟨hfits, hcanonical, hcheck⟩ := hf.2 v (by rw [← heq]; rfl)
      exact ⟨hfits, hcanonical, f, List.mem_cons_self, hf.1.trans (by rw [← heq]), hcheck⟩
    · obtain ⟨hfits, hcanonical, g, hg, hcheck⟩ := ih hmem
      exact ⟨hfits, hcanonical, g, List.mem_cons_of_mem f hg, hcheck⟩

/-- A written member fits where all do. -/
theorem fits_of_written {members : List (Option String × Draft)} {name : String} {d : Draft}
    (hfits : Draft.MembersFit members n) (h : written members name = some d) : d.Fits n := by
  obtain ⟨m, hm, rfl⟩ := Option.map_eq_some_iff.mp h
  exact Draft.membersFit_iff.mp hfits m (List.mem_of_find?_eq_some hm)

/-- A record is read one level below its draft. -/
theorem reads_of_decode {d : Draft} (hfits : d.Fits n) (h : r.decode d = .ok a) :
    0 < n ∧ r.Reads (n - 1) a := by
  cases d with
  | obj members closed =>
    obtain ⟨-, -, h⟩ := bind_eq_ok_iff.mp h
    exact ⟨hfits.1, .inl ⟨_, fun _ _ hd => fits_of_written hfits.2 hd, h⟩⟩
  | arr items closed =>
    obtain ⟨⟨a', rest⟩, hitems, h⟩ := bind_eq_ok_iff.mp h
    dsimp only at h
    split at h
    · cases h
      exact ⟨hfits.1, .inr ⟨items, closed, rest, Draft.itemsFit_iff.mp hfits.2, hitems⟩⟩
    · cases h
  | void => exact ⟨hfits, .inl ⟨fun _ => none, nofun, h⟩⟩
  | _ => cases h

/-- A record of distinct fields keeps in the object of its written fields. -/
theorem Writes.keeps {form : α → Json} (hwrites : r.Writes n a slots)
    (hnames : (r.fields.map (·.1)).Nodup) (hform : form a = .ofGroups (slots.map members)) :
    Keeps r.decode form (n + 1) a := by
  have hslots : (slots.map (·.1)).Nodup := hwrites.names ▸ hnames
  obtain ⟨ms, hgroups, hascending, hms⟩ := exists_ofGroups hslots
  rw [hgroups] at hform
  refine ⟨?_, ?_, fun b => ?_⟩
  · rw [hform]
    exact Json.fits_obj.mpr ⟨n.succ_pos, fun m hm => (hwrites.check (hms.mp hm)).1⟩
  · rw [hform]
    exact Json.canonical_obj.mpr
      ⟨hascending, fun m hm => (hwrites.check (hms.mp hm)).2.1⟩
  · rw [hform, Draft.asRead_obj]
    split
    · next hempty =>
      refine hwrites.ofMembers b _ fun s hs => ?_
      obtain ⟨name, value⟩ := s
      cases value with
      | none => rfl
      | some v =>
        have hmem := hms.mpr hs
        rw [hempty.2] at hmem
        cases hmem
    · have hwalk : walk r.fields skip true
          (ms.map (fun m => (some m.1, asRead b m.2))) [] = .ok () := by
        refine walk_eq_ok hnames (hascending.imp ne_of_lt)
          (fun m _ => List.not_mem_nil) fun m hm => ?_
        obtain ⟨f, hf, hname, hcheck⟩ := (hwrites.check (hms.mp hm)).2.2
        exact .inl ⟨f, hf, hname, hcheck b⟩
      simp only [decode, hwalk, bind, Except.bind]
      exact hwrites.ofMembers b _ (written_eq hslots hms)

/-- The form of a record of distinct fields that it is followed through is faithful. -/
theorem Tracks.faithful {form : α → Json} (hnames : (r.fields.map (·.1)).Nodup)
    (h : Tracks need r fun a groups => form a = .ofGroups groups) :
    Faithful (need + 1) r.decode form := by
  have hobject : ∀ {n d a}, need + 1 ≤ n → d.Fits n → r.decode d = .ok a →
      Keeps r.decode form n a ∧ form a ≠ .null := by
    intro n d a hneed hfits hd
    obtain ⟨hpos, hreads⟩ := reads_of_decode hfits hd
    obtain ⟨slots, hwrites, hform⟩ := h.writes (by omega) hreads
    have hkeeps := hwrites.keeps hnames hform
    rw [Nat.sub_add_cancel hpos] at hkeeps
    exact ⟨hkeeps, by rw [hform]; nofun⟩
  exact ⟨fun hneed hfits hd => (hobject hneed hfits hd).1,
    fun hneed hfits hd _ => (hobject hneed hfits hd).2⟩

variable {γ : Type} {combine : α → β → γ} {outer : Record α} {inner : Record β}

/-- A flattened record is read from an object, its inner fields collected. -/
theorem reads_of_decodeFlattened {d : Draft} {c : γ} (hfits : d.Fits n)
    (h : decodeFlattened combine outer inner d = .ok c) :
    0 < n ∧ ∃ a b, outer.Reads (n - 1) a ∧ inner.Reads (n - 1) b ∧ c = combine a b := by
  cases d with
  | obj members closed =>
    obtain ⟨-, -, h⟩ := bind_eq_ok_iff.mp h
    obtain ⟨a, ha, h⟩ := bind_eq_ok_iff.mp h
    obtain ⟨b, hb, h⟩ := bind_eq_ok_iff.mp h
    cases h
    refine ⟨hfits.1, a, b, .inl ⟨_, fun _ _ hd => fits_of_written hfits.2 hd, ha⟩,
      .inl ⟨_, fun name d hd => ?_, hb⟩, rfl⟩
    obtain ⟨e, he, rfl⟩ := Option.map_eq_some_iff.mp hd
    exact Draft.fits_collected e (fits_of_written hfits.2 he)
  | _ => cases h

/-- An object of the written fields of both parts is accepted. -/
theorem walk_flattened {first second : List (String × Option Json)}
    {ms : List (String × Json)} {b : β}
    (hnames : (outer.fields.map (·.1) ++ inner.fields.map (·.1)).Nodup)
    (hfirst : outer.Writes n a first) (hsecond : inner.Writes n b second)
    (hkeys : (ms.map (·.1)).Nodup) (hms : ∀ {k v}, (k, v) ∈ ms ↔ (k, some v) ∈ first ++ second) :
    walk (outer.fields ++ inner.fields.map collected) buffer true
      (ms.map (fun m => (some m.1, asRead false m.2))) [] = .ok () := by
  have hfields : (outer.fields ++ inner.fields.map collected).map (·.1) =
      outer.fields.map (·.1) ++ inner.fields.map (·.1) := by
    rw [List.map_append, List.map_map]
    rfl
  refine walk_eq_ok (hfields ▸ hnames) hkeys (fun m _ => List.not_mem_nil) fun m hm => .inl ?_
  rcases List.mem_append.mp (hms.mp hm) with hm | hm
  · obtain ⟨f, hf, hname, hcheck⟩ := (hfirst.check hm).2.2
    exact ⟨f, List.mem_append_left _ hf, hname, hcheck false⟩
  · obtain ⟨-, hcanonical, f, hf, hname, hcheck⟩ := hsecond.check hm
    refine ⟨collected f, List.mem_append_right _ (List.mem_map_of_mem hf), hname, ?_⟩
    have hbuffer : buffer (asRead false m.2) = .ok () := by
      rw [buffer, Draft.value?_asRead hcanonical]
      rfl
    simp only [collected, hbuffer, bind, Except.bind]
    exact hcheck true

/-- The form of a flattened record of distinct fields whose parts are followed through is
reproduced. -/
theorem reproduces_flattened {form : γ → Json} {own : α → List (List (String × Json))}
    {rest : β → List (List (String × Json))}
    (hnames : (outer.fields.map (·.1) ++ inner.fields.map (·.1)).Nodup)
    (houter : Tracks need outer fun a groups => own a = groups)
    (hinner : Tracks need inner fun b groups => rest b = groups)
    (hform : ∀ a b, form (combine a b) = .ofGroups (own a ++ rest b))
    (hneed : need + 1 ≤ Json.deepest) :
    Reproduces (decodeFlattened combine outer inner) form := by
  intro d c hfits h
  obtain ⟨hpos, a, b, ha, hb, rfl⟩ := reads_of_decodeFlattened hfits h
  obtain ⟨first, hfirst, hown⟩ := houter.writes (by omega) ha
  obtain ⟨second, hsecond, hrest⟩ := hinner.writes (by omega) hb
  have hslots : ((first ++ second).map (·.1)).Nodup := by
    rw [List.map_append, hfirst.names, hsecond.names]
    exact hnames
  obtain ⟨ms, hgroups, hascending, hms⟩ := exists_ofGroups hslots
  have hobject : form (combine a b) = .obj ms := by
    rw [hform, hown, hrest, ← List.map_append, hgroups]
  have hwalk := walk_flattened hnames hfirst hsecond (hascending.imp ne_of_lt) hms
  have hwritten : ∀ s ∈ first ++ second,
      written (ms.map (fun m => (some m.1, asRead false m.2))) s.1 = s.2.map (asRead false) :=
    written_eq hslots hms
  rw [List.forall_mem_append] at hwritten
  have houterMembers := hfirst.ofMembers false _ hwritten.1
  have hinnerMembers : inner.ofMembers (fun name =>
      (written (ms.map (fun m => (some m.1, asRead false m.2))) name).map Draft.collected) =
        .ok b := by
    refine hsecond.ofMembers true _ fun s hs => ?_
    rw [hwritten.2 s hs, Option.map_map]
    rfl
  have hmembers : Draft.ofMembers ms = ms.map (fun m => (some m.1, asRead false m.2)) :=
    Draft.ofMembers_eq_map ms
  rw [hobject]
  refine ⟨Json.fits_obj.mpr ⟨hpos, fun m hm => ?_⟩, ?_⟩
  · rcases List.mem_append.mp (hms.mp hm) with hm | hm
    · exact (hfirst.check hm).1
    · exact (hsecond.check hm).1
  · simp only [Draft.ofJson, decodeFlattened, hmembers, hwalk, houterMembers, hinnerMembers,
      bind, Except.bind]

end Forms

end Record

end ApiExposure
