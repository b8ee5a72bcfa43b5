import ApiExposure.Proofs.Json.Reader
import ApiExposure.Proofs.Json.Record
import ApiExposure.Proofs.Json.Rendering

/-!
# Records among other members

An object may hold more members than a record has fields. What a record does not know it passes
over, so a record that is written among other members is read as if it stood alone.

Where the values of a record come from is told field by field: those of a list were read one
level below the list. Two things are asked of a form so that its text can be read back, that no
double is in it and that it is not too deep, and both are told group by group.
-/

namespace ApiExposure

open Draft (asRead)
open Decoder (map_eq_ok_iff)

/-- A value is read from a draft of at most a depth. -/
def Decoder.Reads {α : Type} (decode : Decoder α) (n : Nat) (a : α) : Prop :=
  ∃ d : Draft, d.Fits n ∧ decode d = .ok a

namespace Record

variable {α β : Type} {n : Nat} {name : String}

section Written

variable {decode : Decoder α} {form : α → Json} {r : Record α} {a : α}
  {slots : List (String × Option Json)}

/-- An optional field, written or not. -/
theorem writes_optional {o : Option α} (h : ∀ a ∈ o, Keeps decode form n a ∧ form a ≠ .null) :
    (optional name decode).Writes n o [(name, o.map form)] := by
  cases o with
  | none => exact omits_field rfl
  | some a => exact writes_present (h a rfl).1 (h a rfl).2

/-- A field that is written puts in its member. -/
theorem members_some (v : Json) : members (name, some v) = Json.member name v := rfl

/-- An optional one puts in a member when there is a value. -/
theorem members_map (o : Option α) :
    members (name, o.map form) = Json.optionalMember name form o := by
  cases o <;> rfl

/-- A record is read from an object of its written fields and of members that it does not
know. -/
theorem Writes.decode_among {all : List (String × Option Json)} (h : r.Writes n a slots)
    (hslots : slots.Sublist all) (hall : (all.map (·.1)).Nodup) :
    Decoder.ofJson r.decode (.ofGroups (all.map members)) = .ok a := by
  obtain ⟨ms, hgroups, hascending, hms⟩ := exists_ofGroups hall
  have hnames : (r.fields.map (·.1)).Nodup := h.names ▸ hall.sublist (hslots.map _)
  have hwalk : walk r.fields skip true
      (ms.map (fun m => (some m.1, asRead false m.2))) [] = .ok () := by
    refine walk_eq_ok hnames (hascending.imp ne_of_lt) (fun m _ => List.not_mem_nil) fun m hm => ?_
    by_cases hknown : m.1 ∈ r.fields.map (·.1)
    · rw [← h.names] at hknown
      obtain ⟨s, hs, hkey⟩ := List.mem_map.mp hknown
      have hslot : s = (m.1, some m.2) :=
        List.inj_on_of_nodup_map hall (hslots.subset hs) (hms.mp hm) hkey
      obtain ⟨f, hf, hname, hcheck⟩ := (h.check (hslot ▸ hs)).2.2
      exact .inl ⟨f, hf, hname, hcheck false⟩
    · refine .inr ⟨hknown, ?_⟩
      rw [skip, show asRead false m.2 = .ofJson m.2 from rfl, Draft.intact_ofJson, if_pos rfl]
  have hread := h.ofMembers false (written (ms.map (fun m => (some m.1, asRead false m.2))))
    fun s hs => written_eq hall hms s (hslots.subset hs)
  have hmembers : Draft.ofMembers ms = ms.map (fun m => (some m.1, asRead false m.2)) :=
    Draft.ofMembers_eq_map ms
  rw [hgroups]
  simp only [Decoder.ofJson, Draft.ofJson, Record.decode, hmembers, hwalk, hread, bind,
    Except.bind]

end Written

section Origins

/-- Whatever a record is read from at a depth, its value has a property. -/
structure Yields (r : Record α) (P : Nat → α → Prop) : Prop where
  subset : ∀ {items closed a rest}, r.ofItems items closed = .ok (a, rest) → rest ⊆ items
  holds : ∀ {n a}, r.Reads n a → P n a

/-- A record without fields yields what holds of its value at every depth. -/
theorem Yields.pure {a : α} {P : Nat → α → Prop} (h : ∀ n, P n a) : Yields (Record.pure a) P where
  subset := subset_of_ofItems_pure
  holds := by
    intro n b hread
    obtain rfl := eq_of_reads_pure hread
    exact h n

/-- One field more brings its own value. -/
theorem Yields.seq {f : Record (α → β)} {x : Record α} {P : Nat → α → Prop}
    {Q : Nat → β → Prop} (hf : Yields f fun n g => ∀ a, P n a → Q n (g a)) (hx : Yields x P) :
    Yields (Record.seq f x) Q where
  subset := by
    intro items closed b rest hread
    obtain ⟨g, more, a, hg, ha, -⟩ := ofItems_seq_eq_ok hread
    exact List.Subset.trans (hx.subset ha) (hf.subset hg)
  holds := by
    intro n b hread
    obtain ⟨g, a, hg, ha, rfl⟩ := reads_seq hf.subset hread
    exact hf.holds hg a (hx.holds ha)

variable {decode : Decoder α} {missing : Except DecodeFailure α}

/-- A field yields what holds of all that it decodes, and of what it stands for where it is missing.
-/
theorem yields_field {P : Nat → α → Prop} (hread : ∀ {n a}, decode.Reads n a → P n a)
    (hmissing : ∀ {n a}, missing = .ok a → P n a) : Yields (field name decode missing) P where
  subset := fun h => (ofItems_field_eq_ok h).1
  holds := fun h => (reads_field h).elim hread hmissing

/-- A field of which nothing is asked. -/
theorem yields_any : Yields (field name decode missing) fun _ _ => True :=
  yields_field (fun _ => trivial) (fun _ => trivial)

/-- A list is read one level above its values, or it is left out. -/
theorem yields_list : Yields (withDefault name (.list decode) [])
    fun n as => ∀ a ∈ as, decode.Reads (n - 1) a :=
  yields_field (fun ⟨_, hfits, hd⟩ => (Decoder.exists_of_mem_list hfits hd).2) fun h => by
    cases h
    exact List.forall_mem_nil _

/-- So is an optional list. -/
theorem yields_optionalList : Yields (optional name (.list decode))
    fun n o => ∀ as ∈ o, ∀ a ∈ as, decode.Reads (n - 1) a := by
  refine yields_field (fun {n o} ⟨d, hfits, hd⟩ as has => ?_) fun h as has => ?_
  · cases has
    unfold Decoder.orNone at hd
    split at hd
    · cases hd
    · obtain ⟨as', hlist, heq⟩ := map_eq_ok_iff.mp hd
      cases heq
      exact (Decoder.exists_of_mem_list hfits hlist).2
  · cases h
    cases has

/-- What a whole draft is decoded to was read one level below. -/
theorem Yields.of_decode {r : Record α} {P : Nat → α → Prop} {a : α} (h : Yields r P)
    (hread : Decoder.Reads r.decode n a) : P (n - 1) a := by
  obtain ⟨d, hfits, hd⟩ := hread
  exact h.holds (reads_of_decode hfits hd).2

end Origins

end Record

/-- What a text is decoded to is read from a draft of at most the greatest depth. -/
theorem Decoder.reads_of_ofText {α : Type} {decode : Decoder α} {text : String} {a : α}
    (h : ofText decode text = .ok a) : decode.Reads Json.deepest a := by
  obtain ⟨b, hd, h⟩ := bind_eq_ok_iff.mp h
  split at h
  · cases h
    exact ⟨_, Json.Text.fits_read text, hd⟩
  · cases h

namespace Json

/-- No double is in a value, and it is of at most a depth. -/
structure Textual (v : Json) (n : Nat) : Prop where
  /-- No double is in it. -/
  integral : v.Integral
  /-- It is of at most the depth. -/
  fits : v.Fits n

/-- The text of such a value is decoded to what the value is decoded to. -/
theorem Textual.ofText_compact {v : Json} (hv : v.Textual deepest) {α : Type}
    (decode : Decoder α) : Decoder.ofText decode v.compact = Decoder.ofJson decode v := by
  simp only [Decoder.ofText, read_compact hv.integral hv.fits, Decoder.ofJson, bind, Except.bind,
    if_true]
  cases decode (Draft.ofJson v) <;> rfl

variable {α : Type} {key : String} {form : α → Json} {n : Nat}

/-- An array is without doubles when its items are. -/
theorem integral_arr {vs : List Json} : (arr vs).Integral ↔ ∀ v ∈ vs, v.Integral := by
  rw [Integral]
  induction vs with
  | nil => simp [ItemsIntegral]
  | cons v vs ih => rw [ItemsIntegral, ih, List.forall_mem_cons]

/-- An object is without doubles when its members are. -/
theorem integral_obj {ms : List (String × Json)} :
    (obj ms).Integral ↔ ∀ m ∈ ms, m.2.Integral := by
  rw [Integral]
  induction ms with
  | nil => simp [MembersIntegral]
  | cons m ms ih => rw [MembersIntegral, ih, List.forall_mem_cons]

/-- A text can be read back from its literal at every depth. -/
theorem textual_str (s : String) : (str s).Textual n := ⟨trivial, trivial⟩

/-- A list can be read back from its text when its members can, one level down. -/
theorem textual_ofList {as : List α} (h : ∀ a ∈ as, (form a).Textual n) :
    (ofList form as).Textual (n + 1) where
  integral := integral_arr.mpr (List.forall_mem_map.mpr fun a ha => (h a ha).integral)
  fits := fits_arr.mpr ⟨n.succ_pos, List.forall_mem_map.mpr fun a ha => (h a ha).fits⟩

/-- Every member of a group has a value with a property. -/
def Each (P : Json → Prop) (group : List (String × Json)) : Prop := ∀ m ∈ group, P m.2

variable {P : Json → Prop}

/-- A group of one member. -/
theorem each_member {v : Json} (h : P v) : Each P (member key v) := List.forall_mem_singleton.mpr h

/-- A group that may be empty. -/
theorem each_optionalMember {o : Option α} (h : ∀ a ∈ o, P (form a)) :
    Each P (optionalMember key form o) := by
  cases o with
  | none => exact List.forall_mem_nil _
  | some a => exact List.forall_mem_singleton.mpr (h a rfl)

/-- A group that is empty for an empty list. -/
theorem each_listMember {as : List α} (h : P (ofList form as)) :
    Each P (listMember key form as) := by
  cases as with
  | nil => exact List.forall_mem_nil _
  | cons a as => exact List.forall_mem_singleton.mpr h

/-- An object of groups has no members but theirs. -/
theorem exists_ofGroups {groups : List (List (String × Json))} (h : groups.Forall (Each P)) :
    ∃ ms, ofGroups groups = .obj ms ∧ ∀ m ∈ ms, P m.2 := by
  have hsubset : ∀ (ms acc : List (String × Json)),
      ms.foldl (fun acc m => insertMember m.1 m.2 acc) acc ⊆ acc ++ ms := by
    intro ms
    induction ms with
    | nil => exact fun acc => List.subset_append_left acc []
    | cons m ms ih =>
      intro acc e he
      rcases List.mem_append.mp (ih _ he) with he | he
      · rcases mem_of_mem_insertMember he with rfl | he
        · exact List.mem_append_right _ List.mem_cons_self
        · exact List.mem_append_left _ he
      · exact List.mem_append_right _ (List.mem_cons_of_mem _ he)
  refine ⟨_, rfl, fun m hm => ?_⟩
  obtain ⟨g, hg, hmem⟩ := List.mem_flatten.mp (hsubset groups.flatten [] hm)
  exact List.forall_iff_forall_mem.mp h g hg m hmem

/-- An object of groups without doubles is without doubles. -/
theorem integral_ofGroups {groups : List (List (String × Json))}
    (h : groups.Forall (Each Integral)) : (ofGroups groups).Integral := by
  obtain ⟨ms, hobj, hms⟩ := exists_ofGroups h
  rw [hobj]
  exact integral_obj.mpr hms

/-- An object can be read back from its text when its groups can, one level down. -/
theorem textual_ofGroups {groups : List (List (String × Json))}
    (h : groups.Forall (Each (·.Textual n))) : (ofGroups groups).Textual (n + 1) := by
  obtain ⟨ms, hobj, hms⟩ := exists_ofGroups h
  rw [hobj]
  exact ⟨integral_obj.mpr fun m hm => (hms m hm).integral,
    fits_obj.mpr ⟨n.succ_pos, fun m hm => (hms m hm).fits⟩⟩

end Json

end ApiExposure
