import ApiExposure.Proofs.Publications.Names
import ApiExposure.Proofs.Registry.Table

/-!
# Shares of the store

Every publisher has its share of the store: its own APIs, in the order of
publication. An operation of a publisher changes its share and leaves the others
where they are. It also goes by the share alone: by whether an API is in it, by the
names in it and by the roles of functions. An identifier that stands for an API of
somebody else is as good as one that stands for nothing.
-/

namespace ApiExposure

namespace Publications

/-- The APIs of all publishers but one, with their identifiers, in the order of publication. -/
def others (s : Publications) (publisher : FunctionId) : List (ApiId × PublishedApi) :=
  s.apis.entries.filter (fun e => e.2.publisher != publisher)

variable {s t : Publications} {p q : Providers} {publisher : FunctionId} {id : ApiId}
  {a b : PublishedApi} {now : Instant}

/-- A new API of the publisher is none of the others. -/
theorem others_add (ha : a.publisher = publisher) (hnew : s.apis.get? a.id = none) :
    (s.add a).others publisher = s.others publisher :=
  Table.filter_entries_insert (by simp [ha]) fun v hv => by simp [hnew] at hv

/-- A changed API of the publisher is none of the others. -/
theorem others_replace (hb : b.publisher = publisher)
    (hold : ∀ a, s.apis.get? b.id = some a → a.publisher = publisher) :
    (s.replace b).others publisher = s.others publisher :=
  Table.filter_entries_insert (by simp [hb]) fun v hv => by simp [hold v hv]

/-- What the publisher withdraws is none of the others. -/
theorem others_unpublish (hold : ∀ a, s.apis.get? id = some a → a.publisher = publisher)
    (h : s.unpublish id = .ok (a, t)) : t.others publisher = s.others publisher := by
  rw [others, (of_unpublish_eq_ok h).2]
  exact Table.filter_entries_erase fun v hv => by simp [hold v hv]

/-- In a keyed store an API is in a share when it is stored under its identifier. -/
theorem Keyed.mem_listFor_iff (hs : s.Keyed) :
    a ∈ s.listFor publisher ↔ s.apis.get? a.id = some a ∧ a.publisher = publisher := by
  rw [listFor, List.mem_filter, Table.mem_values_iff, beq_iff_eq]
  refine and_congr_left fun _ => ⟨fun ⟨key, hkey⟩ => ?_, fun h => ⟨a.id, h⟩⟩
  rwa [hs key a hkey]

/-- A new API stands behind those of its publisher. -/
theorem listFor_add (ha : a.publisher = publisher) (hnew : s.apis.get? a.id = none) :
    (s.add a).listFor publisher = s.listFor publisher ++ [a] := by
  have habsent : s.apis.contains a.id = false := Table.contains_eq_false_iff.mpr hnew
  have hvalues : (s.add a).apis.values = s.apis.values ++ [a] := by
    rw [Table.values, add, Table.entries_insert_of_not_contains habsent, List.map_append]
    rfl
  rw [listFor, hvalues, List.filter_append, listFor]
  simp [ha]

/-- A changed API takes the place of the one with its identifier. -/
theorem listFor_replace (hs : s.Keyed) (ha : s.apis.get? b.id = some a)
    (howner : a.publisher = publisher) (hb : b.publisher = publisher) :
    (s.replace b).listFor publisher =
      (s.listFor publisher).map (fun x => if x.id = b.id then b else x) := by
  have hvalues : (s.replace b).apis.values =
      s.apis.values.map (fun x => if x.id = b.id then b else x) := by
    have hmodify : (s.replace b).apis = s.apis.modify b.id fun _ => b :=
      Table.insert_eq_modify ha fun _ => b
    rw [hmodify, Table.values, Table.modify, Table.values, List.map_map, List.map_map]
    refine List.map_congr_left fun e he => ?_
    have hid : e.2.id = e.1 := hs e.1 e.2 (Table.get?_eq_some_iff.mpr he)
    by_cases hk : e.1 = b.id <;> simp [hid, hk]
  rw [listFor, hvalues, List.filter_map, listFor]
  refine congrArg _ (List.filter_congr fun x hx => ?_)
  obtain ⟨key, hkey⟩ := Table.mem_values_iff.mp hx
  by_cases hid : x.id = b.id
  · obtain rfl : x = a := by
      rw [← hid, hs key x hkey, hkey] at ha
      exact Option.some.inj ha
    simp [hid, howner, hb]
  · simp [hid]

/-- An API that is erased leaves the list of its publisher. -/
theorem listFor_erase (hs : s.Keyed) (names : Table (FunctionId × String) ApiId) :
    (⟨s.apis.erase id, names⟩ : Publications).listFor publisher =
      (s.listFor publisher).filter (fun x => x.id ≠ id) := by
  have hvalues : (s.apis.erase id).values = s.apis.values.filter (fun x => x.id ≠ id) := by
    rw [Table.values, Table.erase, Table.values, List.filter_map]
    refine congrArg _ (List.filter_congr fun e he => ?_)
    rw [Function.comp_apply, hs e.1 e.2 (Table.get?_eq_some_iff.mpr he)]
  rw [listFor, hvalues, List.filter_comm, listFor]

/-- An identifier that stands for nothing of the publisher is not found for it. -/
theorem getFor_of_not_own (h : ∀ a, s.apis.get? id = some a → a.publisher ≠ publisher) :
    s.getFor publisher id = .error (.notFound (.api id)) := by
  cases ha : s.apis.get? id with
  | none => simp only [getFor, ha]
  | some a => simp only [getFor, ha, if_neg (h a ha)]

/-- What a share has under an identifier every store with the same share has. -/
theorem get?_of_listFor_eq (hs : s.Keyed) (ht : t.Keyed)
    (h : s.listFor publisher = t.listFor publisher) (ha : s.apis.get? id = some a)
    (howner : a.publisher = publisher) : t.apis.get? id = some a := by
  have hid := hs id a ha
  have hmem : a ∈ t.listFor publisher := h ▸ hs.mem_listFor_iff.mpr ⟨hid ▸ ha, howner⟩
  exact hid ▸ (ht.mem_listFor_iff.mp hmem).1

/-- Stores with the same share have the same under an identifier that stands for nothing of
others. -/
theorem get?_congr (hs : s.Keyed) (ht : t.Keyed)
    (h : s.listFor publisher = t.listFor publisher)
    (hown : ∀ a, s.apis.get? id = some a → a.publisher = publisher)
    (hown' : ∀ a, t.apis.get? id = some a → a.publisher = publisher) :
    s.apis.get? id = t.apis.get? id :=
  Option.ext fun a => ⟨fun ha => get?_of_listFor_eq hs ht h ha (hown a ha),
    fun ha => get?_of_listFor_eq ht hs h.symm ha (hown' a ha)⟩

/-- They give the publisher the same API in any case. -/
theorem getFor_congr (hs : s.Keyed) (ht : t.Keyed)
    (h : s.listFor publisher = t.listFor publisher) (id : ApiId) :
    s.getFor publisher id = t.getFor publisher id := by
  by_cases hstored : ∃ a, s.apis.get? id = some a ∧ a.publisher = publisher
  · obtain ⟨a, ha, howner⟩ := hstored
    rw [getFor_eq_ok_iff.mpr ⟨ha, howner⟩,
      getFor_eq_ok_iff.mpr ⟨get?_of_listFor_eq hs ht h ha howner, howner⟩]
  · rw [getFor_of_not_own fun a ha howner => hstored ⟨a, ha, howner⟩,
      getFor_of_not_own fun a ha howner =>
        hstored ⟨a, get?_of_listFor_eq ht hs h.symm ha howner, howner⟩]

/-- They have the same names taken. -/
theorem names_contains_congr (hs : s.Indexed) (ht : t.Indexed)
    (h : s.listFor publisher = t.listFor publisher) (name : String) :
    s.names.contains (publisher, name) = t.names.contains (publisher, name) := by
  have hfree : ∀ {v : Publications}, v.Indexed → (v.names.contains (publisher, name) = false ↔
      ∀ a ∈ v.listFor publisher, a.name ≠ name) := by
    intro v hv
    rw [hv.contains_eq_false_iff]
    constructor
    · intro hnone a ha
      obtain ⟨hstored, howner⟩ := hv.keyed.mem_listFor_iff.mp ha
      exact hnone a.id a hstored howner
    · intro hnone key a ha howner
      exact hnone a (hv.keyed.mem_listFor_iff.mpr ⟨hv.keyed key a ha ▸ ha, howner⟩)
  refine Bool.eq_iff_iff.mpr ?_
  rw [← not_iff_not, Bool.not_eq_true, Bool.not_eq_true, hfree hs, hfree ht, h]

/-- A publication is checked by the roles of functions and the names in the share. -/
theorem validate_congr (hs : s.Indexed) (ht : t.Indexed)
    (h : s.listFor publisher = t.listFor publisher) (hroles : ∀ f, p.roleOf f = q.roleOf f)
    (d : ApiDescription) : s.validate p publisher d = t.validate q publisher d := by
  have hroles : p.roleOf = q.roleOf := funext hroles
  simp only [validate, Providers.requirePublisher, Providers.requireExposers, requireFree, hroles,
    names_contains_congr hs ht h]

/-- Two outcomes of operations on stores that a publisher cannot tell apart. -/
inductive Alike (publisher : FunctionId) {α : Type} :
    Outcome (α × Publications) → Outcome (α × Publications) → Prop
  /-- Both fail in the same way. -/
  | error (f : Failure) : Alike publisher (.error f) (.error f)
  /-- Both give the same and leave the same share. -/
  | ok (a : α) {s t : Publications} (h : s.listFor publisher = t.listFor publisher) :
      Alike publisher (.ok (a, s)) (.ok (a, t))

/-- A patch goes by the share and the roles. -/
theorem updateFor_alike (hs : s.Keyed) (ht : t.Keyed)
    (h : s.listFor publisher = t.listFor publisher) (hroles : ∀ f, p.roleOf f = q.roleOf f)
    (id : ApiId) (changes : ApiPatch) (now : Instant) :
    Alike publisher (s.updateFor p publisher id changes now)
      (t.updateFor q publisher id changes now) := by
  have hroles : p.roleOf = q.roleOf := funext hroles
  have hexposers : p.requireExposers changes.exposers = q.requireExposers changes.exposers := by
    simp only [Providers.requireExposers, hroles]
  have hget := getFor_congr hs ht h id
  rw [updateFor, updateFor, patch, patch]
  cases changes.validate with
  | error f => exact .error f
  | ok _ =>
    cases ha : s.getFor publisher id with
    | error f =>
      rw [← hget, ha]
      exact .error f
    | ok a =>
      rw [← hget, ha, ← hexposers]
      cases hrename : a.checkRename changes with
      | error f =>
        simp only [bind, Except.bind, hrename]
        exact .error f
      | ok _ =>
        cases hrole : p.requireExposers changes.exposers with
        | error f =>
          simp only [bind, Except.bind, hrename]
          exact .error f
        | ok _ =>
          simp only [bind, Except.bind, hrename]
          obtain ⟨hstored, howner⟩ := getFor_eq_ok_iff.mp ha
          obtain ⟨hstored', _⟩ := getFor_eq_ok_iff.mp (hget ▸ ha)
          have hid : (a.apply changes now).id = id := hs id a hstored
          have howner' : (a.apply changes now).publisher = publisher := howner
          refine .ok _ ?_
          rw [listFor_replace hs (hid ▸ hstored) howner howner',
            listFor_replace ht (hid ▸ hstored') howner howner', h]

/-- A publication goes by the share and the roles when its identifier stands for nothing of
others. -/
theorem publishAs_alike (hs : s.Indexed) (ht : t.Indexed)
    (h : s.listFor publisher = t.listFor publisher) (hroles : ∀ f, p.roleOf f = q.roleOf f)
    (hown : ∀ a, s.apis.get? id = some a → a.publisher = publisher)
    (hown' : ∀ a, t.apis.get? id = some a → a.publisher = publisher) (d : ApiDescription)
    (now : Instant) :
    Alike publisher (s.publishAs p id publisher d now) (t.publishAs q id publisher d now) := by
  have hget := get?_congr hs.keyed ht.keyed h hown hown'
  rw [publishAs, publishAs, ← validate_congr hs ht h hroles]
  cases s.validate p publisher d with
  | error f => exact .error f
  | ok _ =>
    have hcontains : t.apis.contains id = s.apis.contains id := by
      rw [Table.contains, Table.contains, hget]
    simp only [bind, Except.bind, hcontains]
    cases hstored : s.apis.contains id with
    | true => exact .error _
    | false =>
      have hnone : s.apis.get? id = none := by simpa [Table.contains] using hstored
      refine .ok _ ?_
      rw [listFor_add rfl hnone, listFor_add rfl (hget ▸ hnone), h]

/-- So does a withdrawal. -/
theorem unpublish_alike (hs : s.Keyed) (ht : t.Keyed)
    (h : s.listFor publisher = t.listFor publisher)
    (hown : ∀ a, s.apis.get? id = some a → a.publisher = publisher)
    (hown' : ∀ a, t.apis.get? id = some a → a.publisher = publisher) :
    Alike publisher (s.unpublish id) (t.unpublish id) := by
  simp only [unpublish, remove, ← get?_congr hs ht h hown hown']
  cases s.apis.get? id with
  | none => exact .error _
  | some a =>
    refine .ok a ?_
    rw [listFor_erase hs, listFor_erase ht, h]

end Publications

end ApiExposure
