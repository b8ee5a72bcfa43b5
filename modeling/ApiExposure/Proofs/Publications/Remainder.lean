import ApiExposure.Proofs.Publications.Names
import ApiExposure.Proofs.Publications.Order
import ApiExposure.Proofs.Registry.Table

/-!
# What several cascades leave

A cascade marks what it strips with the time, and otherwise what it leaves depends
on the functions that were removed and on nothing else. So cascades may come in any
order, and all at once: up to the times of change the stores are equal, with the
APIs in the same order and the same index of names. A store in which no API depends
on the functions is left as it is.
-/

namespace ApiExposure

namespace PublishedApi

variable {a b : PublishedApi} {removed : List FunctionId}

/-- The API as if it had never been changed since its publication. -/
def undated (a : PublishedApi) : PublishedApi := { a with updatedAt := a.publishedAt }

/-- The API without the profiles of removed functions, undated. -/
def without (removed : List FunctionId) (a : PublishedApi) : PublishedApi :=
  { a with
    description := { a.description with
      profiles := a.description.profiles.filter (fun p => !removed.contains p.exposer) }
    updatedAt := a.publishedAt }

/-- What is left of an API when functions are removed, whenever that may be. -/
def remainder (removed : List FunctionId) (a : PublishedApi) : Option PublishedApi :=
  if removed.contains a.publisher then none
  else if (a.without removed).description.profiles.isEmpty then none
  else some (a.without removed)

/-- An API remains that keeps its publisher and a profile. -/
theorem remainder_eq_some_iff :
    a.remainder removed = some b ↔
      a.publisher ∉ removed ∧ (a.without removed).description.profiles ≠ [] ∧
        b = a.without removed := by
  simp only [remainder, List.contains_eq_mem, decide_eq_true_eq, List.isEmpty_iff]
  split
  · next h => simp [h]
  · next h => split <;> next he => simp [h, he, eq_comm]

/-- A cascade leaves that, but for the time. -/
theorem undated_survivor (removed : List FunctionId) (now : Instant) (a : PublishedApi) :
    (a.survivor removed now).map undated = a.remainder removed := by
  refine Option.ext fun b => ?_
  rw [Option.map_eq_some_iff, remainder_eq_some_iff]
  constructor
  · rintro ⟨c, hc, rfl⟩
    obtain ⟨hpublisher, hleft, rfl⟩ := survivor_eq_some_iff.mp hc
    exact ⟨hpublisher, hleft, rfl⟩
  · rintro ⟨hpublisher, hleft, rfl⟩
    exact ⟨_, survivor_eq_some_iff.mpr ⟨hpublisher, hleft, rfl⟩, rfl⟩

/-- What is left after some functions, and then after others, is what is left after all. -/
theorem survivor_bind_remainder (first second : List FunctionId) (now : Instant)
    (a : PublishedApi) :
    (a.survivor first now).bind (remainder second) = a.remainder (first ++ second) := by
  have hprofiles : (a.description.profiles.filter (fun p => !first.contains p.exposer)).filter
      (fun p => !second.contains p.exposer) =
      a.description.profiles.filter (fun p => !(first ++ second).contains p.exposer) := by
    rw [List.filter_filter]
    refine List.filter_congr fun p _ => ?_
    simp only [List.contains_append, Bool.not_or, Bool.and_comm]
  have hwithout : (a.stripExposers first now).1.without second = a.without (first ++ second) := by
    simp only [without, stripExposers, hprofiles]
  refine Option.ext fun b => ?_
  rw [Option.bind_eq_some_iff, remainder_eq_some_iff, List.mem_append, not_or]
  constructor
  · rintro ⟨c, hc, hb⟩
    obtain ⟨hfirst, _, rfl⟩ := survivor_eq_some_iff.mp hc
    obtain ⟨hsecond, hleft, rfl⟩ := remainder_eq_some_iff.mp hb
    rw [hwithout] at hleft ⊢
    exact ⟨⟨hfirst, hsecond⟩, hleft, rfl⟩
  · rintro ⟨⟨hfirst, hsecond⟩, hleft, rfl⟩
    have hsome : (a.stripExposers first now).1.description.profiles ≠ [] := by
      intro hnone
      have hnone : a.description.profiles.filter (fun p => !first.contains p.exposer) = [] := hnone
      rw [hnone, List.filter_nil] at hprofiles
      exact hleft hprofiles.symm
    refine ⟨_, survivor_eq_some_iff.mpr ⟨hfirst, hsome, rfl⟩, ?_⟩
    exact remainder_eq_some_iff.mpr ⟨hsecond, hwithout ▸ hleft, hwithout.symm⟩

/-- Only which functions are removed makes a difference. -/
theorem remainder_congr {first second : List FunctionId} (h : ∀ f, f ∈ first ↔ f ∈ second)
    (a : PublishedApi) : a.remainder first = a.remainder second := by
  have hcontains : ∀ f, first.contains f = second.contains f := fun f => by
    simp only [List.contains_eq_mem, h]
  have hwithout : a.without first = a.without second := by simp only [without, hcontains]
  simp only [remainder, hcontains, hwithout]

end PublishedApi

namespace Publications

/-- The store without the times of the last changes. -/
def undated (s : Publications) : Publications :=
  { s with apis := s.apis.mapValues PublishedApi.undated }

/-- A store has kept some of the APIs and names of another, in their order. -/
structure Within (s t : Publications) : Prop where
  /-- Its names are those of its APIs. -/
  indexed : s.Indexed
  /-- The APIs are in their order. -/
  apis : s.apis.keys.Sublist t.apis.keys
  /-- So are the names. -/
  names : s.names.keys.Sublist t.names.keys

variable {s t u : Publications} {removed first second : List FunctionId} {now later : Instant}

/-- A store keeps the APIs that it has. -/
theorem Indexed.within (hs : s.Indexed) : s.Within s :=
  ⟨hs, List.Sublist.refl _, List.Sublist.refl _⟩

/-- One step of a cascade leaves the names or takes one out. -/
theorem keys_names_invalidateOne (removed : List FunctionId) (now : Instant)
    (acc : Publications × Cascade) (id : ApiId) :
    (invalidateOne removed now acc id).1.names.keys.Sublist acc.1.names.keys := by
  cases ha : acc.1.apis.get? id with
  | none =>
    simp only [invalidateOne, remove, ha, Option.map_none]
    exact List.Sublist.refl _
  | some a =>
    simp only [invalidateOne, remove, ha, Option.map_some]
    split
    · exact Table.keys_erase_sublist _ _
    · split
      · exact Table.keys_erase_sublist _ _
      · exact List.Sublist.refl _

/-- A cascade keeps some of the APIs and names. -/
theorem Within.invalidate (h : s.Within t) (removed : List FunctionId) (now : Instant) :
    (s.invalidate removed now).1.Within t := by
  have hfold : ∀ (ids : List ApiId) (acc : Publications × Cascade),
      (ids.foldl (invalidateOne removed now) acc).1.names.keys.Sublist acc.1.names.keys := by
    intro ids
    induction ids with
    | nil => exact fun _ => List.Sublist.refl _
    | cons id ids ih => exact fun acc => (ih _).trans (keys_names_invalidateOne removed now acc id)
  exact ⟨h.indexed.invalidate removed now,
    (keys_invalidate_sublist h.indexed.keyed removed now).trans h.apis,
    (hfold _ (s, ⟨[], []⟩)).trans h.names⟩

/-- Two stores that kept the same APIs up to the times are equal up to the times: the names follow
from the APIs. -/
theorem Within.undated_eq (hs : s.Within u) (ht : t.Within u)
    (h : ∀ id, (s.apis.get? id).map PublishedApi.undated =
      (t.apis.get? id).map PublishedApi.undated) : s.undated = t.undated := by
  have hapis : s.apis.mapValues PublishedApi.undated = t.apis.mapValues PublishedApi.undated := by
    refine Table.eq_of_get? u.apis.distinct ?_ ?_ fun id => ?_
    · rw [Table.keys_mapValues]
      exact hs.apis
    · rw [Table.keys_mapValues]
      exact ht.apis
    · rw [Table.get?_mapValues, Table.get?_mapValues, h]
  have hstored : ∀ {v w : Publications}, (∀ id, (v.apis.get? id).map PublishedApi.undated =
      (w.apis.get? id).map PublishedApi.undated) → ∀ id a, v.apis.get? id = some a →
      ∃ b, w.apis.get? id = some b ∧ b.publisher = a.publisher ∧ b.name = a.name := by
    intro v w hvw id a ha
    have hid := hvw id
    rw [ha, Option.map_some] at hid
    obtain ⟨b, hb, hundated⟩ := Option.map_eq_some_iff.mp hid.symm
    have hpublisher := congrArg PublishedApi.publisher hundated
    have hname := congrArg PublishedApi.name hundated
    exact ⟨b, hb, hpublisher, hname⟩
  have hnames : s.names = t.names := by
    refine Table.eq_of_get? u.names.distinct hs.names ht.names fun ⟨publisher, name⟩ => ?_
    refine Option.ext fun id => ?_
    rw [hs.indexed.names, ht.indexed.names]
    constructor
    · rintro ⟨a, ha, rfl, rfl⟩
      exact hstored h id a ha
    · rintro ⟨a, ha, rfl, rfl⟩
      exact hstored (fun id => (h id).symm) id a ha
  rw [undated, undated, hapis, hnames]

namespace WellFormed

/-- What a cascade leaves under an identifier, up to the time. -/
theorem undated_get?_invalidate (hs : s.WellFormed) (removed : List FunctionId) (now : Instant)
    (id : ApiId) :
    ((s.invalidate removed now).1.apis.get? id).map PublishedApi.undated =
      (s.apis.get? id).bind (PublishedApi.remainder removed) := by
  rw [hs.get?_invalidate, Option.map_bind]
  exact congrArg _ (funext fun a => PublishedApi.undated_survivor removed now a)

/-- What two cascades leave is what one with the functions of both leaves. -/
theorem undated_get?_invalidate_twice (hs : s.WellFormed) (first second : List FunctionId)
    (now later : Instant) (id : ApiId) :
    (((s.invalidate first now).1.invalidate second later).1.apis.get? id).map
        PublishedApi.undated =
      (s.apis.get? id).bind (PublishedApi.remainder (first ++ second)) := by
  rw [(hs.invalidate first now).undated_get?_invalidate, hs.get?_invalidate, Option.bind_assoc]
  exact congrArg _ (funext fun a => PublishedApi.survivor_bind_remainder first second now a)

/-- Two cascades one after the other are one with the functions of both, up to the times. -/
theorem undated_invalidate_twice (hs : s.WellFormed) (hi : s.Indexed)
    {functions : List FunctionId} (h : ∀ f, f ∈ functions ↔ f ∈ first ∨ f ∈ second)
    (now later once : Instant) :
    (s.invalidate functions once).1.undated =
      ((s.invalidate first now).1.invalidate second later).1.undated := by
  refine (hi.within.invalidate _ _).undated_eq ((hi.within.invalidate _ _).invalidate _ _)
    fun id => ?_
  rw [hs.undated_get?_invalidate, hs.undated_get?_invalidate_twice]
  refine congrArg _ (funext fun a => PublishedApi.remainder_congr (fun f => ?_) a)
  rw [h, List.mem_append]

/-- After a cascade no API depends on the functions. -/
theorem not_dependsOn_of_invalidate (hs : s.WellFormed) {id : ApiId} {a : PublishedApi}
    (ha : (s.invalidate removed now).1.apis.get? id = some a) {f : FunctionId}
    (hf : f ∈ removed) : a.publisher ≠ f ∧ f ∉ a.description.exposers := by
  rw [hs.get?_invalidate] at ha
  obtain ⟨b, _, hsurvivor⟩ := Option.bind_eq_some_iff.mp ha
  obtain ⟨hpublisher, _, rfl⟩ := PublishedApi.survivor_eq_some_iff.mp hsurvivor
  refine ⟨?_, fun he => (PublishedApi.mem_exposers_stripExposers.mp he).2 hf⟩
  rintro rfl
  exact hpublisher hf

/-- It stays so after another cascade. -/
theorem not_dependsOn_of_invalidate_twice (hs : s.WellFormed) {id : ApiId} {a : PublishedApi}
    (ha : ((s.invalidate first now).1.invalidate second later).1.apis.get? id = some a)
    {f : FunctionId} (hf : f ∈ first ∨ f ∈ second) :
    a.publisher ≠ f ∧ f ∉ a.description.exposers := by
  rcases hf with hf | hf
  · rw [(hs.invalidate first now).get?_invalidate] at ha
    obtain ⟨b, hb, hsurvivor⟩ := Option.bind_eq_some_iff.mp ha
    obtain ⟨_, _, rfl⟩ := PublishedApi.survivor_eq_some_iff.mp hsurvivor
    obtain ⟨hpublisher, hexposers⟩ := hs.not_dependsOn_of_invalidate hb hf
    exact ⟨hpublisher, fun he => hexposers (PublishedApi.mem_exposers_stripExposers.mp he).1⟩
  · exact (hs.invalidate first now).not_dependsOn_of_invalidate ha hf

end WellFormed

/-- A cascade of functions that no API depends on does nothing. -/
theorem invalidate_eq_self
    (h : ∀ id a, s.apis.get? id = some a → ∀ f ∈ removed,
      a.publisher ≠ f ∧ f ∉ a.description.exposers) :
    s.invalidate removed now = (s, ⟨[], []⟩) := by
  have hnone : s.apis.values.filter (dependsOn removed) = [] := by
    refine List.filter_eq_nil_iff.mpr fun a ha hdepends => ?_
    obtain ⟨id, hid⟩ := Table.mem_values_iff.mp ha
    simp only [dependsOn, Bool.or_eq_true, List.any_eq_true, List.contains_eq_mem,
      decide_eq_true_eq] at hdepends
    rcases hdepends with hpublisher | ⟨f, hf, hremoved⟩
    · exact (h id a hid _ hpublisher).1 rfl
    · exact (h id a hid f hremoved).2 hf
  rw [invalidate, hnone]
  rfl

end Publications

end ApiExposure
