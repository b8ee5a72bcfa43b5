import ApiExposure.Proofs.Publications.Remainder
import ApiExposure.Proofs.System.Sequel

/-!
# What goes with removed functions

An API goes with functions when its publisher is one of them or when all its exposers
are; otherwise it only loses the profiles of those that it has. A cascade decides this
for one API after the other while it changes the table that it goes through. Here the
outcome is said at once, for the store, for the index of names, for the two lists that
the cascade hands over and for what is done about these.
-/

namespace ApiExposure

namespace PublishedApi

variable {removed : List FunctionId} {now : Instant} {a : PublishedApi}

/-- An API goes with functions: its publisher is one of them, or all its exposers are. -/
def GoesWith (removed : List FunctionId) (a : PublishedApi) : Prop :=
  a.publisher ∈ removed ∨ ∀ e ∈ a.description.exposers, e ∈ removed

instance (removed : List FunctionId) : DecidablePred (GoesWith removed) :=
  fun _ => inferInstanceAs (Decidable (_ ∨ _))

/-- An API stays and loses some of its exposers. -/
def LosesTo (removed : List FunctionId) (a : PublishedApi) : Prop :=
  ¬ a.GoesWith removed ∧ ∃ e ∈ a.description.exposers, e ∈ removed

instance (removed : List FunctionId) : DecidablePred (LosesTo removed) :=
  fun _ => inferInstanceAs (Decidable (_ ∧ _))

/-- An API without the profiles of functions, which is a change if it had one of them. -/
def cut (removed : List FunctionId) (now : Instant) (a : PublishedApi) : PublishedApi :=
  { a with
    description := { a.description with
      profiles := a.description.profiles.filter (fun p => p.exposer ∉ removed) }
    updatedAt := if ∃ e ∈ a.description.exposers, e ∈ removed then now else a.updatedAt }

/-- What is made known when an API goes with functions. The exposers are named if the publisher is
one of the functions; otherwise all of them have been taken out before, and none is named. -/
def withdrawal (removed : List FunctionId) (a : PublishedApi) : Change :=
  ⟨.apiUnavailable,
    { apis := [a.id]
      exposers := if a.publisher ∈ removed then a.description.exposers else [] }⟩

/-- Stripping cuts an API. -/
theorem stripExposers_eq_cut : (a.stripExposers removed now).1 = a.cut removed now := by
  have hkept : a.description.profiles.filter (fun p => !removed.contains p.exposer) =
      a.description.profiles.filter (fun p => p.exposer ∉ removed) := by
    refine List.filter_congr fun p _ => ?_
    rw [List.contains_eq_mem, decide_not]
  have hlost : a.description.profiles.length -
        (a.description.profiles.filter (fun p => p.exposer ∉ removed)).length > 0 ↔
      ∃ e ∈ a.description.exposers, e ∈ removed := by
    rw [gt_iff_lt, Nat.sub_pos_iff_lt, List.length_filter_lt_length_iff_exists]
    simp only [ApiDescription.mem_exposers, decide_not, Bool.not_eq_true', Bool.not_eq_false,
      decide_eq_true_eq]
    constructor
    · rintro ⟨p, hp, hr⟩
      exact ⟨_, ⟨p, hp, rfl⟩, by simpa using hr⟩
    · rintro ⟨_, ⟨p, hp, rfl⟩, hr⟩
      exact ⟨p, hp, by simpa using hr⟩
  simp only [stripExposers, hkept, hlost, cut]

/-- Nothing is left of the profiles when all exposers are removed. -/
theorem profiles_cut_eq_nil_iff :
    (a.cut removed now).description.profiles = [] ↔
      ∀ e ∈ a.description.exposers, e ∈ removed := by
  simp [cut, ApiDescription.exposers]

/-- A cascade leaves nothing of an API that goes, and cuts the others. -/
theorem survivor_eq_ite :
    a.survivor removed now = if a.GoesWith removed then none else some (a.cut removed now) := by
  refine Option.ext fun b => ?_
  rw [survivor_eq_some_iff, stripExposers_eq_cut, Ne, profiles_cut_eq_nil_iff, ← and_assoc,
    ← not_or, ← GoesWith]
  split
  · next h => simp [h]
  · next h => simp [h, @eq_comm _ b]

/-- It reports an API that goes as it was, or without profiles if its publisher stays. -/
theorem casualty_eq_ite :
    a.casualty removed now = if a.GoesWith removed then
      some (if a.publisher ∈ removed then a else a.cut removed now) else none := by
  refine Option.ext fun b => ?_
  rw [casualty_eq_some_iff, stripExposers_eq_cut, profiles_cut_eq_nil_iff]
  by_cases hp : a.publisher ∈ removed
  · simp [GoesWith, hp, @eq_comm _ b]
  · simp [GoesWith, hp, @eq_comm _ b]

/-- So this is made known of it. -/
theorem ofApi_casualty (h : a.GoesWith removed) :
    Change.ofApi .apiUnavailable (if a.publisher ∈ removed then a else a.cut removed now) =
      a.withdrawal removed := by
  by_cases hp : a.publisher ∈ removed
  · simp only [withdrawal, if_pos hp, Change.ofApi]
  · have hnil : (a.cut removed now).description.profiles = [] :=
      profiles_cut_eq_nil_iff.mpr (h.resolve_left hp)
    simp only [withdrawal, if_neg hp, Change.ofApi, ApiDescription.exposers, hnil, List.map_nil]
    rfl

/-- An API with a profile depends on functions exactly when it goes with them or loses exposers to
them. -/
theorem dependsOn_iff (hne : a.description.profiles ≠ []) :
    Publications.dependsOn removed a = true ↔ a.GoesWith removed ∨ a.LosesTo removed := by
  have hdepends : Publications.dependsOn removed a = true ↔
      a.publisher ∈ removed ∨ ∃ e ∈ a.description.exposers, e ∈ removed := by
    simp [Publications.dependsOn]
  rw [hdepends]
  constructor
  · rintro (hp | he)
    · exact .inl (.inl hp)
    · by_cases hg : a.GoesWith removed
      · exact .inl hg
      · exact .inr ⟨hg, he⟩
  · rintro ((hp | hall) | ⟨_, he⟩)
    · exact .inl hp
    · obtain ⟨p, hp⟩ := List.exists_mem_of_ne_nil _ hne
      have he : p.exposer ∈ a.description.exposers := ApiDescription.mem_exposers.mpr ⟨p, hp, rfl⟩
      exact .inr ⟨_, he, hall _ he⟩
    · exact .inr he

end PublishedApi

namespace Publications

open PublishedApi

variable {s : Publications} {removed : List FunctionId} {now : Instant}

/-- A cascade leaves the APIs that do not go, cut, in their order. -/
theorem WellFormed.entries_invalidate (hs : s.WellFormed) (removed : List FunctionId)
    (now : Instant) :
    (s.invalidate removed now).1.apis.entries =
      (s.apis.entries.filter (fun e => ¬ e.2.GoesWith removed)).map
        (fun e => (e.1, e.2.cut removed now)) := by
  rw [Table.entries_eq_filterMap (keys_invalidate_sublist hs.keyed removed now)
    (hs.get?_invalidate removed now), ← List.filterMap_eq_map, List.filterMap_filter]
  refine List.filterMap_congr fun e _ => ?_
  rw [survivor_eq_ite]
  by_cases h : e.2.GoesWith removed <;> simp [h]

/-- A name stays when its API does. -/
theorem Indexed.get?_names_invalidate (hs : s.WellFormed) (hi : s.Indexed)
    (removed : List FunctionId) (now : Instant) (key : FunctionId × String) :
    (s.invalidate removed now).1.names.get? key =
      (s.names.get? key).bind (Option.guard (s.invalidate removed now).1.contains) := by
  obtain ⟨publisher, name⟩ := key
  refine Option.ext fun id => ?_
  simp only [(hi.invalidate removed now).names, Option.bind_eq_some_iff, Option.guard_eq_some_iff,
    hi.names, hs.get?_invalidate]
  constructor
  · rintro ⟨b, hb, rfl, rfl⟩
    have hkept : (s.invalidate removed now).1.contains id = true := by
      rw [contains, Table.contains, hs.get?_invalidate, Option.bind_eq_some_iff.mpr hb]
      rfl
    obtain ⟨a, ha, hsurvivor⟩ := hb
    obtain ⟨_, hpublisher, hname⟩ := survivor_keeps hsurvivor
    exact ⟨id, ⟨a, ha, hpublisher.symm, hname.symm⟩, rfl, hkept⟩
  · rintro ⟨_, ⟨a, ha, rfl, rfl⟩, rfl, hkept⟩
    rw [contains, Table.contains, hs.get?_invalidate, Option.isSome_iff_exists] at hkept
    obtain ⟨b, hb⟩ := hkept
    obtain ⟨c, hc, hsurvivor⟩ := Option.bind_eq_some_iff.mp hb
    obtain rfl : a = c := Option.some.inj (ha.symm.trans hc)
    obtain ⟨_, hpublisher, hname⟩ := survivor_keeps hsurvivor
    exact ⟨b, ⟨a, ha, hsurvivor⟩, hpublisher, hname⟩

/-- So the names of these APIs stay, in their order. -/
theorem Indexed.names_invalidate (hs : s.WellFormed) (hi : s.Indexed) (removed : List FunctionId)
    (now : Instant) :
    (s.invalidate removed now).1.names.entries =
      s.names.entries.filter (fun e => (s.invalidate removed now).1.contains e.2) := by
  rw [Table.entries_eq_filterMap (hi.within.invalidate removed now).names
    (hi.get?_names_invalidate hs removed now), ← List.filterMap_eq_filter]
  refine List.filterMap_congr fun e _ => ?_
  by_cases h : (s.invalidate removed now).1.contains e.2 <;> simp [Option.guard, h]

/-- An API in a well-formed store has a profile. -/
theorem WellFormed.profiles_ne_nil (hs : s.WellFormed) {a : PublishedApi}
    (ha : a ∈ s.apis.values) : a.description.profiles ≠ [] := by
  obtain ⟨id, hid⟩ := Table.mem_values_iff.mp ha
  exact (hs id a hid).sound.profiles.nonempty

/-- A cascade hands over the APIs that go, in their order: those whose publisher is removed as they
were, the others without profiles. -/
theorem WellFormed.removed_eq (hs : s.WellFormed) (removed : List FunctionId) (now : Instant) :
    (s.invalidate removed now).2.removed = (s.apis.values.filter (GoesWith removed)).map
      (fun a => if a.publisher ∈ removed then a else a.cut removed now) := by
  rw [(cascade_invalidate hs.keyed).1, List.filterMap_filter, ← List.filterMap_eq_map,
    List.filterMap_filter]
  refine List.filterMap_congr fun a ha => ?_
  rw [casualty_eq_ite]
  by_cases hg : a.GoesWith removed
  · have hd := (dependsOn_iff (hs.profiles_ne_nil ha)).mpr (.inl hg)
    simp [hg, hd]
  · simp [hg]

/-- It hands over the APIs that stay and lose exposers, in their order and as they are then. -/
theorem WellFormed.updated_eq (hs : s.WellFormed) (removed : List FunctionId) (now : Instant) :
    (s.invalidate removed now).2.updated =
      (s.apis.values.filter (LosesTo removed)).map (cut removed now) := by
  rw [(cascade_invalidate hs.keyed).2, List.filterMap_filter, ← List.filterMap_eq_map,
    List.filterMap_filter]
  refine List.filterMap_congr fun a ha => ?_
  rw [survivor_eq_ite]
  have hdepends : dependsOn removed a = true ↔ a.GoesWith removed ∨ a.LosesTo removed :=
    dependsOn_iff (hs.profiles_ne_nil ha)
  by_cases hg : a.GoesWith removed
  · have hl : ¬ a.LosesTo removed := fun hl => hl.1 hg
    simp [hg, hl]
  · by_cases hl : a.LosesTo removed
    · simp [hg, hl, hdepends.mpr (.inr hl)]
    · have hd : dependsOn removed a = false := by
        rw [Bool.eq_false_iff]
        exact fun hd => (hdepends.mp hd).elim hg hl
      simp [hl, hd]

/-- So endpoints are taken down and withdrawals made known of the APIs that go, and then the
updates of those that lose exposers. -/
theorem WellFormed.deeds_invalidate (hs : s.WellFormed) (removed : List FunctionId)
    (now : Instant) :
    (s.invalidate removed now).2.deeds =
      (s.apis.values.filter (GoesWith removed)).flatMap (fun a =>
          [.errand (.deprovision a.id a.publisher), .announcement (a.withdrawal removed)]) ++
        (s.apis.values.filter (LosesTo removed)).map (fun a =>
          .announcement (.ofApi .apiUpdated (a.cut removed now))) := by
  rw [Cascade.deeds, hs.removed_eq, hs.updated_eq, List.flatMap_map, List.map_map]
  congr 1
  refine List.flatMap_congr fun a ha => ?_
  have hgoes : a.GoesWith removed := of_decide_eq_true (List.mem_filter.mp ha).2
  rw [ofApi_casualty hgoes]
  split <;> rfl

/-- These are the changes that are made known. -/
theorem WellFormed.changes_invalidate (hs : s.WellFormed) (removed : List FunctionId)
    (now : Instant) :
    Deed.changes (s.invalidate removed now).2.deeds =
      (s.apis.values.filter (GoesWith removed)).map (withdrawal removed) ++
        (s.apis.values.filter (LosesTo removed)).map
          (fun a => .ofApi .apiUpdated (a.cut removed now)) := by
  rw [Cascade.changes_deeds, hs.removed_eq, hs.updated_eq, List.map_map, List.map_map]
  congr 1
  refine List.map_congr_left fun a ha => ?_
  exact ofApi_casualty (of_decide_eq_true (List.mem_filter.mp ha).2)

end Publications

end ApiExposure
