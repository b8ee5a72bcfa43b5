import Mathlib.Data.List.Forall2
import ApiExposure.Proofs.Discovery.Exact

/-!
# Narrower criteria

Criteria refine others when they ask for all that these ask for: the same values,
or a mask with more features, or a location with more fields. What is found by
the narrower criteria comes from what is found by the wider ones: some APIs are
left out, and of the others some profiles; everything else and the order stay.

Masks are compared digit by digit from the last one on, where a digit that is not
written is zero. Read so, to cover is to have every feature that the other has,
and widths play no part.
-/

namespace ApiExposure

namespace Features

variable {f g h : Features}

/-- The digit at a place counted from the last one. Where none is written it is zero. -/
def digit (f : Features) (place : Nat) : Nat := f.nibbles.reverse.getD place 0

/-- A feature is set: a bit of the digit at a place. -/
def Has (f : Features) (place bit : Nat) : Prop := (f.digit place).testBit bit = true

/-- A mask widened on the left has the digits of the mask from the last one on. -/
theorem nibbleAt_eq {l : List Nat} {width position : Nat} (hl : l.length ≤ width)
    (hposition : position < width) :
    nibbleAt l width position = l.reverse.getD (width - 1 - position) 0 := by
  unfold nibbleAt
  dsimp only
  rw [List.getD_eq_getElem?_getD, List.getD_eq_getElem?_getD]
  split
  · next hpad =>
    have hplace : l.reverse.length ≤ width - 1 - position := by
      rw [List.length_reverse]
      omega
    rw [List.getElem?_eq_none hplace, Option.getD_none]
  · next hpad =>
    have hplace : width - 1 - position < l.length := by omega
    have hindex : l.length - 1 - (width - 1 - position) = position - (width - l.length) := by omega
    rw [List.getElem?_reverse hplace, hindex]

/-- Beyond the digits that are written all are zero. -/
theorem digit_of_length_le {place : Nat} (h : f.nibbles.length ≤ place) : f.digit place = 0 := by
  have hplace : f.nibbles.reverse.length ≤ place := by rwa [List.length_reverse]
  rw [digit, List.getD_eq_getElem?_getD, List.getElem?_eq_none hplace, Option.getD_none]

/-- Every digit is one of sixteen. -/
theorem digit_lt (f : Features) (place : Nat) : f.digit place < 16 := by
  rw [digit, List.getD_eq_getElem?_getD]
  cases hget : f.nibbles.reverse[place]? with
  | none => simp
  | some d =>
    have hd : d ∈ f.nibbles := List.mem_reverse.mp (List.mem_of_getElem? hget)
    obtain ⟨c, _, hc⟩ := List.mem_filterMap.mp hd
    exact Text.hexDigit?_lt hc

/-- A digit has no bit outside of another one exactly when this has all its bits. -/
theorem and_complement_eq_zero_iff {x y : Nat} (hx : x < 16) :
    x &&& (15 ^^^ y) = 0 ↔ ∀ bit, x.testBit bit = true → y.testBit bit = true := by
  have hfour : ∀ bit, x.testBit bit = true → Nat.testBit 15 bit = true := by
    intro bit hbit
    have hlt : bit < 4 := by
      by_contra hge
      have hpow : 2 ^ 4 ≤ 2 ^ bit := Nat.pow_le_pow_right (by omega) (by omega)
      rw [Nat.testBit_lt_two_pow (Nat.lt_of_lt_of_le hx hpow)] at hbit
      cases hbit
    have hones : Nat.testBit 15 bit = decide (bit < 4) := Nat.testBit_two_pow_sub_one 4 bit
    rw [hones, decide_eq_true hlt]
  constructor
  · intro hzero bit hbit
    have hand := congrArg (fun n => n.testBit bit) hzero
    simpa [Nat.testBit_and, Nat.testBit_xor, hbit, hfour bit hbit] using hand
  · intro hbits
    refine Nat.eq_of_testBit_eq fun bit => ?_
    rw [Nat.testBit_and, Nat.testBit_xor, Nat.zero_testBit]
    cases hbit : x.testBit bit with
    | false => rfl
    | true => rw [hfour bit hbit, hbits bit hbit]; rfl

/-- A mask covers another one exactly when it has every feature of it. -/
theorem covers_iff : f.covers g = true ↔ ∀ place bit, g.Has place bit → f.Has place bit := by
  have hwidth : ∀ position, position < max f.nibbles.length g.nibbles.length →
      nibbleAt g.nibbles (max f.nibbles.length g.nibbles.length) position &&&
          (15 ^^^ nibbleAt f.nibbles (max f.nibbles.length g.nibbles.length) position) =
        g.digit (max f.nibbles.length g.nibbles.length - 1 - position) &&&
          (15 ^^^ f.digit (max f.nibbles.length g.nibbles.length - 1 - position)) := by
    intro position hposition
    rw [nibbleAt_eq (Nat.le_max_left _ _) hposition, nibbleAt_eq (Nat.le_max_right _ _) hposition]
    rfl
  simp only [covers, List.all_eq_true, List.mem_range, beq_iff_eq, Has]
  constructor
  · intro hall place
    by_cases hplace : place < max f.nibbles.length g.nibbles.length
    · have hposition : max f.nibbles.length g.nibbles.length - 1 - place <
          max f.nibbles.length g.nibbles.length := by omega
      have hback : max f.nibbles.length g.nibbles.length - 1 -
          (max f.nibbles.length g.nibbles.length - 1 - place) = place := by omega
      have hzero := hall _ hposition
      rw [hwidth _ hposition, hback] at hzero
      exact (and_complement_eq_zero_iff (g.digit_lt place)).mp hzero
    · have hbeyond : g.nibbles.length ≤ place := by omega
      intro bit hbit
      rw [digit_of_length_le hbeyond, Nat.zero_testBit] at hbit
      cases hbit
  · intro hall position hposition
    rw [hwidth position hposition]
    exact (and_complement_eq_zero_iff (g.digit_lt _)).mpr (hall _)

/-- A mask is empty exactly when it has no feature. -/
theorem isEmpty_iff : f.isEmpty = true ↔ ∀ place bit, ¬ f.Has place bit := by
  simp only [isEmpty, List.all_eq_true, beq_iff_eq, Has]
  constructor
  · intro hzero place bit
    have hdigit : f.digit place = 0 := by
      rw [digit, List.getD_eq_getElem?_getD]
      cases hget : f.nibbles.reverse[place]? with
      | none => rfl
      | some d => exact hzero d (List.mem_reverse.mp (List.mem_of_getElem? hget))
    rw [hdigit, Nat.zero_testBit]
    exact Bool.false_ne_true
  · intro hnone d hd
    obtain ⟨place, hplace⟩ := List.mem_iff_getElem?.mp (List.mem_reverse.mpr hd)
    have hdigit : f.digit place = d := by
      rw [digit, List.getD_eq_getElem?_getD, hplace, Option.getD_some]
    refine Nat.eq_of_testBit_eq fun bit => ?_
    rw [← hdigit, Nat.zero_testBit, Bool.eq_false_iff]
    exact hnone place bit

theorem covers_refl (f : Features) : f.covers f = true := covers_iff.mpr fun _ _ hf => hf

/-- What covers a mask covers all that this one covers. -/
theorem covers_trans (hfg : f.covers g = true) (hgh : g.covers h = true) : f.covers h = true :=
  covers_iff.mpr fun place bit hbit =>
    covers_iff.mp hfg place bit (covers_iff.mp hgh place bit hbit)

/-- What an empty mask covers is empty. -/
theorem isEmpty_of_covers (hf : f.isEmpty = true) (hfg : f.covers g = true) : g.isEmpty = true :=
  isEmpty_iff.mpr fun place bit hbit =>
    isEmpty_iff.mp hf place bit (covers_iff.mp hfg place bit hbit)

end Features

namespace Json

/-- An array is the same as arrays with the same items. -/
theorem same_arr_iff {items : List Json} {b : Json} :
    same (.arr items) b = true ↔ ∃ others, b = .arr others ∧ sameItems items others = true := by
  cases b <;> simp [same]

theorem same_obj_iff {members : List (String × Json)} {b : Json} :
    same (.obj members) b = true ↔
      ∃ others, b = .obj others ∧ sameMembers members others = true := by
  cases b <;> simp [same]

/-- Items are the same one by one. -/
theorem sameItems_cons_iff {a : Json} {items others : List Json} :
    sameItems (a :: items) others = true ↔
      ∃ b rest, others = b :: rest ∧ same a b = true ∧ sameItems items rest = true := by
  cases others <;> simp [sameItems]

/-- Members are the same one by one, with their keys. -/
theorem sameMembers_cons_iff {k : String} {a : Json} {members others : List (String × Json)} :
    sameMembers ((k, a) :: members) others = true ↔
      ∃ b rest, others = (k, b) :: rest ∧ same a b = true ∧ sameMembers members rest = true := by
  cases others with
  | nil => simp [sameMembers]
  | cons m rest =>
    obtain ⟨l, b⟩ := m
    simp only [sameMembers, Bool.and_eq_true, beq_iff_eq, List.cons.injEq, Prod.mk.injEq]
    constructor
    · rintro ⟨⟨rfl, hab⟩, hrest⟩
      exact ⟨b, rest, ⟨⟨rfl, rfl⟩, rfl⟩, hab, hrest⟩
    · rintro ⟨_, _, ⟨⟨rfl, rfl⟩, rfl⟩, hab, hrest⟩
      exact ⟨⟨rfl, hab⟩, hrest⟩

mutual

/-- Values that are the same as one value are the same. -/
theorem same_trans : (a : Json) → {b c : Json} → same a b = true → same b c = true →
    same a c = true
  | .null, b, c, hab, hbc => by cases b <;> first | exact hbc | simp [same] at hab
  | .bool x, b, c, hab, hbc => by
    cases b <;> simp only [same, beq_iff_eq, Bool.false_eq_true] at hab
    rwa [hab]
  | .int x, b, c, hab, hbc => by
    cases b <;> simp only [same, beq_iff_eq, Bool.false_eq_true] at hab
    rwa [hab]
  | .real x, b, c, hab, hbc => by
    cases b <;> simp only [same, Bool.false_eq_true] at hab
    cases c <;> simp only [same, Bool.false_eq_true] at hbc
    exact Binary64.same_trans hab hbc
  | .str x, b, c, hab, hbc => by
    cases b <;> simp only [same, beq_iff_eq, Bool.false_eq_true] at hab
    rwa [hab]
  | .arr items, b, c, hab, hbc => by
    obtain ⟨others, rfl, hitems⟩ := same_arr_iff.mp hab
    obtain ⟨last, rfl, hothers⟩ := same_arr_iff.mp hbc
    exact same_arr_iff.mpr ⟨last, rfl, sameItems_trans items hitems hothers⟩
  | .obj members, b, c, hab, hbc => by
    obtain ⟨others, rfl, hmembers⟩ := same_obj_iff.mp hab
    obtain ⟨last, rfl, hothers⟩ := same_obj_iff.mp hbc
    exact same_obj_iff.mpr ⟨last, rfl, sameMembers_trans members hmembers hothers⟩

/-- Sameness of items is transitive, item by item. -/
theorem sameItems_trans : (items : List Json) → {others last : List Json} →
    sameItems items others = true → sameItems others last = true → sameItems items last = true
  | [], others, last, hio, hol => by
    cases others with
    | nil => exact hol
    | cons => simp [sameItems] at hio
  | a :: items, others, last, hio, hol => by
    obtain ⟨b, rest, rfl, hab, hrest⟩ := sameItems_cons_iff.mp hio
    obtain ⟨c, end_, rfl, hbc, hend⟩ := sameItems_cons_iff.mp hol
    exact sameItems_cons_iff.mpr
      ⟨c, end_, rfl, same_trans a hab hbc, sameItems_trans items hrest hend⟩

theorem sameMembers_trans : (members : List (String × Json)) →
    {others last : List (String × Json)} → sameMembers members others = true →
    sameMembers others last = true → sameMembers members last = true
  | [], others, last, hmo, hol => by
    cases others with
    | nil => exact hol
    | cons => simp [sameMembers] at hmo
  | (k, a) :: members, others, last, hmo, hol => by
    obtain ⟨b, rest, rfl, hab, hrest⟩ := sameMembers_cons_iff.mp hmo
    obtain ⟨c, end_, rfl, hbc, hend⟩ := sameMembers_cons_iff.mp hol
    exact sameMembers_cons_iff.mpr
      ⟨c, end_, rfl, same_trans a hab hbc, sameMembers_trans members hrest hend⟩

end

end Json

namespace Location

/-- A wanted field that agrees with a held one agrees with all that this agrees with. -/
theorem agrees_trans {α : Type} [BEq α] (htrans : ∀ x y z : α, (x == y) = true →
    (y == z) = true → (x == z) = true) {held wanted less : Option α}
    (h : agrees held wanted = true) (hless : agrees wanted less = true) :
    agrees held less = true := by
  cases less with
  | none => cases held <;> rfl
  | some z =>
    cases wanted with
    | none => cases hless
    | some y =>
      cases held with
      | none => cases h
      | some x => exact htrans x y z h hless

/-- What satisfies an example satisfies every example that the example satisfies. -/
theorem satisfies_trans {held preferred less : Location} (h : held.satisfies preferred = true)
    (hless : preferred.satisfies less = true) : held.satisfies less = true := by
  have htext : ∀ x y z : String, (x == y) = true → (y == z) = true → (x == z) = true := by
    intro x y z hxy hyz
    rwa [beq_iff_eq.mp hxy]
  have hjson : ∀ x y z : Json, (x == y) = true → (y == z) = true → (x == z) = true :=
    fun x _ _ hxy hyz => Json.same_trans x hxy hyz
  simp only [satisfies, Bool.and_eq_true] at h hless ⊢
  exact ⟨⟨agrees_trans htext h.1.1 hless.1.1, agrees_trans hjson h.1.2 hless.1.2⟩,
    agrees_trans hjson h.2 hless.2⟩

end Location

namespace Criteria

/-- Criteria ask for all that others ask for. -/
structure Refines (narrow wide : Criteria) : Prop where
  /-- The same name. -/
  name : ∀ n ∈ wide.name, n ∈ narrow.name
  /-- The same version. -/
  version : ∀ v ∈ wide.version, v ∈ narrow.version
  /-- The same kind of communication. -/
  commType : ∀ t ∈ wide.commType, t ∈ narrow.commType
  /-- The same protocol. -/
  protocol : ∀ q ∈ wide.protocol, q ∈ narrow.protocol
  /-- The same exposing function. -/
  exposer : ∀ e ∈ wide.exposer, e ∈ narrow.exposer
  /-- The same data format. -/
  dataFormat : ∀ f ∈ wide.dataFormat, f ∈ narrow.dataFormat
  /-- The same category. -/
  category : ∀ k ∈ wide.category, k ∈ narrow.category
  /-- The same location or one with more fields. -/
  location : ∀ l ∈ wide.location, ∃ m ∈ narrow.location, m.satisfies l = true
  /-- The same features or more of them. -/
  features : ∀ r ∈ wide.features, ∃ q ∈ narrow.features, q.covers r = true
  /-- The same features of the API itself or more of them. -/
  apiFeatures : ∀ r ∈ wide.apiFeatures, ∃ q ∈ narrow.apiFeatures, q.covers r = true

/-- Who provides the features of a mask provides those of every mask that it covers. -/
theorem Provides.of_covers {advertised narrow wide : Option Features}
    (h : Provides advertised narrow)
    (hcovers : ∀ r ∈ wide, ∃ q ∈ narrow, q.covers r = true) : Provides advertised wide := by
  intro r hr
  obtain ⟨q, hq, hqr⟩ := hcovers r hr
  obtain ⟨hsome, hnone⟩ := h q hq
  exact ⟨fun a ha => Features.covers_trans (hsome a ha) hqr,
    fun ha => Features.isEmpty_of_covers (hnone ha) hqr⟩

variable {narrow wide : Criteria}

/-- An API that satisfies narrower criteria satisfies the wider ones. -/
theorem FitsApi.widen {a : PublishedApi} (h : narrow.FitsApi a) (href : narrow.Refines wide) :
    wide.FitsApi a where
  name := fun n hn => h.name n (href.name n hn)
  category := fun k hk => h.category k (href.category k hk)
  version := by
    intro n hn
    obtain ⟨v, hv, hname, hsupports⟩ := h.version n (href.version n hn)
    exact ⟨v, hv, hname, fun t ht => hsupports t (href.commType t ht)⟩
  commType := fun t ht => h.commType t (href.commType t ht)
  features := h.features.of_covers href.features
  apiFeatures := h.apiFeatures.of_covers href.apiFeatures

/-- So does a profile. -/
theorem FitsProfile.widen {p : Profile} (h : narrow.FitsProfile p) (href : narrow.Refines wide) :
    wide.FitsProfile p where
  exposer := fun e he => h.exposer e (href.exposer e he)
  protocol := fun q hq => h.protocol q (href.protocol q hq)
  dataFormat := fun f hf => h.dataFormat f (href.dataFormat f hf)
  location := by
    intro l hl
    obtain ⟨m, hm, hml⟩ := href.location l hl
    obtain ⟨k, hk, hkm⟩ := h.location m hm
    exact ⟨k, hk, Location.satisfies_trans hkm hml⟩

end Criteria

/-- An API is another one with some of its profiles left out. -/
structure PublishedApi.Narrows (b a : PublishedApi) : Prop where
  /-- Profiles are left out, and the others keep their order. -/
  profiles : b.description.profiles.Sublist a.description.profiles
  /-- Nothing else differs. -/
  rest : { b with description := { b.description with
    profiles := a.description.profiles } } = a

/-- What one way of picking gives comes from what another one gives when it does so for every
element. -/
theorem exists_sublist_filterMap {α β : Type} {f g : α → Option β} {R : β → β → Prop}
    {l : List α} (h : ∀ a ∈ l, ∀ b, f a = some b → ∃ c, g a = some c ∧ R b c) :
    ∃ kept, kept.Sublist (l.filterMap g) ∧ List.Forall₂ R (l.filterMap f) kept := by
  induction l with
  | nil => exact ⟨[], List.Sublist.refl _, .nil⟩
  | cons a l ih =>
    rw [List.forall_mem_cons] at h
    obtain ⟨kept, hkept, hrelated⟩ := ih h.2
    cases hf : f a with
    | none =>
      rw [List.filterMap_cons_none hf]
      refine ⟨kept, hkept.trans ?_, hrelated⟩
      cases hg : g a with
      | none => rw [List.filterMap_cons_none hg]
      | some c =>
        rw [List.filterMap_cons_some hg]
        exact List.sublist_cons_self _ _
    | some b =>
      obtain ⟨c, hg, hbc⟩ := h.1 b hf
      rw [List.filterMap_cons_some hf, List.filterMap_cons_some hg]
      exact ⟨c :: kept, hkept.cons_cons c, .cons hbc hrelated⟩

namespace Core

variable {c : Core} {grants : List Grant} {narrow wide : Criteria}

/-- A profile that is shown by narrower criteria is shown by the wider ones. -/
theorem Shows.widen {a : PublishedApi} {p : Profile} (h : c.Shows grants narrow a p)
    (href : narrow.Refines wide) : c.Shows grants wide a p :=
  ⟨h.fits.widen href, h.live, h.granted⟩

/-- By narrower criteria an API is shown with fewer profiles. -/
theorem shown_narrows (href : narrow.Refines wide) (a : PublishedApi) :
    (c.shown grants narrow a).Narrows (c.shown grants wide a) where
  profiles := by
    have hfilter : a.description.profiles.filter (fun p => c.Shows grants narrow a p) =
        (a.description.profiles.filter (fun p => c.Shows grants wide a p)).filter
          (fun p => c.Shows grants narrow a p) := by
      rw [List.filter_filter]
      refine List.filter_congr fun p _ => ?_
      by_cases hp : c.Shows grants narrow a p
      · simp [hp, hp.widen href]
      · simp [hp]
    change (a.description.profiles.filter _).Sublist _
    rw [hfilter]
    exact List.filter_sublist
  rest := rfl

/-- What is found by narrower criteria comes from what is found by the wider ones. -/
theorem found_refines (hc : c.store.WellFormed) (href : narrow.Refines wide) :
    ∃ kept, kept.Sublist (c.found grants wide) ∧
      List.Forall₂ PublishedApi.Narrows (c.found grants narrow) kept := by
  rw [found, found, Publications.query, Publications.query, List.filterMap_filter,
    List.filterMap_filter]
  refine exists_sublist_filterMap fun a ha b hb => ?_
  obtain ⟨id, hid⟩ := Table.mem_values_iff.mp ha
  have hsound := (hc id a hid).sound
  split at hb
  · next hselects =>
    obtain ⟨hmatches, _⟩ := Bool.and_eq_true_iff.mp hselects
    obtain ⟨hpublisher, ⟨p, hp, hshows⟩, rfl⟩ := view?_eq_some_iff.mp hb
    have hwide : c.Shows grants wide a p := hshows.widen href
    have hfits : wide.FitsApi a := ((Criteria.matchesApi_iff hsound).mp hmatches).widen href
    have hselectsWide : wide.selects a = true :=
      Bool.and_eq_true_iff.mpr ⟨(Criteria.matchesApi_iff hsound).mpr hfits,
        List.any_eq_true.mpr ⟨p, hp, Criteria.matchesProfile_iff.mpr hwide.fits⟩⟩
    rw [if_pos hselectsWide]
    exact ⟨_, view?_eq_some_iff.mpr ⟨hpublisher, ⟨p, hp, hwide⟩, rfl⟩, shown_narrows href a⟩
  · cases hb

end Core

namespace System

/-- In every state that may be seen an onboarded invoker finds by narrower criteria what it finds by
the wider ones without some of the APIs and without some of the profiles of the others. -/
theorem discover_refines {s : System} (hs : s.Seen) {id : InvokerId} {i : InvokerIdentity}
    (hi : s.core.invokers.table.get? id = some i) {narrow wide : Criteria}
    (href : narrow.Refines wide) :
    ∃ few many kept, s.core.discover id narrow = .ok few ∧ s.core.discover id wide = .ok many ∧
      kept.Sublist many ∧ List.Forall₂ PublishedApi.Narrows few kept := by
  have hfound : ∃ kept, kept.Sublist (s.core.found i.grants wide) ∧
      List.Forall₂ PublishedApi.Narrows (s.core.found i.grants narrow) kept :=
    Core.found_refines hs.tracked_and_wellFormed.2 href
  obtain ⟨kept, hkept, hnarrows⟩ := hfound
  exact ⟨_, _, kept, Core.discover_eq_found hi narrow, Core.discover_eq_found hi wide, hkept,
    hnarrows⟩

/-- A domain with a publisher and two exposers. -/
def mirroredDomain : DomainRegistration where
  credential := "secret"
  functions := [
    { role := some .publisher, registration := some { publicKey := "key" } },
    { role := some .exposer, registration := some { publicKey := "key" } },
    { role := some .exposer, registration := some { publicKey := "key" } }]

/-- An API on both exposers of the mirrored domain, in one data centre. -/
def mirroredApi : ApiDescription where
  name := "maps"
  profiles := [
    { exposer := .generate .exposer "aaa"
      location := some { dataCentre := some "north", civicAddress := some (.int 7) } },
    { exposer := .generate .exposer "aaaa", location := some { dataCentre := some "north" } }]
  versions := [{ name := "v1" }]
  features := some ⟨"7", rfl⟩

/-- The mirrored API is published, and an invoker is granted all of it. -/
def mirroredSchedule : List Move := [
  .start 0 (.registerProvider mirroredDomain) (.lettered 'a' default),
  .start 1 (.publish samplePublisher mirroredApi) (.lettered 'b' default),
  .resume 1 (.errand (.ok ())),
  .start 2 (.onboard { onboarding := { publicKey := "key" }, requested := [.generate "b"] })
    (.lettered 'c' default),
  .resume 2 (.client (.ok ⟨"client", "secret"⟩))]

/-- What is in the data centre and has the least feature. -/
def wideCriteria : Criteria where
  location := some { dataCentre := some "north" }
  features := some ⟨"1", rfl⟩

/-- What is at an address in the data centre and has two features. -/
def narrowCriteria : Criteria where
  location := some { dataCentre := some "north", civicAddress := some (.int 7) }
  features := some ⟨"03", rfl⟩

/-- One of the two profiles of the mirrored API is left out by the narrower criteria. -/
theorem discover_refines_sample :
    ∃ (s : System) (few many kept : List PublishedApi), s.Seen ∧
      narrowCriteria.Refines wideCriteria ∧
      s.core.discover (.generate "c") narrowCriteria = .ok few ∧
      s.core.discover (.generate "c") wideCriteria = .ok many ∧
      kept.Sublist many ∧ List.Forall₂ PublishedApi.Narrows few kept ∧
      few.map (·.description.exposers) = [[.generate .exposer "aaa"]] ∧
      many.map (·.description.exposers) =
        [[.generate .exposer "aaa", .generate .exposer "aaaa"]] := by
  have hrefines : narrowCriteria.Refines wideCriteria := by
    constructor
    case location =>
      rintro l ⟨⟩
      exact ⟨_, rfl, rfl⟩
    case features =>
      rintro r ⟨⟩
      exact ⟨_, rfl, by decide⟩
    all_goals exact fun _ h => nomatch h
  have hrun : (fresh.run mirroredSchedule).bind (fun s =>
      (s.core.invokers.table.get? (.generate "c")).map (fun _ =>
        ((s.core.discover (.generate "c") narrowCriteria).map (·.map (·.description.exposers)),
          (s.core.discover (.generate "c") wideCriteria).map (·.map (·.description.exposers))))) =
      some (.ok [[.generate .exposer "aaa"]],
        .ok [[.generate .exposer "aaa", .generate .exposer "aaaa"]]) := rfl
  obtain ⟨s, hs, hrun⟩ := Option.bind_eq_some_iff.mp hrun
  obtain ⟨i, hi, hfound⟩ := Option.map_eq_some_iff.mp hrun
  have hseen : s.Seen := seen_run hs
  obtain ⟨few, many, kept, hfew, hmany, hkept, hnarrows⟩ := discover_refines hseen hi hrefines
  rw [hfew, hmany, Prod.mk.injEq] at hfound
  exact ⟨s, few, many, kept, hseen, hrefines, hfew, hmany, hkept, hnarrows,
    Except.ok.inj hfound.1, Except.ok.inj hfound.2⟩

end System

end ApiExposure
