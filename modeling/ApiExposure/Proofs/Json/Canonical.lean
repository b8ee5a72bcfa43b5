import Mathlib.Data.List.Nodup
import Mathlib.Data.String.Basic
import ApiExposure.Number.Word
import ApiExposure.Json.Draft

/-!
# Values of drafts

A value lists the members of its objects by ascending key, and this makes it
canonical: it is the value of its own draft. A draft that is collected has the
same value. Neither gets deeper on the way from a draft to its value, and no
integer leaves its 64 bits, which is what a text needs to be read back.
-/

namespace ApiExposure

/-- An integer fits 64 bits, with or without a sign. -/
def Word.Holds (n : Int) : Prop := leastSigned ≤ n ∧ n ≤ greatest

namespace Draft

mutual

/-- Integers have 64 bits, and arrays and objects are nested no deeper than a given number. -/
def Fits : Draft → Nat → Prop
  | .int z, _ => Word.Holds z
  | .arr items _, n => 0 < n ∧ ItemsFit items (n - 1)
  | .obj members _, n => 0 < n ∧ MembersFit members (n - 1)
  | .void, n => 0 < n
  | _, _ => True

/-- All items fit. -/
def ItemsFit : List Draft → Nat → Prop
  | [], _ => True
  | d :: ds, n => Fits d n ∧ ItemsFit ds n

/-- All members fit. -/
def MembersFit : List (Option String × Draft) → Nat → Prop
  | [], _ => True
  | (_, d) :: ds, n => Fits d n ∧ MembersFit ds n

end

/-- Items fit together when each of them does. -/
theorem itemsFit_iff {ds : List Draft} {n : Nat} : ItemsFit ds n ↔ ∀ d ∈ ds, d.Fits n := by
  induction ds with
  | nil => simp [ItemsFit]
  | cons d ds ih => rw [ItemsFit, ih, List.forall_mem_cons]

theorem membersFit_iff {ms : List (Option String × Draft)} {n : Nat} :
    MembersFit ms n ↔ ∀ m ∈ ms, m.2.Fits n := by
  induction ms with
  | nil => simp [MembersFit]
  | cons m ms ih => rw [MembersFit, ih, List.forall_mem_cons]

/-- The drafts of items, one by one. -/
theorem ofItems_eq_map (vs : List Json) : ofItems vs = vs.map ofJson := by
  induction vs with
  | nil => rfl
  | cons v vs ih => rw [ofItems, ih, List.map_cons]

theorem ofMembers_eq_map (ms : List (String × Json)) :
    ofMembers ms = ms.map (fun m => (some m.1, ofJson m.2)) := by
  induction ms with
  | nil => rfl
  | cons m ms ih => rw [ofMembers, ih, List.map_cons]

/-- Items are collected one by one. -/
theorem collectedItems_eq_map (ds : List Draft) : collectedItems ds = ds.map collected := by
  induction ds with
  | nil => rfl
  | cons d ds ih => rw [collectedItems, ih, List.map_cons]

theorem collectedMembers_eq_map (ms : List (Option String × Draft)) :
    collectedMembers ms = ms.map (fun m => (m.1, collected m.2)) := by
  induction ms with
  | nil => rfl
  | cons m ms ih => rw [collectedMembers, ih, List.map_cons]

/-- An object is marked when it is closed without members. -/
theorem collected_obj (ms : List (Option String × Draft)) (closed : Bool) :
    collected (.obj ms closed) =
      if ms = [] ∧ closed = true then .void else .obj (collectedMembers ms) closed := by
  cases ms with
  | nil => cases closed <;> rfl
  | cons m ms => rfl

mutual

/-- Collecting gives no more depth. -/
theorem fits_collected : (d : Draft) → {n : Nat} → d.Fits n → d.collected.Fits n
  | .null, _, h => h
  | .bool _, _, h => h
  | .int _, _, h => h
  | .real _, _, h => h
  | .str _, _, h => h
  | .arr items _, _, h => ⟨h.1, itemsFit_collected items h.2⟩
  | .obj ms closed, _, h => by
    rw [collected_obj]
    split
    · exact h.1
    · exact ⟨h.1, membersFit_collected ms h.2⟩
  | .void, _, h => h
  | .unrepresentable, _, h => h
  | .broken, _, h => h

/-- Collecting items makes none of them deeper. -/
theorem itemsFit_collected : (ds : List Draft) → {n : Nat} → ItemsFit ds n →
    ItemsFit (collectedItems ds) n
  | [], _, _ => trivial
  | d :: ds, _, h => ⟨fits_collected d h.1, itemsFit_collected ds h.2⟩

theorem membersFit_collected : (ms : List (Option String × Draft)) → {n : Nat} →
    MembersFit ms n → MembersFit (collectedMembers ms) n
  | [], _, _ => trivial
  | (_, d) :: ms, _, h => ⟨fits_collected d h.1, membersFit_collected ms h.2⟩

end

mutual

/-- A draft that is collected keeps its value. -/
theorem value?_collected : (d : Draft) → d.collected.value? = d.value?
  | .null => rfl
  | .bool _ => rfl
  | .int _ => rfl
  | .real _ => rfl
  | .str _ => rfl
  | .arr items closed => by
    simp only [collected, value?, itemValues?_collected items]
  | .obj ms closed => by
    rw [collected_obj]
    split
    · next h =>
      obtain ⟨rfl, rfl⟩ := h
      rfl
    · simp only [value?, memberValues?_collected ms]
  | .void => rfl
  | .unrepresentable => rfl
  | .broken => rfl

/-- Collected items have the values of before. -/
theorem itemValues?_collected : (ds : List Draft) →
    itemValues? (collectedItems ds) = itemValues? ds
  | [] => rfl
  | d :: ds => by
    simp only [collectedItems, itemValues?, value?_collected d, itemValues?_collected ds]

/-- Collected members have the values of before, whatever has been gathered already. -/
theorem memberValues?_collected : (ms : List (Option String × Draft)) →
    (acc : List (String × Json)) →
    memberValues? (collectedMembers ms) acc = memberValues? ms acc
  | [], _ => rfl
  | (key, d) :: ms, acc => by
    simp only [collectedMembers, memberValues?, value?_collected d, memberValues?_collected ms]

end

end Draft

namespace Json

mutual

/-- Every object lists its members by strictly ascending key. -/
def Canonical : Json → Prop
  | .arr items => ItemsCanonical items
  | .obj members => (members.map (·.1)).Pairwise (· < ·) ∧ MembersCanonical members
  | _ => True

/-- All items are canonical. -/
def ItemsCanonical : List Json → Prop
  | [] => True
  | v :: vs => Canonical v ∧ ItemsCanonical vs

/-- All values of members are canonical. -/
def MembersCanonical : List (String × Json) → Prop
  | [] => True
  | (_, v) :: ms => Canonical v ∧ MembersCanonical ms

end

/-- Items are canonical together when each of them is. -/
theorem itemsCanonical_iff {vs : List Json} : ItemsCanonical vs ↔ ∀ v ∈ vs, v.Canonical := by
  induction vs with
  | nil => simp [ItemsCanonical]
  | cons v vs ih => rw [ItemsCanonical, ih, List.forall_mem_cons]

theorem membersCanonical_iff {ms : List (String × Json)} :
    MembersCanonical ms ↔ ∀ m ∈ ms, m.2.Canonical := by
  induction ms with
  | nil => simp [MembersCanonical]
  | cons m ms ih => rw [MembersCanonical, ih, List.forall_mem_cons]

/-- A value fits when its draft does. -/
def Fits (v : Json) (n : Nat) : Prop := (Draft.ofJson v).Fits n

/-- An array takes a level, and its items fit what is left. -/
theorem fits_arr {vs : List Json} {n : Nat} :
    (arr vs).Fits n ↔ 0 < n ∧ ∀ v ∈ vs, v.Fits (n - 1) := by
  rw [Fits, Draft.ofJson, Draft.Fits, Draft.itemsFit_iff, Draft.ofItems_eq_map,
    List.forall_mem_map]
  rfl

/-- An object takes a level, and its members fit what is left. -/
theorem fits_obj {ms : List (String × Json)} {n : Nat} :
    (obj ms).Fits n ↔ 0 < n ∧ ∀ m ∈ ms, m.2.Fits (n - 1) := by
  rw [Fits, Draft.ofJson, Draft.Fits, Draft.membersFit_iff, Draft.ofMembers_eq_map,
    List.forall_mem_map]
  rfl

/-- An array is canonical when its items are. -/
theorem canonical_arr {vs : List Json} : (arr vs).Canonical ↔ ∀ v ∈ vs, v.Canonical := by
  rw [Canonical, itemsCanonical_iff]

/-- An object is canonical when its keys ascend and its members are canonical. -/
theorem canonical_obj {ms : List (String × Json)} :
    (obj ms).Canonical ↔ (ms.map (·.1)).Pairwise (· < ·) ∧ ∀ m ∈ ms, m.2.Canonical := by
  rw [Canonical, membersCanonical_iff]

section Insert

variable {key : String} {value : Json} {l ms : List (String × Json)}

/-- What is put in its place is there, and what was there is or was replaced. -/
theorem mem_of_mem_insertMember {m : String × Json} (h : m ∈ insertMember key value l) :
    m = (key, value) ∨ m ∈ l := by
  induction l with
  | nil => exact .inl (List.mem_singleton.mp h)
  | cons e rest ih =>
    obtain ⟨k, v⟩ := e
    unfold insertMember at h
    split at h
    · exact (List.mem_cons.mp h)
    · split at h
      · rcases List.mem_cons.mp h with h | h
        · exact .inl h
        · exact .inr (List.mem_cons_of_mem _ h)
      · rcases List.mem_cons.mp h with h | h
        · exact .inr (h ▸ List.mem_cons_self)
        · exact (ih h).imp_right (List.mem_cons_of_mem _)

/-- Members stay in ascending order of their keys. -/
theorem pairwise_insertMember (hl : (l.map (·.1)).Pairwise (· < ·)) :
    ((insertMember key value l).map (·.1)).Pairwise (· < ·) := by
  induction l with
  | nil => exact List.pairwise_singleton _ _
  | cons e rest ih =>
    obtain ⟨k, v⟩ := e
    rw [List.map_cons, List.pairwise_cons] at hl
    unfold insertMember
    split
    · next hlt =>
      rw [List.map_cons, List.pairwise_cons, List.map_cons, List.pairwise_cons]
      refine ⟨fun k' hk' => ?_, hl⟩
      rcases List.mem_cons.mp hk' with rfl | hk'
      · exact hlt
      · exact hlt.trans (hl.1 k' hk')
    · split
      · next heq =>
        subst heq
        rwa [List.map_cons, List.pairwise_cons]
      · next hlt hne =>
        rw [List.map_cons, List.pairwise_cons]
        refine ⟨fun k' hk' => ?_, ih hl.2⟩
        obtain ⟨m, hm, rfl⟩ := List.mem_map.mp hk'
        rcases mem_of_mem_insertMember hm with rfl | hm
        · exact lt_of_le_of_ne (not_lt.mp hlt) (Ne.symm hne)
        · exact hl.1 m.1 (List.mem_map.mpr ⟨m, hm, rfl⟩)

/-- A key behind all others goes to the end. -/
theorem insertMember_eq_append (h : ∀ m ∈ l, m.1 < key) :
    insertMember key value l = l ++ [(key, value)] := by
  induction l with
  | nil => rfl
  | cons e rest ih =>
    obtain ⟨k, v⟩ := e
    rw [List.forall_mem_cons] at h
    have hlt : ¬ key < k := not_lt.mpr (le_of_lt h.1)
    have hne : key ≠ k := (ne_of_lt h.1).symm
    rw [insertMember, if_neg hlt, if_neg hne, ih h.2, List.cons_append]

/-- A new key is one more member. -/
theorem insertMember_perm (h : key ∉ l.map (·.1)) :
    (insertMember key value l).Perm ((key, value) :: l) := by
  induction l with
  | nil => exact .refl _
  | cons e rest ih =>
    obtain ⟨k, v⟩ := e
    rw [List.map_cons, List.mem_cons, not_or] at h
    unfold insertMember
    split
    · exact .refl _
    · rw [if_neg h.1]
      exact ((ih h.2).cons _).trans (.swap _ _ _)

/-- Members of different keys are put in order one after the other. -/
theorem foldl_insertMember (hms : (ms.map (·.1)).Nodup) (hl : (l.map (·.1)).Pairwise (· < ·))
    (hapart : ∀ m ∈ ms, m.1 ∉ l.map (·.1)) :
    (ms.foldl (fun acc m => insertMember m.1 m.2 acc) l).Perm (l ++ ms) ∧
      ((ms.foldl (fun acc m => insertMember m.1 m.2 acc) l).map (·.1)).Pairwise (· < ·) := by
  induction ms generalizing l with
  | nil =>
    rw [List.append_nil]
    exact ⟨.refl _, hl⟩
  | cons m ms ih =>
    rw [List.map_cons, List.nodup_cons] at hms
    rw [List.forall_mem_cons] at hapart
    have hperm : (insertMember m.1 m.2 l).Perm (m :: l) := insertMember_perm hapart.1
    have hrest : ∀ e ∈ ms, e.1 ∉ (insertMember m.1 m.2 l).map (·.1) := by
      intro e he hmem
      rw [(hperm.map (·.1)).mem_iff, List.map_cons, List.mem_cons] at hmem
      rcases hmem with hkey | hmem
      · exact hms.1 (hkey ▸ List.mem_map.mpr ⟨e, he, rfl⟩)
      · exact hapart.2 e he hmem
    obtain ⟨hall, hascending⟩ := ih hms.2 (pairwise_insertMember hl) hrest
    refine ⟨?_, hascending⟩
    rw [List.foldl_cons]
    exact hall.trans ((hperm.append_right ms).trans List.perm_middle.symm)

end Insert

end Json

namespace Draft

open Json (Canonical ItemsCanonical MembersCanonical insertMember)

mutual

/-- The value of a draft is canonical. -/
theorem canonical_of_value? : (d : Draft) → {v : Json} → d.value? = some v → v.Canonical
  | .null, _, h => by cases h; trivial
  | .bool _, _, h => by cases h; trivial
  | .int _, _, h => by cases h; trivial
  | .real _, _, h => by cases h; trivial
  | .str _, _, h => by cases h; trivial
  | .arr items closed, v, h => by
    rw [value?] at h
    split at h
    · obtain ⟨vs, hvs, rfl⟩ := Option.map_eq_some_iff.mp h
      exact canonical_of_itemValues? items hvs
    · cases h
  | .obj ms closed, v, h => by
    rw [value?] at h
    split at h
    · obtain ⟨vs, hvs, rfl⟩ := Option.map_eq_some_iff.mp h
      exact canonical_of_memberValues? ms hvs ⟨.nil, trivial⟩
    · cases h
  | .void, _, h => by cases h; exact ⟨.nil, trivial⟩
  | .unrepresentable, _, h => by cases h
  | .broken, _, h => by cases h

/-- The values of items are canonical. -/
theorem canonical_of_itemValues? : (ds : List Draft) → {vs : List Json} →
    itemValues? ds = some vs → ItemsCanonical vs
  | [], _, h => by cases h; trivial
  | d :: ds, vs, h => by
    rw [itemValues?] at h
    split at h
    · next v rest hv hrest =>
      cases h
      exact ⟨canonical_of_value? d hv, canonical_of_itemValues? ds hrest⟩
    · cases h

/-- The values of members are canonical: each is put in at its place among those gathered before. -/
theorem canonical_of_memberValues? : (ms : List (Option String × Draft)) →
    {acc vs : List (String × Json)} → memberValues? ms acc = some vs →
    (acc.map (·.1)).Pairwise (· < ·) ∧ MembersCanonical acc →
    (vs.map (·.1)).Pairwise (· < ·) ∧ MembersCanonical vs
  | [], _, _, h, hacc => by cases h; exact hacc
  | (none, _) :: _, _, _, h, _ => by simp [memberValues?] at h
  | (some k, d) :: ms, acc, vs, h, hacc => by
    cases hv : d.value? with
    | none => simp only [memberValues?, hv, reduceCtorEq] at h
    | some v =>
      simp only [memberValues?, hv] at h
      refine canonical_of_memberValues? ms h ⟨Json.pairwise_insertMember hacc.1, ?_⟩
      refine Json.membersCanonical_iff.mpr fun m hm => ?_
      rcases Json.mem_of_mem_insertMember hm with rfl | hm
      · exact canonical_of_value? d hv
      · exact Json.membersCanonical_iff.mp hacc.2 m hm

end

mutual

/-- The value of a draft fits where the draft does. -/
theorem fits_of_value? : (d : Draft) → {v : Json} → {n : Nat} → d.value? = some v → d.Fits n →
    v.Fits n
  | .null, _, _, h, _ => by cases h; trivial
  | .bool _, _, _, h, _ => by cases h; trivial
  | .int _, _, _, h, hfits => by cases h; exact hfits
  | .real _, _, _, h, _ => by cases h; trivial
  | .str _, _, _, h, _ => by cases h; trivial
  | .arr items closed, v, n, h, hfits => by
    rw [value?] at h
    split at h
    · obtain ⟨vs, hvs, rfl⟩ := Option.map_eq_some_iff.mp h
      exact Json.fits_arr.mpr ⟨hfits.1, fits_of_itemValues? items hvs hfits.2⟩
    · cases h
  | .obj ms closed, v, n, h, hfits => by
    rw [value?] at h
    split at h
    · obtain ⟨vs, hvs, rfl⟩ := Option.map_eq_some_iff.mp h
      exact Json.fits_obj.mpr
        ⟨hfits.1, fits_of_memberValues? ms hvs hfits.2 (List.forall_mem_nil _)⟩
    · cases h
  | .void, _, _, h, hfits => by
    cases h
    exact Json.fits_obj.mpr ⟨hfits, List.forall_mem_nil _⟩
  | .unrepresentable, _, _, h, _ => by cases h
  | .broken, _, _, h, _ => by cases h

/-- The values of items fit where the items do. -/
theorem fits_of_itemValues? : (ds : List Draft) → {vs : List Json} → {n : Nat} →
    itemValues? ds = some vs → ItemsFit ds n → ∀ v ∈ vs, v.Fits n
  | [], _, _, h, _ => by cases h; exact List.forall_mem_nil _
  | d :: ds, vs, n, h, hfits => by
    rw [itemValues?] at h
    split at h
    · next v rest hv hrest =>
      cases h
      exact List.forall_mem_cons.mpr
        ⟨fits_of_value? d hv hfits.1, fits_of_itemValues? ds hrest hfits.2⟩
    · cases h

/-- The values of members fit where the members and what was gathered before do. -/
theorem fits_of_memberValues? : (ms : List (Option String × Draft)) →
    {acc vs : List (String × Json)} → {n : Nat} → memberValues? ms acc = some vs →
    MembersFit ms n → (∀ m ∈ acc, m.2.Fits n) → ∀ m ∈ vs, m.2.Fits n
  | [], _, _, _, h, _, hacc => by cases h; exact hacc
  | (none, _) :: _, _, _, _, h, _, _ => by simp [memberValues?] at h
  | (some k, d) :: ms, acc, vs, n, h, hfits, hacc => by
    cases hv : d.value? with
    | none => simp only [memberValues?, hv, reduceCtorEq] at h
    | some v =>
      simp only [memberValues?, hv] at h
      refine fits_of_memberValues? ms h hfits.2 fun m hm => ?_
      rcases Json.mem_of_mem_insertMember hm with rfl | hm
      · exact fits_of_value? d hv hfits.1
      · exact hacc m hm

end

mutual

/-- A canonical value is the value of its draft. -/
theorem value?_ofJson : (v : Json) → v.Canonical → (ofJson v).value? = some v
  | .null, _ => rfl
  | .bool _, _ => rfl
  | .int _, _ => rfl
  | .real _, _ => rfl
  | .str _, _ => rfl
  | .arr vs, h => by
    simp only [ofJson, value?, itemValues?_ofItems vs h, if_true, Option.map_some]
  | .obj ms, h => by
    simp only [ofJson, value?, memberValues?_ofMembers ms [] h.1 h.2, if_true,
      Option.map_some, List.nil_append]

/-- Canonical values are those of their drafts. -/
theorem itemValues?_ofItems : (vs : List Json) → ItemsCanonical vs →
    itemValues? (ofItems vs) = some vs
  | [], _ => rfl
  | v :: vs, h => by
    simp only [ofItems, itemValues?, value?_ofJson v h.1, itemValues?_ofItems vs h.2]

/-- Each key is behind those before it, so every member goes to the end. -/
theorem memberValues?_ofMembers : (ms acc : List (String × Json)) →
    ((acc ++ ms).map (·.1)).Pairwise (· < ·) → MembersCanonical ms →
    memberValues? (ofMembers ms) acc = some (acc ++ ms)
  | [], acc, _, _ => by rw [List.append_nil]; rfl
  | (k, v) :: ms, acc, hkeys, h => by
    have hlast : ∀ m ∈ acc, m.1 < k := by
      intro m hm
      rw [List.map_append, List.pairwise_append] at hkeys
      exact hkeys.2.2 m.1 (List.mem_map.mpr ⟨m, hm, rfl⟩) k List.mem_cons_self
    have hmove : acc ++ (k, v) :: ms = acc ++ [(k, v)] ++ ms := by
      rw [List.append_assoc, List.singleton_append]
    rw [hmove] at hkeys ⊢
    simp only [ofMembers, memberValues?, value?_ofJson v h.1,
      Json.insertMember_eq_append hlast]
    exact memberValues?_ofMembers ms _ hkeys h.2

end

end Draft

end ApiExposure
