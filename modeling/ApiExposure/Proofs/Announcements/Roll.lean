import Mathlib.Data.List.Perm.Subperm
import Mathlib.Logic.Pairwise
import ApiExposure.Proofs.System.Turn

/-!
# Rolls kept from announcements

Who follows the announcements of a registry keeps a roll of its members: a member is
put down when it is announced and struck off when it is withdrawn. Withdrawals may
still be owed when the registry has let go of a member, and several commands may owe
some. So the roll has the members of the registry and those whose withdrawal is
owed, and as each withdrawal is owed by one command, the roll agrees with the
registry once nothing is owed. An announcement is never owed: the argument here asks
that it is made in the same step in which the member enters.
-/

namespace ApiExposure

/-- A registry whose members come and go under announcements. -/
structure Roll (κ : Type) where
  /-- The members in the order in which they came. -/
  held : Core → List κ
  /-- By changes of this kind members come. -/
  entering : EventKind
  /-- By changes of this kind they go. -/
  leaving : EventKind
  /-- The members that a change is about. -/
  named : EventDetail → List κ
  /-- Members have generated identifiers. -/
  generate : Suffix → κ
  /-- No change is of both kinds. -/
  distinct : entering ≠ leaving
  /-- Identifiers differ where their suffixes do. -/
  injective : Function.Injective generate

namespace Roll

variable {κ : Type} [DecidableEq κ]

/-- The published APIs. -/
def apis : Roll ApiId where
  held c := c.store.apis.keys
  entering := .apiAvailable
  leaving := .apiUnavailable
  named := IdLists.apis
  generate := .generate
  distinct := by decide
  injective _ _ := ApiId.generate_injective

/-- The onboarded invokers. -/
def invokers : Roll InvokerId where
  held c := c.invokers.table.keys
  entering := .invokerOnboarded
  leaving := .invokerOffboarded
  named := IdLists.invokers
  generate := .generate
  distinct := by decide
  injective _ _ := InvokerId.generate_injective

variable (r : Roll κ)

/-- The members that a change announces. -/
def enters (change : Change) : List κ :=
  if change.kind = r.entering then r.named change.detail else []

/-- The members that a change withdraws. -/
def leaves (change : Change) : List κ :=
  if change.kind = r.leaving then r.named change.detail else []

/-- All members that changes announce, in order. -/
def entered (changes : List Change) : List κ := changes.flatMap r.enters

/-- All members that changes withdraw, in order. -/
def left (changes : List Change) : List κ := changes.flatMap r.leaves

/-- What a change does to a roll. -/
def follow (roll : List κ) (change : Change) : List κ :=
  if change.kind = r.entering then roll ++ r.named change.detail
  else if change.kind = r.leaving then roll.filter (fun id => id ∉ r.named change.detail)
  else roll

/-- The roll kept from changes. -/
def listed (changes : List Change) : List κ := changes.foldl r.follow []

variable {r} {change : Change} {log : List Change} {id : κ}

/-- The roll after one more change. -/
theorem listed_concat : r.listed (log ++ [change]) = r.follow (r.listed log) change :=
  List.foldl_concat _ _ _ _

omit [DecidableEq κ] in
/-- A longer log enters those of before and those of the changes that follow. -/
theorem entered_append (log changes : List Change) :
    r.entered (log ++ changes) = r.entered log ++ r.entered changes := List.flatMap_append

omit [DecidableEq κ] in
theorem left_append (log changes : List Change) :
    r.left (log ++ changes) = r.left log ++ r.left changes := List.flatMap_append

omit [DecidableEq κ] in
/-- One more change enters at most one. -/
theorem entered_concat : r.entered (log ++ [change]) = r.entered log ++ r.enters change := by
  rw [entered_append, entered, entered, List.flatMap_singleton]

omit [DecidableEq κ] in
theorem left_concat : r.left (log ++ [change]) = r.left log ++ r.leaves change := by
  rw [left_append, left, left, List.flatMap_singleton]

omit [DecidableEq κ] in
/-- The first change of a log lets its own go first. -/
theorem left_cons : r.left (change :: log) = r.leaves change ++ r.left log := List.flatMap_cons

omit [DecidableEq κ] in
/-- What announces a member withdraws none. -/
theorem leaves_of_enters (h : r.enters change ≠ []) : r.leaves change = [] := by
  have hkind : change.kind = r.entering := by
    by_contra hne
    exact h (if_neg hne)
  exact if_neg fun hleaving => r.distinct (hkind.symm.trans hleaving)

/-- A change that enters somebody puts it at the end of the roll. -/
theorem follow_of_enters (roll : List κ) (h : r.enters change ≠ []) :
    r.follow roll change = roll ++ r.enters change := by
  have hkind : change.kind = r.entering := by
    by_contra hne
    exact h (if_neg hne)
  rw [follow, enters, if_pos hkind, if_pos hkind]

/-- A change that enters nobody takes those off the roll that it lets go. -/
theorem follow_of_not_enters (roll : List κ) (h : r.enters change = []) :
    r.follow roll change = roll.filter (fun id => id ∉ r.leaves change) := by
  unfold follow leaves
  split
  · next hkind =>
    have hnamed : r.named change.detail = [] := by rwa [enters, if_pos hkind] at h
    have hne : change.kind ≠ r.leaving := fun hleaving => r.distinct (hkind.symm.trans hleaving)
    simp [hnamed, hne]
  · split <;> simp

/-- The roll has members in the order in which they were announced. -/
theorem listed_sublist (log : List Change) : (r.listed log).Sublist (r.entered log) := by
  induction log using List.reverseRecOn with
  | nil => exact List.Sublist.refl _
  | append_singleton log change ih =>
    rw [listed_concat, entered_concat]
    by_cases henters : r.enters change = []
    · rw [follow_of_not_enters _ henters, henters, List.append_nil]
      exact List.filter_sublist.trans ih
    · rw [follow_of_enters _ henters]
      exact ih.append (List.Sublist.refl _)

/-- Members are announced once and withdrawn once, and not before they were announced. -/
structure Proper (r : Roll κ) (log : List Change) : Prop where
  /-- Nobody is announced twice. -/
  once : (r.entered log).Nodup
  /-- Nobody is withdrawn twice. -/
  leftOnce : (r.left log).Nodup
  /-- Who is withdrawn was announced before. -/
  order : ∀ before change after, log = before ++ change :: after →
    ∀ id ∈ r.leaves change, id ∈ r.entered before

namespace Proper

omit [DecidableEq κ] in
/-- Nobody leaves who was not entered. -/
theorem left_subset (h : r.Proper log) : r.left log ⊆ r.entered log := by
  intro id hid
  obtain ⟨change, hchange, hleaves⟩ := List.mem_flatMap.mp hid
  obtain ⟨before, after, rfl⟩ := List.append_of_mem hchange
  have hentered := h.order before change after rfl id hleaves
  rw [entered_append]
  exact List.mem_append_left _ hentered

omit [DecidableEq κ] in
/-- A change more is proper if it announces only new members and withdraws only such as are
left. -/
theorem concat (h : r.Proper log) (hentered : (r.entered log ++ r.enters change).Nodup)
    (hleft : (r.left log ++ r.leaves change).Nodup)
    (hbefore : ∀ id ∈ r.leaves change, id ∈ r.entered log) : r.Proper (log ++ [change]) := by
  refine ⟨entered_concat ▸ hentered, left_concat ▸ hleft, ?_⟩
  intro before ch after hlog id hid
  rcases concat_eq_split_iff.mp hlog with ⟨rfl, rfl, _⟩ | ⟨rest, _, rfl⟩
  · exact hbefore id hid
  · exact h.order before ch rest rfl id hid

omit [DecidableEq κ] in
/-- A log is proper up to each point. -/
theorem of_concat (h : r.Proper (log ++ [change])) : r.Proper log where
  once := by
    have honce := h.once
    rw [entered_append] at honce
    exact honce.of_append_left
  leftOnce := by
    have honce := h.leftOnce
    rw [left_append] at honce
    exact honce.of_append_left
  order before ch after hlog := h.order before ch (after ++ [change]) (by simp [hlog])

/-- The roll has those who are announced and not withdrawn. -/
theorem mem_listed (h : r.Proper log) (id : κ) :
    id ∈ r.listed log ↔ id ∈ r.entered log ∧ id ∉ r.left log := by
  induction log using List.reverseRecOn with
  | nil => simp [listed, entered]
  | append_singleton log change ih =>
    rw [listed_concat, entered_concat, left_concat]
    by_cases henters : r.enters change = []
    · rw [follow_of_not_enters _ henters, henters, List.append_nil, List.mem_filter,
        ih h.of_concat, List.mem_append, not_or, and_assoc, decide_eq_true_iff]
    · have hnew : id ∈ r.enters change → id ∉ r.left log := by
        intro hid hleft
        have honce := h.once
        rw [entered_concat] at honce
        exact List.disjoint_of_nodup_append honce (h.of_concat.left_subset hleft) hid
      rw [follow_of_enters _ henters, leaves_of_enters henters, List.append_nil,
        List.mem_append, List.mem_append, ih h.of_concat]
      constructor
      · rintro (⟨hentered, hleft⟩ | hid)
        · exact ⟨.inl hentered, hleft⟩
        · exact ⟨.inr hid, hnew hid⟩
      · rintro ⟨hentered | hid, hleft⟩
        · exact .inl ⟨hentered, hleft⟩
        · exact .inr hid

end Proper

/-- A registry, what has been made known of it and what each command owes fit together. -/
structure Kept (r : Roll κ) (held : List κ) (log : List Change) (owed : Ticket → List Change) :
    Prop extends r.Proper log where
  /-- The registry has those on the roll in order. -/
  held_sublist : held.Sublist (r.listed log)
  /-- These are the ones whose withdrawal is not owed. -/
  mem_held : ∀ id, id ∈ held ↔ id ∈ r.listed log ∧ ∀ t, id ∉ r.left (owed t)
  /-- No announcement is owed. -/
  owedNone : ∀ t, r.entered (owed t) = []
  /-- No withdrawal is owed twice by a command. -/
  owedOnce : ∀ t, (r.left (owed t)).Nodup
  /-- Who is to be withdrawn is on the roll. -/
  owedListed : ∀ t, r.left (owed t) ⊆ r.listed log
  /-- No withdrawal is owed by two commands. -/
  owedApart : Pairwise fun t v => (r.left (owed t)).Disjoint (r.left (owed v))

theorem kept_nil (r : Roll κ) : r.Kept [] [] (fun _ => []) where
  once := List.nodup_nil
  leftOnce := List.nodup_nil
  order before change after h := by simp at h
  held_sublist := List.Sublist.refl _
  mem_held id := by simp [listed]
  owedNone _ := rfl
  owedOnce _ := List.nodup_nil
  owedListed _ _ h := nomatch h
  owedApart _ _ _ _ h := nomatch h

namespace Kept

variable {held held' : List κ} {owed : Ticket → List Change} {t : Ticket}
  {changes rest : List Change}

/-- When nothing is owed the roll is the registry. -/
theorem listed_eq (hk : r.Kept held log owed) (h : ∀ t, owed t = []) :
    r.listed log = held := by
  have hsubset : r.listed log ⊆ held := fun id hid =>
    (hk.mem_held id).mpr ⟨hid, fun t => by simp [h t, left]⟩
  have hnodup : (r.listed log).Nodup := hk.once.sublist (listed_sublist log)
  exact (hk.held_sublist.eq_of_length_le (List.subperm_of_subset hnodup hsubset).length_le).symm

/-- A member comes and is announced. -/
theorem enter (hk : r.Kept held log owed) (he : r.enters change = [id])
    (hnew : id ∉ r.entered log) : r.Kept (held ++ [id]) (log ++ [change]) owed := by
  have hne : r.enters change ≠ [] := by simp [he]
  have hleaves : r.leaves change = [] := leaves_of_enters hne
  have hlisted : r.listed (log ++ [change]) = r.listed log ++ [id] := by
    rw [listed_concat, follow_of_enters _ hne, he]
  have hproper : r.Proper (log ++ [change]) := by
    refine hk.concat ?_ (by simpa [hleaves] using hk.leftOnce) (by simp [hleaves])
    rw [he]
    exact hk.once.append (List.nodup_singleton id) (by simpa using hnew)
  have howed : ∀ v, id ∉ r.left (owed v) := fun v hid =>
    hnew ((listed_sublist log).subset (hk.owedListed v hid))
  refine ⟨hproper, ?_, fun k => ?_, hk.owedNone, hk.owedOnce, fun v => ?_, hk.owedApart⟩
  · rw [hlisted]
    exact hk.held_sublist.append (List.Sublist.refl _)
  · rw [hlisted, List.mem_append, List.mem_append, hk.mem_held, List.mem_singleton]
    constructor
    · rintro (⟨hk, hl⟩ | rfl)
      · exact ⟨.inl hk, hl⟩
      · exact ⟨.inr rfl, howed⟩
    · rintro ⟨hk | rfl, hl⟩
      · exact .inl ⟨hk, hl⟩
      · exact .inr rfl
  · rw [hlisted]
    exact fun k hid => List.mem_append_left _ (hk.owedListed v hid)

omit [DecidableEq κ] in
/-- When one command comes to owe other withdrawals, it is enough to look at these. -/
theorem disjoint_update
    (h : Pairwise fun t v => (r.left (owed t)).Disjoint (r.left (owed v)))
    (ht : ∀ v, v ≠ t → (r.left changes).Disjoint (r.left (owed v))) :
    Pairwise fun u v => (r.left (Function.update owed t changes u)).Disjoint
      (r.left (Function.update owed t changes v)) := by
  intro u v huv
  by_cases hu : u = t
  · subst hu
    rw [Function.update_self, Function.update_of_ne huv.symm]
    exact ht v huv.symm
  · by_cases hv : v = t
    · subst hv
      rw [Function.update_self, Function.update_of_ne hu]
      exact fun id hid hleft => ht u hu hleft hid
    · rw [Function.update_of_ne hu, Function.update_of_ne hv]
      exact h huv

/-- A command that owes nothing drops members and owes their withdrawals. -/
theorem drop (hk : r.Kept held log owed) (hnone : owed t = []) (he : r.entered changes = [])
    (honce : (r.left changes).Nodup) (hleft : r.left changes ⊆ held)
    (hsub : held'.Sublist held) (hmem : ∀ id ∈ held, id ∈ held' ↔ id ∉ r.left changes) :
    r.Kept held' log (Function.update owed t changes) := by
  have hheld : ∀ id, id ∈ held ↔
      id ∈ r.listed log ∧ ∀ v, v ≠ t → id ∉ r.left (owed v) := by
    intro id
    rw [hk.mem_held]
    refine and_congr_right fun _ => ⟨fun hid v _ => hid v, fun hid v => ?_⟩
    by_cases hv : v = t
    · rw [hv, hnone]
      exact List.not_mem_nil
    · exact hid v hv
  refine { hk with
    held_sublist := hsub.trans hk.held_sublist
    mem_held := fun id => ?_
    owedNone := ?_
    owedOnce := ?_
    owedListed := ?_
    owedApart := ?_ }
  · rw [Function.forall_update_iff owed fun _ l => id ∉ r.left l]
    constructor
    · intro hid
      obtain ⟨hlisted, hothers⟩ := (hheld id).mp (hsub.subset hid)
      exact ⟨hlisted, (hmem id (hsub.subset hid)).mp hid, hothers⟩
    · rintro ⟨hlisted, hstays, hothers⟩
      exact (hmem id ((hheld id).mpr ⟨hlisted, hothers⟩)).mpr hstays
  · exact (Function.forall_update_iff owed fun _ l => r.entered l = []).mpr
      ⟨he, fun v _ => hk.owedNone v⟩
  · exact (Function.forall_update_iff owed fun _ l => (r.left l).Nodup).mpr
      ⟨honce, fun v _ => hk.owedOnce v⟩
  · exact (Function.forall_update_iff owed fun _ l => r.left l ⊆ r.listed log).mpr
      ⟨fun id hid => ((hheld id).mp (hleft hid)).1, fun v _ => hk.owedListed v⟩
  · exact disjoint_update hk.owedApart fun v hv id hid =>
      ((hheld id).mp (hleft hid)).2 v hv

/-- A command makes the first change known that it owes. -/
theorem hand (hk : r.Kept held log owed) (h : owed t = change :: rest) :
    r.Kept held (log ++ [change]) (Function.update owed t rest) := by
  obtain ⟨henters, hrest⟩ : r.enters change = [] ∧ r.entered rest = [] := by
    have hnone := hk.owedNone t
    rwa [h, entered, List.flatMap_cons, List.append_eq_nil_iff] at hnone
  have honce := hk.owedOnce t
  have howed := hk.owedListed t
  have hapart : ∀ v, v ≠ t → (r.left (owed t)).Disjoint (r.left (owed v)) :=
    fun v hv => hk.owedApart hv.symm
  rw [h, left_cons] at honce howed hapart
  obtain ⟨hleaves, hleft, hdisjoint⟩ := List.nodup_append'.mp honce
  have hlisted : r.listed (log ++ [change]) =
      (r.listed log).filter (fun id => id ∉ r.leaves change) := by
    rw [listed_concat, follow_of_not_enters _ henters]
  have hmem : ∀ id, id ∈ r.listed (log ++ [change]) ↔
      id ∈ r.listed log ∧ id ∉ r.leaves change := by simp [hlisted]
  have hsplit : ∀ id, (∀ v, id ∉ r.left (owed v)) ↔
      id ∉ r.leaves change ∧ ∀ v, id ∉ r.left (Function.update owed t rest v) := by
    intro id
    rw [Function.forall_update_iff owed fun _ l => id ∉ r.left l, ← and_assoc, ← not_or,
      ← List.mem_append, ← left_cons, ← h]
    refine ⟨fun hid => ⟨hid t, fun v _ => hid v⟩, fun ⟨ht, hothers⟩ v => ?_⟩
    by_cases hv : v = t
    · exact hv ▸ ht
    · exact hothers v hv
  have hproper : r.Proper (log ++ [change]) := by
    refine hk.concat (by simpa [henters] using hk.once) (hk.leftOnce.append hleaves ?_) ?_
    · intro id hid hchange
      exact ((hk.mem_listed id).mp (howed (List.mem_append_left _ hchange))).2 hid
    · exact fun id hid => (listed_sublist log).subset (howed (List.mem_append_left _ hid))
  refine ⟨hproper, ?_, fun k => ?_, ?_, ?_, ?_, ?_⟩
  · have hheld : held.filter (fun id => id ∉ r.leaves change) = held := by
      refine List.filter_eq_self.mpr fun id hid => ?_
      simpa using ((hsplit id).mp ((hk.mem_held id).mp hid).2).1
    rw [hlisted, ← hheld]
    exact hk.held_sublist.filter _
  · rw [hk.mem_held, hsplit, hmem, and_assoc]
  · exact (Function.forall_update_iff owed fun _ l => r.entered l = []).mpr
      ⟨hrest, fun v _ => hk.owedNone v⟩
  · exact (Function.forall_update_iff owed fun _ l => (r.left l).Nodup).mpr
      ⟨hleft, fun v _ => hk.owedOnce v⟩
  · refine (Function.forall_update_iff owed fun _ l => r.left l ⊆ r.listed (log ++ [change])).mpr
      ⟨fun id hid => ?_, fun v hv id hid => ?_⟩
    · exact (hmem id).mpr ⟨howed (List.mem_append_right _ hid), fun hc => hdisjoint hc hid⟩
    · refine (hmem id).mpr ⟨hk.owedListed v hid, fun hc => ?_⟩
      exact hapart v hv (List.mem_append_left _ hc) hid
  · exact disjoint_update hk.owedApart fun v hv id hid =>
      hapart v hv (List.mem_append_right _ hid)

/-- The same when the command may have nothing to make known yet. -/
theorem hand? {handed : Option Change} (hk : r.Kept held log owed)
    (h : owed t = handed.toList ++ rest) :
    r.Kept held (log ++ handed.toList) (Function.update owed t rest) := by
  cases handed with
  | none =>
    obtain rfl : owed t = rest := h
    simpa using hk
  | some change => exact hk.hand h

end Kept

end Roll

end ApiExposure
