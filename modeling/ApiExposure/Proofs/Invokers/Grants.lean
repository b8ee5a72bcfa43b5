import ApiExposure.Proofs.Publications.Integrity

/-!
# Grants in the registry of invokers

Invokers come in under generated identifiers. Their grants come from sound
publications or have been checked one by one, so none has a blank field, and the
call that a grant allows its holder has none either. Whatever happens, an invoker
gains a grant only for an API that is stored then; that the API stays is not
claimed.
-/

namespace ApiExposure

/-- A generated identifier is not blank. -/
theorem InvokerId.generate_not_blank (suffix : Suffix) :
    Text.isBlank (generate suffix).text = false := by
  rw [generate, Text.isBlank_append, Bool.and_eq_false_iff]
  exact .inl (by decide)

namespace Grant

/-- A grant passes its check when no field is blank. -/
theorem validate_eq_ok_iff {g : Grant} : g.validate = .ok () ↔ g.hasBlank = false := by
  rw [validate, require_eq_ok_iff, Bool.not_eq_true']

/-- The call of a complete grant is complete when its invoker is named. -/
theorem hasBlank_call {g : Grant} {id : InvokerId} (hid : Text.isBlank id.text = false)
    (hg : g.hasBlank = false) : (g.call id).hasBlank = false := by
  simp only [hasBlank, Bool.or_eq_false_iff] at hg
  simp only [Call.hasBlank, call, hid, hg, Bool.or_false]

/-- The call of a grant without blanks passes its check. -/
theorem validate_call {g : Grant} {id : InvokerId} (hid : Text.isBlank id.text = false)
    (hg : g.hasBlank = false) : (g.call id).validate = .ok () := by
  rw [Call.validate, require_eq_ok_iff, hasBlank_call hid hg, Bool.not_false]

end Grant

namespace InvokerIdentity

/-- A grant more is among the grants, and so are those of before. -/
theorem mem_grants_addGrant {i : InvokerIdentity} {g h : Grant} :
    h ∈ (i.addGrant g).grants ↔ h ∈ i.grants ∨ h = g := by
  unfold addGrant
  split
  · next hg =>
    have hheld : g ∈ i.grants := by simpa [holds] using hg
    refine ⟨.inl, ?_⟩
    rintro (hh | rfl)
    · exact hh
    · exact hheld
  · simp

/-- Grants added one by one are all among the grants. -/
theorem mem_grants_foldl_addGrant {i : InvokerIdentity} {grants : List Grant} {h : Grant} :
    h ∈ (grants.foldl addGrant i).grants ↔ h ∈ i.grants ∨ h ∈ grants := by
  induction grants generalizing i with
  | nil => simp
  | cons g gs ih => rw [List.foldl_cons, ih, mem_grants_addGrant, List.mem_cons, or_assoc]

/-- A grant that is added changes nothing about the invoker but its grants. -/
theorem addGrant_eq (i : InvokerIdentity) (g : Grant) :
    i.addGrant g = { i with grants := (i.addGrant g).grants } := by
  unfold addGrant
  split <;> rfl

/-- Adding grants changes nothing else of an invoker. -/
theorem foldl_addGrant_eq (i : InvokerIdentity) (grants : List Grant) :
    grants.foldl addGrant i = { i with grants := (grants.foldl addGrant i).grants } := by
  induction grants generalizing i with
  | nil => rfl
  | cons g gs ih =>
    rw [List.foldl_cons]
    refine (ih _).trans ?_
    rw [addGrant_eq i g]

end InvokerIdentity

namespace Publications.WellFormed

variable {s : Publications} {ids : List ApiId} {g : Grant}

/-- The grants that a well-formed store offers for some APIs are those that these offer, each under
its identifier. -/
theorem mem_grantable_iff (hs : s.WellFormed) :
    g ∈ s.grantable ids ↔ g.api ∈ ids ∧ ∃ a, s.apis.get? g.api = some a ∧ g ∈ a.grantable := by
  have hown : ∀ {id a}, s.apis.get? id = some a → g ∈ a.grantable → g.api = id :=
    fun ha hg => (PublishedApi.mem_grantable.mp hg).1.trans (hs _ _ ha).own
  rw [Publications.grantable, List.mem_flatMap]
  constructor
  · rintro ⟨id, hid, hg⟩
    cases ha : s.apis.get? id with
    | none =>
      rw [ha] at hg
      cases hg
    | some a =>
      rw [ha] at hg
      obtain rfl := hown ha hg
      exact ⟨hid, a, ha, hg⟩
  · rintro ⟨hid, a, ha, hg⟩
    refine ⟨g.api, hid, ?_⟩
    rw [ha]
    exact hg

/-- It is complete. -/
theorem grantable_complete (hs : s.WellFormed) (hg : g ∈ s.grantable ids) :
    g.hasBlank = false := by
  obtain ⟨-, a, ha, hg⟩ := hs.mem_grantable_iff.mp hg
  obtain ⟨_, hname, ⟨p, hp, he⟩, v, hv, hversion⟩ := PublishedApi.mem_grantable.mp hg
  have hstored := hs g.api a ha
  have hexposer := he ▸ hstored.sound.profiles.named p hp
  have hversion := hversion ▸ hstored.sound.versions.named v hv
  have hapiName : Text.isBlank g.apiName = false := by
    rw [hname]
    exact hstored.sound.named
  simp only [Grant.hasBlank, hstored.named, hexposer, hapiName, hversion, Bool.or_false]

end Publications.WellFormed

namespace Invokers

/-- Every invoker has a name and complete grants. -/
def Complete (r : Invokers) : Prop :=
  ∀ id i, r.table.get? id = some i →
    Text.isBlank id.text = false ∧ ∀ g ∈ i.grants, g.hasBlank = false

variable {r q : Invokers}

theorem complete_empty : empty.Complete := fun _ _ h => nomatch h

theorem get_eq_ok_iff {id : InvokerId} {i : InvokerIdentity} :
    r.get id = .ok i ↔ r.table.get? id = some i := by
  unfold get
  cases r.table.get? id <;> simp

/-- A bulk revocation is about the grants of the invoker within the scope. -/
theorem grantsMatching_eq_ok_iff {id : InvokerId} {scope : RevocationScope}
    {grants : List Grant} :
    r.grantsMatching id scope = .ok grants ↔
      ∃ i, r.table.get? id = some i ∧ grants = i.grants.filter scope.matchesGrant := by
  unfold grantsMatching grantsOf get
  cases r.table.get? id with
  | none => simp [Except.map]
  | some i => simp [Except.map, eq_comm]

/-- An enrolment enters an invoker that was not there, with each of the grants once. -/
theorem of_onboardAs_eq_ok {id : InvokerId} {e : Enrolment} {grants : List Grant}
    {now : Instant} {i : InvokerIdentity} (h : r.onboardAs id e grants now = .ok (i, q)) :
    r.table.get? id = none ∧
      i = grants.foldl InvokerIdentity.addGrant (.ofEnrolment id e now) ∧
      q = ⟨r.table.insert id i⟩ := by
  obtain ⟨_, h⟩ := Outcome.andThen_eq_ok_iff.mp h
  dsimp only at h
  split at h
  · cases h
  · next hnew =>
    cases h
    exact ⟨by simpa [contains, Table.contains] using hnew, rfl, rfl⟩

/-- A patch changes an invoker that is there. -/
theorem of_update_eq_ok {id : InvokerId} {p : InvokerPatch} {now : Instant}
    {i : InvokerIdentity} (h : r.update id p now = .ok (i, q)) :
    ∃ held, r.table.get? id = some held ∧ i = held.apply p now ∧ q = ⟨r.table.insert id i⟩ := by
  obtain ⟨_, h⟩ := Outcome.andThen_eq_ok_iff.mp h
  obtain ⟨held, hheld, h⟩ := Outcome.bind_eq_ok_iff.mp h
  cases h
  exact ⟨held, get_eq_ok_iff.mp hheld, rfl, rfl⟩

/-- A removal takes out an invoker that was there. -/
theorem of_deregister_eq_ok {id : InvokerId} {i : InvokerIdentity}
    (h : r.deregister id = .ok (i, q)) :
    r.table.get? id = some i ∧ q = ⟨r.table.erase id⟩ := by
  obtain ⟨held, hheld, h⟩ := Outcome.bind_eq_ok_iff.mp h
  cases h
  exact ⟨get_eq_ok_iff.mp hheld, rfl⟩

/-- It fails only when there is none. -/
theorem of_deregister_eq_error {id : InvokerId} {f : Failure} (h : r.deregister id = .error f) :
    r.table.get? id = none ∧ f = .notFound (.invoker id) := by
  cases hi : r.table.get? id with
  | none =>
    simp only [deregister, get, hi, bind, Except.bind, Except.error.injEq] at h
    exact ⟨rfl, h.symm⟩
  | some i => simp [deregister, get, hi, bind, Except.bind] at h

/-- A grant that is added is complete, and its invoker is there. -/
theorem of_grant_eq_ok {id : InvokerId} {g : Grant} {isNew : Bool}
    (h : r.grant id g = .ok (isNew, q)) :
    ∃ held, r.table.get? id = some held ∧ g.hasBlank = false ∧
      q = ⟨r.table.insert id (held.addGrant g)⟩ := by
  obtain ⟨hv, h⟩ := Outcome.andThen_eq_ok_iff.mp h
  obtain ⟨held, hheld, h⟩ := Outcome.bind_eq_ok_iff.mp h
  cases h
  exact ⟨held, get_eq_ok_iff.mp hheld, Grant.validate_eq_ok_iff.mp hv, rfl⟩

/-- A grant that is removed leaves its invoker with the others. -/
theorem of_removeGrant_eq_ok {id : InvokerId} {g : Grant} (h : r.removeGrant id g = .ok q) :
    ∃ held, r.table.get? id = some held ∧
      q = ⟨r.table.insert id { held with grants := held.grants.filter (fun h => h != g) }⟩ := by
  obtain ⟨held, hheld, h⟩ := Outcome.bind_eq_ok_iff.mp h
  split at h
  · cases h
    exact ⟨held, get_eq_ok_iff.mp hheld, rfl⟩
  · cases h

/-- Setting a named invoker with complete grants keeps the registry complete. -/
theorem Complete.insert (hr : r.Complete) {id : InvokerId} {i : InvokerIdentity}
    (hid : Text.isBlank id.text = false) (hi : ∀ g ∈ i.grants, g.hasBlank = false) :
    (⟨r.table.insert id i⟩ : Invokers).Complete := by
  intro k j hj
  by_cases hk : k = id
  · subst hk
    rw [Table.get?_insert_self] at hj
    cases hj
    exact ⟨hid, hi⟩
  · rw [Table.get?_insert_of_ne _ _ hk] at hj
    exact hr k j hj

/-- Who is left has complete grants. -/
theorem Complete.erase (hr : r.Complete) (id : InvokerId) :
    (⟨r.table.erase id⟩ : Invokers).Complete := by
  intro k j hj
  rw [Table.get?_erase] at hj
  split at hj
  · cases hj
  · exact hr k j hj

/-- An invoker holds a grant. -/
def Holds (r : Invokers) (id : InvokerId) (g : Grant) : Prop :=
  ∃ i, r.table.get? id = some i ∧ g ∈ i.grants

/-- From one registry to another invokers gain grants of a kind only. -/
def GainsOnly (P : Grant → Prop) (r q : Invokers) : Prop :=
  ∀ id g, q.Holds id g → r.Holds id g ∨ P g

/-- Setting an invoker gains the grants that it is set with. -/
theorem gainsOnly_insert {P : Grant → Prop} {id : InvokerId} {i : InvokerIdentity}
    (h : ∀ g ∈ i.grants, r.Holds id g ∨ P g) : GainsOnly P r ⟨r.table.insert id i⟩ := by
  rintro k g ⟨j, hj, hg⟩
  by_cases hk : k = id
  · subst hk
    rw [Table.get?_insert_self] at hj
    cases hj
    exact h g hg
  · rw [Table.get?_insert_of_ne _ _ hk] at hj
    exact .inl ⟨j, hj, hg⟩

/-- Taking an invoker out gains nothing. -/
theorem gainsOnly_erase (P : Grant → Prop) (r : Invokers) (id : InvokerId) :
    GainsOnly P r ⟨r.table.erase id⟩ := by
  rintro k g ⟨j, hj, hg⟩
  rw [Table.get?_erase] at hj
  split at hj
  · cases hj
  · exact .inl ⟨j, hj, hg⟩

end Invokers

/-- Every effect keeps the grants complete. -/
theorem Effect.complete {o : Occasion} {command : Command} {c d : Core}
    {r : Outcome command.Result} (h : Effect o command c r d) (hs : c.store.WellFormed)
    (hc : c.invokers.Complete) : d.invokers.Complete := by
  cases h with
  | onboarded h =>
    obtain ⟨_, rfl, rfl⟩ := Invokers.of_onboardAs_eq_ok h
    refine hc.insert (InvokerId.generate_not_blank _) fun g hg => ?_
    rcases InvokerIdentity.mem_grants_foldl_addGrant.mp hg with hg | hg
    · cases hg
    · exact hs.grantable_complete hg
  | invokerUpdated h =>
    obtain ⟨held, hheld, rfl, rfl⟩ := Invokers.of_update_eq_ok h
    obtain ⟨hid, hgrants⟩ := hc _ held hheld
    exact hc.insert hid hgrants
  | offboarded h =>
    obtain ⟨_, rfl⟩ := Invokers.of_deregister_eq_ok h
    exact hc.erase _
  | granted _ _ _ h =>
    obtain ⟨held, hheld, hcomplete, rfl⟩ := Invokers.of_grant_eq_ok h
    obtain ⟨hid, hgrants⟩ := hc _ held hheld
    refine hc.insert hid fun k hk => ?_
    rcases InvokerIdentity.mem_grants_addGrant.mp hk with hk | rfl
    · exact hgrants k hk
    · exact hcomplete
  | grantRemoved h =>
    obtain ⟨held, hheld, rfl⟩ := Invokers.of_removeGrant_eq_ok h
    obtain ⟨hid, hgrants⟩ := hc _ held hheld
    exact hc.insert hid fun k hk => hgrants k (List.mem_of_mem_filter hk)
  | _ => exact hc

/-- By an effect invokers gain grants for stored APIs only, under the names of these. -/
theorem Effect.gainsOnly_named {o : Occasion} {command : Command} {c d : Core}
    {r : Outcome command.Result} (h : Effect o command c r d) (hs : c.store.WellFormed) :
    Invokers.GainsOnly (fun g => ∃ a, c.store.apis.get? g.api = some a ∧ g.apiName = a.name)
      c.invokers d.invokers := by
  cases h with
  | onboarded h =>
    obtain ⟨_, rfl, rfl⟩ := Invokers.of_onboardAs_eq_ok h
    refine Invokers.gainsOnly_insert fun g hg => ?_
    rcases InvokerIdentity.mem_grants_foldl_addGrant.mp hg with hg | hg
    · cases hg
    · obtain ⟨-, a, ha, hoffered⟩ := hs.mem_grantable_iff.mp hg
      exact .inr ⟨a, ha, (PublishedApi.mem_grantable.mp hoffered).2.1⟩
  | invokerUpdated h =>
    obtain ⟨held, hheld, rfl, rfl⟩ := Invokers.of_update_eq_ok h
    exact Invokers.gainsOnly_insert fun g hg => .inl ⟨held, hheld, hg⟩
  | offboarded h =>
    obtain ⟨_, rfl⟩ := Invokers.of_deregister_eq_ok h
    exact Invokers.gainsOnly_erase _ _ _
  | @granted c id k a isNew invokers _ ha hf h =>
    obtain ⟨held, hheld, _, rfl⟩ := Invokers.of_grant_eq_ok h
    refine Invokers.gainsOnly_insert fun g hg => ?_
    rcases InvokerIdentity.mem_grants_addGrant.mp hg with hg | rfl
    · exact .inl ⟨held, hheld, hg⟩
    · have hname : a.name = g.apiName := by
        simp only [Core.fits, Bool.and_eq_true, beq_iff_eq] at hf
        exact hf.1.2
      exact .inr ⟨a, Publications.get_eq_ok_iff.mp ha, hname.symm⟩
  | grantRemoved h =>
    obtain ⟨held, hheld, rfl⟩ := Invokers.of_removeGrant_eq_ok h
    exact Invokers.gainsOnly_insert fun k hk => .inl ⟨held, hheld, List.mem_of_mem_filter hk⟩
  | _ => exact fun _ _ hg => .inl hg

/-- By an effect invokers gain grants for stored APIs only. -/
theorem Effect.gainsOnly {o : Occasion} {command : Command} {c d : Core}
    {r : Outcome command.Result} (h : Effect o command c r d) (hs : c.store.WellFormed) :
    Invokers.GainsOnly (fun g => c.store.apis.get? g.api ≠ none) c.invokers d.invokers := by
  intro id g hg
  refine (h.gainsOnly_named hs id g hg).imp_right fun ⟨a, ha, _⟩ => ?_
  exact Option.ne_none_iff_exists'.mpr ⟨a, ha⟩

/-- The grants are complete at the end of every run. -/
theorem System.complete_run {ms : List Move} {s : System} (h : System.fresh.run ms = some s) :
    s.core.store.WellFormed ∧ s.core.invokers.Complete :=
  core_induction (P := fun c => c.store.WellFormed ∧ c.invokers.Complete)
    ⟨Publications.wellFormed_empty, Invokers.complete_empty⟩
    (fun _ _ _ _ _ hc he => ⟨he.wellFormed hc.1, he.complete hc.1 hc.2⟩) h

end ApiExposure
