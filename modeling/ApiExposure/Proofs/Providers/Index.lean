import ApiExposure.Registry.Providers

/-!
# The index of functions

Registrations and patches enter functions under generated identifiers only, so
they leave whatever the index says about any other identifier. Removing a domain
takes out its functions and nothing else.
-/

namespace ApiExposure

/-- A function identifier that an occasion can hand out. -/
def Occasion.Issues (o : Occasion) (id : FunctionId) : Prop :=
  ∃ role n, id = .generate role (o.suffix n)

namespace Providers

variable {o : Occasion}

/-- Entering functions changes nothing about any other function. -/
theorem get?_index_of_not_mem (functions : Table FunctionId ResolvedFunction) (domain : DomainId)
    {added : List ProviderFunction} {id : FunctionId} (h : id ∉ added.map (·.id)) :
    (index functions domain added).get? id = functions.get? id := by
  induction added generalizing functions with
  | nil => rfl
  | cons f fs ih =>
    rw [List.map_cons, List.mem_cons, not_or] at h
    exact (ih _ h.2).trans (Table.get?_insert_of_ne _ _ h.1)

/-- A function that is built has a generated identifier. -/
theorem id_of_build {e : FunctionEntry} {f : ProviderFunction} {n : Nat}
    (h : e.build (fun role => .generate role (o.suffix n)) = .ok f) : o.Issues f.id := by
  obtain ⟨⟨role, registration⟩, _, hf⟩ := Outcome.bind_eq_ok_iff.mp h
  cases hf
  exact ⟨role, n, rfl⟩

/-- So have all functions of a registration. -/
theorem ids_of_buildFunctions {n : Nat} {es : List FunctionEntry} {fs : List ProviderFunction}
    (h : buildFunctions o n es = .ok fs) : ∀ f ∈ fs, o.Issues f.id := by
  induction es generalizing n fs with
  | nil =>
    cases h
    exact fun _ hf => nomatch hf
  | cons e es ih =>
    obtain ⟨f, hf, h⟩ := Outcome.bind_eq_ok_iff.mp h
    obtain ⟨gs, hgs, h⟩ := Outcome.bind_eq_ok_iff.mp h
    cases h
    exact List.forall_mem_cons.mpr ⟨id_of_build hf, ih hgs⟩

/-- A replacement brings in nothing but the function that replaces another. -/
theorem eq_or_mem_of_mem_replaceFunction {f g : ProviderFunction} {fs : List ProviderFunction}
    (h : g ∈ replaceFunction f fs) : g = f ∨ g ∈ fs := by
  induction fs with
  | nil => cases h
  | cons k fs ih =>
    rw [replaceFunction] at h
    split at h
    · exact (List.mem_cons.mp h).imp_right (List.mem_cons_of_mem k)
    · rcases List.mem_cons.mp h with rfl | h
      · exact .inr List.mem_cons_self
      · exact (ih h).imp_right (List.mem_cons_of_mem k)

/-- What an entry of a patch, numbered `n`, does to the functions of a domain and to the new ones
among them. -/
inductive PatchStep (o : Occasion) (n : Nat) (e : FunctionEntry)
    (fs added : List ProviderFunction) : List ProviderFunction → List ProviderFunction → Prop
  /-- The function that it is for is changed. -/
  | change {f : ProviderFunction} (hfind : fs.find? (fun g => g.id == f.id) = some f)
      (hid : e.id = some f.id) (hcheck : checkChange f e = .ok ()) :
      PatchStep o n e fs added (replaceFunction (changeFunction f e) fs) added
  /-- A function is added. -/
  | addition {f : ProviderFunction} (hid : e.id = none)
      (hf : e.build (fun role => .generate role (o.suffix n)) = .ok f) :
      PatchStep o n e fs added (fs ++ [f]) (added ++ [f])

/-- A patch goes through when its first entry does and the others do after it. -/
theorem patchFunctions_cons_eq_ok_iff {domain : DomainId} {n : Nat} {e : FunctionEntry}
    {es : List FunctionEntry} {fs added : List ProviderFunction}
    {r : List ProviderFunction × List ProviderFunction} :
    patchFunctions o domain n (e :: es) fs added = .ok r ↔
      ∃ gs new, PatchStep o n e fs added gs new ∧
        patchFunctions o domain (n + 1) es gs new = .ok r := by
  rw [patchFunctions]
  constructor
  · intro h
    split at h
    · next id hid =>
      split at h
      · cases h
      · next f hfind =>
        obtain rfl : f.id = id := by simpa using List.find?_some hfind
        obtain ⟨hcheck, h⟩ := Outcome.andThen_eq_ok_iff.mp h
        exact ⟨_, _, .change hfind hid hcheck, h⟩
    · next hid =>
      obtain ⟨f, hf, h⟩ := Outcome.bind_eq_ok_iff.mp h
      exact ⟨_, _, .addition hid hf, h⟩
  · rintro ⟨_, _, ⟨hfind, hid, hcheck⟩ | ⟨hid, hf⟩, h⟩
    · rw [hid]
      dsimp only
      rw [hfind]
      exact Outcome.andThen_eq_ok_iff.mpr ⟨hcheck, h⟩
    · rw [hid]
      exact Outcome.bind_eq_ok_iff.mpr ⟨_, hf, h⟩

/-- The functions that a patch adds have generated identifiers as well. -/
theorem ids_of_patchFunctions {domain : DomainId} {n : Nat} {es : List FunctionEntry}
    {functions added functions' added' : List ProviderFunction}
    (h : patchFunctions o domain n es functions added = .ok (functions', added'))
    (hadded : ∀ f ∈ added, o.Issues f.id) : ∀ f ∈ added', o.Issues f.id := by
  induction es generalizing n functions added with
  | nil =>
    cases h
    exact hadded
  | cons e es ih =>
    obtain ⟨gs, new, hstep, h⟩ := patchFunctions_cons_eq_ok_iff.mp h
    refine ih h ?_
    cases hstep with
    | change _ _ _ => exact hadded
    | addition _ hf =>
      refine List.forall_mem_append.mpr ⟨hadded, ?_⟩
      exact List.forall_mem_singleton.mpr (id_of_build hf)

/-- Between two registries only functions change that an occasion can hand out. -/
def OnlyIssued (o : Occasion) (p q : Providers) : Prop :=
  ∀ id, ¬ o.Issues id → q.functions.get? id = p.functions.get? id

/-- Functions that an occasion issues are all that is entered with them. -/
theorem onlyIssued_index {p : Providers} {domain : DomainId} {added : List ProviderFunction}
    (hadded : ∀ f ∈ added, o.Issues f.id) (domains : Table DomainId ProviderDomain) :
    OnlyIssued o p ⟨domains, index p.functions domain added⟩ := by
  intro id hid
  refine get?_index_of_not_mem _ _ fun hm => ?_
  obtain ⟨f, hf, rfl⟩ := List.mem_map.mp hm
  exact hid (hadded f hf)

/-- A registration enters only functions that its occasion issues. -/
theorem onlyIssued_register {p q : Providers} {r : DomainRegistration} {domain : ProviderDomain}
    (h : p.register r o = .ok (domain, q)) : OnlyIssued o p q := by
  obtain ⟨_, h⟩ := Outcome.andThen_eq_ok_iff.mp h
  obtain ⟨functions, hf, h⟩ := Outcome.bind_eq_ok_iff.mp h
  cases h
  exact onlyIssued_index (ids_of_buildFunctions hf) _

/-- A patch enters only functions that its occasion issues. -/
theorem onlyIssued_update {p q : Providers} {id : DomainId} {patch : DomainPatch}
    {domain : ProviderDomain} (h : p.update id patch o = .ok (domain, q)) :
    OnlyIssued o p q := by
  obtain ⟨_, h⟩ := Outcome.andThen_eq_ok_iff.mp h
  obtain ⟨held, _, h⟩ := Outcome.bind_eq_ok_iff.mp h
  obtain ⟨⟨functions, added⟩, hf, h⟩ := Outcome.bind_eq_ok_iff.mp h
  cases h
  exact onlyIssued_index (ids_of_patchFunctions hf fun _ hf => nomatch hf) _

/-- Taking functions out of the index leaves the others. -/
theorem get?_foldl_erase (functions : Table FunctionId ResolvedFunction)
    (removed : List FunctionId) (id : FunctionId) :
    (removed.foldl Table.erase functions).get? id =
      if id ∈ removed then none else functions.get? id := by
  induction removed generalizing functions with
  | nil => simp
  | cons f fs ih =>
    rw [List.foldl_cons, ih, Table.get?_erase]
    by_cases hf : id = f <;> by_cases hfs : id ∈ fs <;> simp [hf, hfs]

/-- When a domain goes, exactly the functions that are returned go from the index. -/
theorem get?_deregister {p q : Providers} {id : DomainId} {removed : List FunctionId}
    (h : p.deregister id = .ok (removed, q)) (f : FunctionId) :
    q.functions.get? f = if f ∈ removed then none else p.functions.get? f := by
  obtain ⟨domain, _, h⟩ := Outcome.bind_eq_ok_iff.mp h
  cases h
  exact get?_foldl_erase _ _ _

/-- When a domain leaves, the other functions keep their roles. -/
theorem roleOf_deregister {p q : Providers} {id : DomainId} {removed : List FunctionId}
    (h : p.deregister id = .ok (removed, q)) {f : FunctionId} (hf : f ∉ removed) :
    q.roleOf f = p.roleOf f := by
  rw [roleOf, get?_deregister h, if_neg hf, roleOf]

/-- Functions pass as exposers exactly when all of them are. -/
theorem requireExposers_eq_ok_iff {p : Providers} {ids : List FunctionId} :
    p.requireExposers ids = .ok () ↔ ∀ id ∈ ids, p.roleOf id = some .exposer := by
  unfold requireExposers
  induction ids with
  | nil => simp [pure, Except.pure]
  | cons id ids ih =>
    simp only [List.forM_eq_forM, List.forM_cons, Outcome.andThen_eq_ok_iff, require_eq_ok_iff,
      beq_iff_eq, List.forall_mem_cons] at ih ⊢
    rw [ih]

end Providers

end ApiExposure
