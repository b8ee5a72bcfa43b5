import Mathlib.Data.List.Nodup
import ApiExposure.Proofs.Providers.Index

/-!
# Domains and the index of functions

A domain lists its functions, and the index of functions says of each its domain
and its role. The two are kept side by side: a registration fills both, a patch
changes entries of the list in their place and adds new ones to both, and the
removal of a domain empties both. A change in place keeps identifier and role, so
what the index repeats of a list never changes.

New identifiers have to be new for this. A domain under the identifier of another
one would take its place in the registry and leave the functions of the old one in
the index.
-/

namespace ApiExposure

/-- What the index says of a function beside its domain. -/
def ProviderFunction.signature (f : ProviderFunction) : FunctionId × Role := (f.id, f.role)

namespace Occasion

/-- A function identifier that an occasion can hand out with a suffix from a number on. -/
def IssuesFrom (o : Occasion) (n : Nat) (id : FunctionId) : Prop :=
  ∃ role m, n ≤ m ∧ id = .generate role (o.suffix m)

namespace IssuesFrom

variable {o : Occasion} {m n : Nat} {id : FunctionId}

/-- What an occasion issues from a number on it issues. -/
theorem issues (h : o.IssuesFrom n id) : o.Issues id :=
  let ⟨role, m, _, hid⟩ := h
  ⟨role, m, hid⟩

theorem mono (h : o.IssuesFrom n id) (hmn : m ≤ n) : o.IssuesFrom m id :=
  let ⟨role, k, hk, hid⟩ := h
  ⟨role, k, Nat.le_trans hmn hk, hid⟩

end IssuesFrom

end Occasion

namespace Providers

/-- Signatures of the functions that a domain lists. A domain that is not registered lists none. -/
def signaturesOf (p : Providers) (id : DomainId) : List (FunctionId × Role) :=
  ((p.domains.get? id).map (fun d => d.functions.map (·.signature))).getD []

/-- The domains and the index of functions agree. -/
structure Agrees (p : Providers) : Prop where
  /-- Every domain is registered under its own identifier. -/
  keyed : ∀ id d, p.domains.get? id = some d → d.id = id
  /-- The index has exactly the functions that domains list. -/
  exact : ∀ f r, p.functions.get? f = some r ↔ (f, r.role) ∈ p.signaturesOf r.domain
  /-- No domain lists a function twice. -/
  once : ∀ id, ((p.signaturesOf id).map (·.1)).Nodup

variable {o : Occasion} {p q : Providers} {id : DomainId} {d : ProviderDomain}

theorem get_eq_ok_iff : p.get id = .ok d ↔ p.domains.get? id = some d := by
  unfold get
  cases p.domains.get? id <;> simp

/-- The signatures of a registered domain are those of its functions. -/
theorem signaturesOf_of_get? (h : p.domains.get? id = some d) :
    p.signaturesOf id = d.functions.map (·.signature) := by
  rw [signaturesOf, h]
  rfl

theorem signaturesOf_of_none (h : p.domains.get? id = none) : p.signaturesOf id = [] := by
  rw [signaturesOf, h]
  rfl

/-- The identifiers in signatures are those of the functions. -/
theorem map_fst_signature (fs : List ProviderFunction) :
    (fs.map (·.signature)).map (·.1) = fs.map (·.id) := by
  rw [List.map_map]
  rfl

/-- A listed function has a registered domain. -/
theorem mem_signaturesOf_iff {f : FunctionId} {role : Role} :
    (f, role) ∈ p.signaturesOf id ↔
      ∃ d, p.domains.get? id = some d ∧ ∃ g ∈ d.functions, g.id = f ∧ g.role = role := by
  cases h : p.domains.get? id with
  | none => simp [signaturesOf_of_none h]
  | some d => simp [signaturesOf_of_get? h, ProviderFunction.signature]

theorem agrees_empty : empty.Agrees where
  keyed := fun _ _ h => nomatch h
  exact := fun _ _ => ⟨fun h => (nomatch h), fun h => (nomatch h)⟩
  once := fun _ => .nil

/-- A function that is entered stands for the domain in its role. -/
theorem get?_index_of_mem (functions : Table FunctionId ResolvedFunction) (domain : DomainId)
    {added : List ProviderFunction} (hadded : (added.map (·.id)).Nodup) {f : ProviderFunction}
    (hf : f ∈ added) : (index functions domain added).get? f.id = some ⟨domain, f.role⟩ := by
  induction added generalizing functions with
  | nil => cases hf
  | cons g gs ih =>
    rw [List.map_cons, List.nodup_cons] at hadded
    rcases List.mem_cons.mp hf with rfl | hf
    · exact (get?_index_of_not_mem _ _ hadded.1).trans (Table.get?_insert_self _ _ _)
    · exact ih _ hadded.2 hf

/-- A domain is entered, or changed in its place, with new functions at the end of its list. -/
structure Enters (o : Occasion) (p q : Providers) (d : ProviderDomain)
    (new : List ProviderFunction) : Prop where
  /-- The domain and the new functions are set. -/
  result : q = ⟨p.domains.insert d.id d, index p.functions d.id new⟩
  /-- The domain keeps its functions with their roles. -/
  signatures : d.functions.map (·.signature) = p.signaturesOf d.id ++ new.map (·.signature)
  /-- New functions have generated identifiers. -/
  issued : ∀ f ∈ new, o.Issues f.id
  /-- These differ. -/
  once : (new.map (·.id)).Nodup
  /-- A new domain has a generated identifier. -/
  domain : p.domains.get? d.id = none → d.id = .generate (o.suffix 0)

namespace Enters

variable {new : List ProviderFunction}

/-- What is entered for a domain changes no other domain. -/
theorem get?_domains (h : Enters o p q d new) (k : DomainId) :
    q.domains.get? k = if k = d.id then some d else p.domains.get? k := by
  rw [h.result]
  by_cases hk : k = d.id
  · rw [if_pos hk, hk]
    exact Table.get?_insert_self _ _ _
  · rw [if_neg hk]
    exact Table.get?_insert_of_ne _ _ hk

/-- New functions stand behind those of their domain. -/
theorem signaturesOf (h : Enters o p q d new) (k : DomainId) :
    q.signaturesOf k = if k = d.id then p.signaturesOf d.id ++ new.map (·.signature)
      else p.signaturesOf k := by
  by_cases hk : k = d.id
  · have hd : q.domains.get? k = some d := by rw [h.get?_domains, if_pos hk]
    rw [if_pos hk, signaturesOf_of_get? hd, h.signatures]
  · rw [if_neg hk, Providers.signaturesOf, h.get?_domains, if_neg hk]
    rfl

/-- Only functions of the occasion come into the index. -/
theorem onlyIssued (h : Enters o p q d new) : OnlyIssued o p q := by
  rw [h.result]
  exact onlyIssued_index h.issued _

/-- When no identifier of the occasion is in the index, domains and index keep agreeing. -/
theorem agrees (hp : p.Agrees) (h : Enters o p q d new)
    (hnew : ∀ f, o.Issues f → p.functions.get? f = none) : q.Agrees where
  keyed := by
    intro k e he
    rw [h.get?_domains] at he
    split at he
    · next hk =>
      cases he
      exact hk.symm
    · exact hp.keyed k e he
  exact := by
    intro f r
    rw [h.signaturesOf]
    by_cases hf : f ∈ new.map (·.id)
    · obtain ⟨g, hg, rfl⟩ := List.mem_map.mp hf
      have hget : q.functions.get? g.id = some ⟨d.id, g.role⟩ := by
        rw [h.result]
        exact get?_index_of_mem _ _ h.once hg
      have hold : ∀ (k : DomainId) (role : Role), (g.id, role) ∉ p.signaturesOf k := by
        intro k role hmem
        have hheld : p.functions.get? g.id = some ⟨k, role⟩ := (hp.exact g.id ⟨k, role⟩).mpr hmem
        rw [hnew g.id (h.issued g hg)] at hheld
        cases hheld
      rw [hget, Option.some.injEq]
      constructor
      · rintro rfl
        rw [if_pos rfl]
        exact List.mem_append_right _ (List.mem_map.mpr ⟨g, hg, rfl⟩)
      · intro hmem
        split at hmem
        · next hdomain =>
          rcases List.mem_append.mp hmem with hmem | hmem
          · exact absurd hmem (hold _ _)
          · obtain ⟨e, he, hsignature⟩ := List.mem_map.mp hmem
            obtain ⟨hid, hrole⟩ := Prod.mk.inj hsignature
            obtain rfl : e = g := List.inj_on_of_nodup_map h.once he hg hid
            rw [← hdomain, hrole]
        · exact absurd hmem (hold _ _)
    · have hget : q.functions.get? f = p.functions.get? f := by
        rw [h.result]
        exact get?_index_of_not_mem _ _ hf
      have habsent : (f, r.role) ∉ new.map (·.signature) := by
        intro hmem
        obtain ⟨e, he, hsignature⟩ := List.mem_map.mp hmem
        exact hf (List.mem_map.mpr ⟨e, he, (Prod.mk.inj hsignature).1⟩)
      rw [hget, hp.exact]
      split
      · next hdomain =>
        rw [hdomain, List.mem_append]
        exact ⟨.inl, fun hmem => hmem.resolve_right habsent⟩
      · rfl
  once := by
    intro k
    rw [h.signaturesOf]
    split
    · rw [List.map_append, map_fst_signature, List.nodup_append]
      refine ⟨hp.once d.id, h.once, ?_⟩
      intro f hf g hg hfg
      obtain ⟨⟨f', role⟩, hmem, rfl⟩ := List.mem_map.mp hf
      obtain ⟨e, he, rfl⟩ := List.mem_map.mp hg
      have hheld : p.functions.get? f' = some ⟨d.id, role⟩ := (hp.exact f' ⟨d.id, role⟩).mpr hmem
      have hissued : o.Issues f' := by
        have hid : f' = e.id := hfg
        exact hid ▸ h.issued e he
      rw [hnew f' hissued] at hheld
      cases hheld
    · exact hp.once k

end Enters

/-- The next function has the next suffix, which none after it has. -/
theorem build_numbered {n : Nat} {e : FunctionEntry} {f : ProviderFunction}
    (hinjective : Function.Injective o.suffix)
    (h : e.build (fun role => .generate role (o.suffix n)) = .ok f) :
    o.IssuesFrom n f.id ∧ ¬ o.IssuesFrom (n + 1) f.id := by
  obtain ⟨⟨role, registration⟩, _, hf⟩ := Outcome.bind_eq_ok_iff.mp h
  cases hf
  refine ⟨⟨role, n, Nat.le_refl n, rfl⟩, ?_⟩
  rintro ⟨role', m, hm, he⟩
  have hmn : n = m := hinjective (FunctionId.generate_injective he)
  omega

/-- It goes to the end of functions that have none from its suffix on. -/
theorem numbered_append {n : Nat} {e : FunctionEntry} {f : ProviderFunction}
    {fs : List ProviderFunction} (hinjective : Function.Injective o.suffix)
    (h : e.build (fun role => .generate role (o.suffix n)) = .ok f) (hfs : (fs.map (·.id)).Nodup)
    (hnew : ∀ g ∈ fs, ¬ o.IssuesFrom n g.id) :
    ((fs ++ [f]).map (·.id)).Nodup ∧ ∀ g ∈ fs ++ [f], ¬ o.IssuesFrom (n + 1) g.id := by
  obtain ⟨hn, hlast⟩ := build_numbered hinjective h
  constructor
  · rw [List.map_append, List.nodup_append]
    refine ⟨hfs, List.nodup_singleton _, fun id hid last hmem => ?_⟩
    obtain ⟨g, hg, rfl⟩ := List.mem_map.mp hid
    rw [List.map_singleton, List.mem_singleton] at hmem
    rintro rfl
    exact hnew g hg (hmem ▸ hn)
  · rw [List.forall_mem_append, List.forall_mem_singleton]
    exact ⟨fun g hg hissues => hnew g hg (hissues.mono (Nat.le_succ n)), hlast⟩

/-- The functions of a registration have different identifiers. -/
theorem numbered_of_buildFunctions (hinjective : Function.Injective o.suffix) {n : Nat}
    {es : List FunctionEntry} {fs : List ProviderFunction} (h : buildFunctions o n es = .ok fs) :
    (fs.map (·.id)).Nodup ∧ ∀ f ∈ fs, o.IssuesFrom n f.id := by
  induction es generalizing n fs with
  | nil =>
    cases h
    exact ⟨.nil, fun _ hf => nomatch hf⟩
  | cons e es ih =>
    obtain ⟨f, hf, h⟩ := Outcome.bind_eq_ok_iff.mp h
    obtain ⟨gs, hgs, h⟩ := Outcome.bind_eq_ok_iff.mp h
    cases h
    obtain ⟨hnodup, hgs⟩ := ih hgs
    obtain ⟨hn, hlast⟩ := build_numbered hinjective hf
    constructor
    · rw [List.map_cons, List.nodup_cons]
      refine ⟨fun hmem => ?_, hnodup⟩
      obtain ⟨g, hg, hid⟩ := List.mem_map.mp hmem
      exact hlast (hid ▸ hgs g hg)
    · exact List.forall_mem_cons.mpr ⟨hn, fun g hg => (hgs g hg).mono (Nat.le_succ n)⟩

/-- A function of a list that has no identifier twice is found by its own. -/
theorem find?_id_of_mem {fs : List ProviderFunction} {f : ProviderFunction}
    (hfs : (fs.map (·.id)).Nodup) (hf : f ∈ fs) :
    fs.find? (fun g => g.id == f.id) = some f := by
  cases hfind : fs.find? (fun g => g.id == f.id) with
  | none => simpa using List.find?_eq_none.mp hfind f hf
  | some g =>
    have hid : g.id = f.id := by simpa using List.find?_some hfind
    rw [List.inj_on_of_nodup_map hfs (List.mem_of_find?_eq_some hfind) hf hid]

/-- Where no identifier occurs twice, the first function with an identifier is the only one. -/
theorem replaceFunction_eq_map {fs : List ProviderFunction} (hfs : (fs.map (·.id)).Nodup)
    (f : ProviderFunction) :
    replaceFunction f fs = fs.map (fun g => if g.id = f.id then f else g) := by
  induction fs with
  | nil => rfl
  | cons g gs ih =>
    rw [List.map_cons, List.nodup_cons] at hfs
    rw [replaceFunction, List.map_cons]
    by_cases hid : g.id = f.id
    · have hothers : gs.map (fun k => if k.id = f.id then f else k) = gs := by
        refine (List.map_congr_left fun k hk => if_neg fun h => ?_).trans (List.map_id gs)
        exact hfs.1 (List.mem_map.mpr ⟨k, hk, h.trans hid.symm⟩)
      rw [if_pos hid, if_pos hid, hothers]
    · rw [if_neg hid, if_neg hid, ih hfs.2]

/-- A changed function takes the place of the one with its identifier and has its signature. -/
theorem signatures_replaceFunction {fs : List ProviderFunction} {f : ProviderFunction}
    (hfs : (fs.map (·.id)).Nodup) (hf : f ∈ fs) (e : FunctionEntry) :
    (replaceFunction (changeFunction f e) fs).map (·.signature) = fs.map (·.signature) := by
  rw [replaceFunction_eq_map hfs, List.map_map]
  refine List.map_congr_left fun g hg => ?_
  by_cases hid : g.id = (changeFunction f e).id
  · obtain rfl : g = f := List.inj_on_of_nodup_map hfs hg hf hid
    simp only [Function.comp_apply, if_pos hid]
    rfl
  · simp only [Function.comp_apply, if_neg hid]

/-- An entry of a patch leaves no identifier twice, and none from the next suffix on. -/
theorem PatchStep.numbered {n : Nat} {e : FunctionEntry}
    {fs added gs new : List ProviderFunction} (h : PatchStep o n e fs added gs new)
    (hinjective : Function.Injective o.suffix) (hfs : (fs.map (·.id)).Nodup)
    (hnew : ∀ f ∈ fs, ¬ o.IssuesFrom n f.id) :
    (gs.map (·.id)).Nodup ∧ ∀ g ∈ gs, ¬ o.IssuesFrom (n + 1) g.id := by
  cases h with
  | addition _ hf => exact numbered_append hinjective hf hfs hnew
  | @change f hfind _ _ =>
    have hf : f ∈ fs := List.mem_of_find?_eq_some hfind
    have hids : (replaceFunction (changeFunction f e) fs).map (·.id) = fs.map (·.id) := by
      rw [← map_fst_signature, signatures_replaceFunction hfs hf, map_fst_signature]
    refine ⟨hids ▸ hfs, fun g hg hissues => ?_⟩
    have hmem : g.id ∈ fs.map (·.id) := hids ▸ List.mem_map.mpr ⟨g, hg, rfl⟩
    obtain ⟨k, hk, hid⟩ := List.mem_map.mp hmem
    exact hnew k hk (hid ▸ hissues.mono (Nat.le_succ n))

/-- A patch keeps the functions with their roles and adds new ones at the end, under identifiers of
their own. -/
theorem signatures_of_patchFunctions (hinjective : Function.Injective o.suffix)
    {domain : DomainId} {n : Nat} {es : List FunctionEntry}
    {fs gs added all : List ProviderFunction}
    (h : patchFunctions o domain n es fs added = .ok (gs, all)) (hfs : (fs.map (·.id)).Nodup)
    (hnew : ∀ f ∈ fs, ¬ o.IssuesFrom n f.id) :
    ∃ new, all = added ++ new ∧
      gs.map (·.signature) = fs.map (·.signature) ++ new.map (·.signature) ∧
        (gs.map (·.id)).Nodup ∧ ∀ f ∈ new, o.Issues f.id := by
  induction es generalizing n fs added with
  | nil =>
    cases h
    exact ⟨[], by simp, by simp, hfs, fun _ hf => nomatch hf⟩
  | cons e es ih =>
    obtain ⟨_, _, hstep, h⟩ := patchFunctions_cons_eq_ok_iff.mp h
    obtain ⟨hnodup, hnewer⟩ := hstep.numbered hinjective hfs hnew
    obtain ⟨new, hall, hgs, hids, hissued⟩ := ih h hnodup hnewer
    cases hstep with
    | change hfind _ _ =>
      rw [signatures_replaceFunction hfs (List.mem_of_find?_eq_some hfind)] at hgs
      exact ⟨new, hall, hgs, hids, hissued⟩
    | @addition f _ hf =>
      refine ⟨f :: new, by simp [hall], by simp [hgs], hids, ?_⟩
      exact List.forall_mem_cons.mpr ⟨(build_numbered hinjective hf).1.issues, hissued⟩

/-- A registration enters a domain that was not there. -/
theorem enters_of_register {r : DomainRegistration} (hinjective : Function.Injective o.suffix)
    (hnew : p.domains.get? (.generate (o.suffix 0)) = none)
    (h : p.register r o = .ok (d, q)) : Enters o p q d d.functions := by
  obtain ⟨_, h⟩ := Outcome.andThen_eq_ok_iff.mp h
  obtain ⟨functions, hf, h⟩ := Outcome.bind_eq_ok_iff.mp h
  cases h
  obtain ⟨hnodup, hissued⟩ := numbered_of_buildFunctions hinjective hf
  exact ⟨rfl, by rw [signaturesOf_of_none hnew]; rfl, fun f hf => (hissued f hf).issues, hnodup,
    fun _ => rfl⟩

/-- A patch changes a domain that is there. -/
theorem enters_of_update (hp : p.Agrees) {patch : DomainPatch}
    (hinjective : Function.Injective o.suffix)
    (hnew : ∀ f, o.Issues f → p.functions.get? f = none)
    (h : p.update id patch o = .ok (d, q)) : ∃ new, Enters o p q d new := by
  obtain ⟨_, h⟩ := Outcome.andThen_eq_ok_iff.mp h
  obtain ⟨held, hheld, h⟩ := Outcome.bind_eq_ok_iff.mp h
  obtain ⟨⟨functions, added⟩, hf, h⟩ := Outcome.bind_eq_ok_iff.mp h
  cases h
  have hget : p.domains.get? id = some held := get_eq_ok_iff.mp hheld
  have hid : held.id = id := hp.keyed id held hget
  have hsignatures : p.signaturesOf id = held.functions.map (·.signature) :=
    signaturesOf_of_get? hget
  have hnodup : (held.functions.map (·.id)).Nodup := by
    rw [← map_fst_signature, ← hsignatures]
    exact hp.once id
  have hheldOld : ∀ f ∈ held.functions, ¬ o.IssuesFrom 0 f.id := by
    intro f hf hissues
    have hmem : (f.id, f.role) ∈ p.signaturesOf id :=
      mem_signaturesOf_iff.mpr ⟨held, hget, f, hf, rfl, rfl⟩
    have hindexed := (hp.exact f.id ⟨id, f.role⟩).mpr hmem
    rw [hnew f.id hissues.issues] at hindexed
    cases hindexed
  obtain ⟨new, hadded, hgs, hids, hissued⟩ :=
    signatures_of_patchFunctions hinjective hf hnodup hheldOld
  rw [List.nil_append] at hadded
  subst hadded
  refine ⟨added, ?_, ?_, hissued, ?_, ?_⟩
  · dsimp only
    rw [hid]
  · dsimp only
    rw [hid, hsignatures, hgs]
  · rw [← map_fst_signature, hgs, List.map_append] at hids
    rw [← map_fst_signature]
    exact hids.of_append_right
  · intro hnone
    dsimp only at hnone
    rw [hid, hget] at hnone
    cases hnone

section Removal

variable {removed : List FunctionId}

/-- A registered domain goes with its functions. -/
theorem deregister_eq_ok {d : ProviderDomain} (hd : p.domains.get? id = some d) :
    p.deregister id = .ok (d.functionIds,
      ⟨p.domains.erase id, d.functionIds.foldl Table.erase p.functions⟩) := by
  rw [deregister, get_eq_ok_iff.mpr hd]
  rfl

/-- A domain that leaves takes the functions along that it lists. -/
theorem of_deregister_eq_ok (h : p.deregister id = .ok (removed, q)) :
    ∃ d, p.domains.get? id = some d ∧ removed = d.functionIds ∧
      q.domains = p.domains.erase id := by
  obtain ⟨d, hd, h⟩ := Outcome.bind_eq_ok_iff.mp h
  cases h
  exact ⟨d, get_eq_ok_iff.mp hd, rfl, rfl⟩

/-- Only the domain that leaves loses its functions. -/
theorem signaturesOf_deregister (h : p.deregister id = .ok (removed, q)) (k : DomainId) :
    q.signaturesOf k = if k = id then [] else p.signaturesOf k := by
  obtain ⟨_, _, _, hdomains⟩ := of_deregister_eq_ok h
  rw [signaturesOf, hdomains, Table.get?_erase]
  split <;> rfl

namespace Agrees

/-- The functions that go with a domain are those that the index has for it. -/
theorem mem_removed_iff (hp : p.Agrees) (h : p.deregister id = .ok (removed, q))
    {f : FunctionId} : f ∈ removed ↔ ∃ role, p.functions.get? f = some ⟨id, role⟩ := by
  obtain ⟨d, hd, rfl, _⟩ := of_deregister_eq_ok h
  rw [ProviderDomain.functionIds, ← map_fst_signature, ← signaturesOf_of_get? hd, List.mem_map]
  constructor
  · rintro ⟨⟨_, role⟩, hmem, rfl⟩
    exact ⟨role, (hp.exact _ ⟨id, role⟩).mpr hmem⟩
  · rintro ⟨role, hf⟩
    exact ⟨(f, role), (hp.exact f ⟨id, role⟩).mp hf, rfl⟩

/-- What the index has for another domain stays. -/
theorem get?_of_deregister (hp : p.Agrees) (h : p.deregister id = .ok (removed, q))
    {f : FunctionId} {r : ResolvedFunction} :
    q.functions.get? f = some r ↔ p.functions.get? f = some r ∧ r.domain ≠ id := by
  rw [get?_deregister h]
  split
  · next hf =>
    obtain ⟨role, hindexed⟩ := (hp.mem_removed_iff h).mp hf
    constructor
    · intro hnone
      cases hnone
    · rintro ⟨hr, hdomain⟩
      rw [hindexed] at hr
      cases hr
      exact absurd rfl hdomain
  · next hf =>
    refine ⟨fun hr => ⟨hr, fun hdomain => hf ?_⟩, fun hr => hr.1⟩
    exact (hp.mem_removed_iff h).mpr ⟨r.role, hdomain ▸ hr⟩

/-- The removal of a domain keeps domains and index agreeing. -/
theorem deregister (hp : p.Agrees) (h : p.deregister id = .ok (removed, q)) : q.Agrees where
  keyed := by
    intro k e he
    obtain ⟨_, _, _, hdomains⟩ := of_deregister_eq_ok h
    rw [hdomains, Table.get?_erase] at he
    split at he
    · cases he
    · exact hp.keyed k e he
  exact := by
    intro f r
    rw [hp.get?_of_deregister h, signaturesOf_deregister h, hp.exact]
    split
    · next hdomain =>
      exact ⟨fun hr => absurd hdomain hr.2, fun hmem => absurd hmem List.not_mem_nil⟩
    · next hdomain =>
      exact ⟨fun hr => hr.1, fun hmem => ⟨hmem, hdomain⟩⟩
  once := by
    intro k
    rw [signaturesOf_deregister h]
    split
    · exact .nil
    · exact hp.once k

end Agrees

end Removal

end Providers

end ApiExposure
