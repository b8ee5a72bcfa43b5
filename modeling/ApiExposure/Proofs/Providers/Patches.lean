import Mathlib.Data.List.Forall2
import ApiExposure.Proofs.Providers.Lifetime
import ApiExposure.Proofs.Registry.Table

/-!
# What a patch does to a domain

A patch works through its entries one by one, on a list that earlier entries have
changed already. What comes of it can be said at once: every function of the domain
is in its place with what the last entries for it provide, and behind them there is
one function for each entry without an identifier, in the order of the patch. Whether
an entry is admitted depends on the identifiers and roles only, which no entry
changes, so it does not matter which entries came before it.

An entry could name a function that an earlier entry of the same patch brought in.
With fresh identifiers it does not.
-/

namespace ApiExposure

namespace FunctionEntry

/-- What the last of the entries for a function provides in a field, if any of them does. -/
def lastFor {α : Type} (es : List FunctionEntry) (id : FunctionId)
    (field : FunctionEntry → Option α) : Option α :=
  ((es.filter (fun e => e.id = some id)).filterMap field).getLast?

/-- An entry is admitted by functions: it changes one of them or describes a new one. -/
inductive Admitted (fs : List ProviderFunction) (e : FunctionEntry) : Prop
  /-- The entry is for a function, whose role it may repeat, and brings no blank key. -/
  | change {f : ProviderFunction} (hf : f ∈ fs) (hid : e.id = some f.id)
      (hrole : ∀ role, e.role = some role → role = f.role)
      (hkey : ∀ r, e.registration = some r → Text.isBlank r.publicKey = false)
  /-- The entry is for no function and has a role and a key. -/
  | addition {role : Role} {r : RegistrationInfo} (hid : e.id = none) (hrole : e.role = some role)
      (hregistration : e.registration = some r) (hkey : Text.isBlank r.publicKey = false)

/-- A function is what an entry describes. -/
structure Describes (e : FunctionEntry) (f : ProviderFunction) : Prop where
  /-- It has the role. -/
  role : e.role = some f.role
  /-- It has the text. -/
  info : e.info = f.info
  /-- It has the credentials. -/
  registration : e.registration = some f.registration

/-- An entry comes before the others, which win where they provide something. -/
theorem lastFor_cons {α : Type} (e : FunctionEntry) (es : List FunctionEntry) (id : FunctionId)
    (field : FunctionEntry → Option α) :
    lastFor (e :: es) id field =
      (lastFor es id field).or (if e.id = some id then field e else none) := by
  unfold lastFor
  by_cases hid : e.id = some id
  · rw [List.filter_cons_of_pos (by simpa using hid), if_pos hid]
    cases hfield : field e with
    | none => rw [List.filterMap_cons_none hfield, Option.or_none]
    | some value =>
      rw [List.filterMap_cons_some hfield, List.getLast?_cons]
      cases ((es.filter fun e => e.id = some id).filterMap field).getLast? <;> rfl
  · rw [List.filter_cons_of_neg (by simpa using hid), if_neg hid, Option.or_none]

end FunctionEntry

namespace ProviderFunction

/-- A function with what the last entries for it provide. -/
def revisedBy (f : ProviderFunction) (es : List FunctionEntry) : ProviderFunction :=
  { f with
    registration := (FunctionEntry.lastFor es f.id (·.registration)).getD f.registration
    info := (FunctionEntry.lastFor es f.id (·.info)).or f.info }

@[simp] theorem revisedBy_nil (f : ProviderFunction) : f.revisedBy [] = f := rfl

/-- The first entry changes a function if it is for it, and then the others do. -/
theorem revisedBy_cons (f : ProviderFunction) (e : FunctionEntry) (es : List FunctionEntry) :
    f.revisedBy (e :: es) =
      (if e.id = some f.id then Providers.changeFunction f e else f).revisedBy es := by
  by_cases hid : e.id = some f.id
  · simp only [revisedBy, FunctionEntry.lastFor_cons, if_pos hid, Option.getD_or, Option.or_assoc,
      Providers.changeFunction]
  · simp only [revisedBy, FunctionEntry.lastFor_cons, if_neg hid, Option.or_none]

/-- Entries that are not for a function leave it. -/
theorem revisedBy_eq_self {f : ProviderFunction} {es : List FunctionEntry}
    (h : ∀ e ∈ es, e.id ≠ some f.id) : f.revisedBy es = f := by
  induction es with
  | nil => rfl
  | cons e es ih =>
    rw [List.forall_mem_cons] at h
    rw [revisedBy_cons, if_neg h.1, ih h.2]

end ProviderFunction

namespace FunctionEntry.Admitted

variable {fs gs : List ProviderFunction} {e : FunctionEntry} {f : ProviderFunction}

/-- Only identifiers and roles count. -/
theorem of_signatures (h : fs.map (·.signature) ⊆ gs.map (·.signature)) (he : e.Admitted fs) :
    e.Admitted gs := by
  cases he with
  | @change f hf hid hrole hkey =>
    obtain ⟨g, hg, hsignature⟩ := List.mem_map.mp (h (List.mem_map.mpr ⟨f, hf, rfl⟩))
    obtain ⟨hgid, hgrole⟩ := Prod.mk.inj hsignature
    exact .change hg (by rw [hid, hgid]) (by rwa [hgrole]) hkey
  | addition hid hrole hregistration hkey => exact .addition hid hrole hregistration hkey

/-- A function that no entry is for does not count. -/
theorem of_append_singleton (hother : e.id ≠ some f.id) (he : e.Admitted (fs ++ [f])) :
    e.Admitted fs := by
  cases he with
  | change hg hid hrole hkey =>
    rcases List.mem_append.mp hg with hg | hg
    · exact .change hg hid hrole hkey
    · rw [List.mem_singleton.mp hg] at hid
      exact absurd hid hother
  | addition hid hrole hregistration hkey => exact .addition hid hrole hregistration hkey

end FunctionEntry.Admitted

namespace Providers

variable {o : Occasion} {domain : DomainId} {n : Nat} {e : FunctionEntry}
  {es : List FunctionEntry} {fs gs added all : List ProviderFunction} {f : ProviderFunction}

/-- The functions that entries without identifier describe, numbered from `n`. -/
def additions (o : Occasion) : Nat → List FunctionEntry → List ProviderFunction
  | _, [] => []
  | n, e :: es =>
    match e.id, e.build (fun role => .generate role (o.suffix n)) with
    | none, .ok f => f :: additions o (n + 1) es
    | _, _ => additions o (n + 1) es

/-- An entry may repeat the role of a function but not change it, and may not blank its key. -/
theorem checkChange_eq_ok_iff :
    checkChange f e = .ok () ↔ (∀ role, e.role = some role → role = f.role) ∧
      ∀ r, e.registration = some r → Text.isBlank r.publicKey = false := by
  unfold checkChange
  cases e.role <;> cases e.registration <;>
    simp [Outcome.andThen_eq_ok_iff, require_eq_ok_iff, RegistrationInfo.validate]

/-- A function is built from an entry that describes it, with a key that is not blank. -/
theorem build_eq_ok_iff {id : Role → FunctionId} :
    e.build id = .ok f ↔ e.Describes f ∧ Text.isBlank f.registration.publicKey = false ∧
      f.id = id f.role := by
  constructor
  · intro h
    obtain ⟨⟨role, registration⟩, hnew, hf⟩ := Outcome.bind_eq_ok_iff.mp h
    obtain ⟨hrole, hregistration, hkey⟩ := FunctionEntry.newFunction_eq_ok_iff.mp hnew
    cases hf
    exact ⟨⟨hrole, rfl, hregistration⟩, hkey, rfl⟩
  · rintro ⟨⟨hrole, hinfo, hregistration⟩, hkey, hid⟩
    have hnew := FunctionEntry.newFunction_eq_ok_iff.mpr ⟨hrole, hregistration, hkey⟩
    refine Outcome.bind_eq_ok_iff.mpr ⟨_, hnew, ?_⟩
    simp only [hinfo, ← hid]

/-- A complete entry with a key that is not blank builds a function. -/
theorem exists_build {role : Role} {r : RegistrationInfo} (hrole : e.role = some role)
    (hregistration : e.registration = some r) (hkey : Text.isBlank r.publicKey = false)
    (id : Role → FunctionId) : ∃ f, e.build id = .ok f :=
  ⟨⟨id role, role, e.info, r⟩, build_eq_ok_iff.mpr ⟨⟨hrole, rfl, hregistration⟩, hkey, rfl⟩⟩

/-- Changing a function in the list is revising all of them by the entry for it. -/
theorem replaceFunction_changeFunction (hfs : (fs.map (·.id)).Nodup) (hf : f ∈ fs)
    (he : e.id = some f.id) :
    replaceFunction (changeFunction f e) fs = fs.map (·.revisedBy [e]) := by
  rw [replaceFunction_eq_map hfs]
  refine List.map_congr_left fun g hg => ?_
  rw [ProviderFunction.revisedBy_cons, ProviderFunction.revisedBy_nil]
  by_cases hid : g.id = f.id
  · obtain rfl : g = f := List.inj_on_of_nodup_map hfs hg hf hid
    rw [if_pos he]
    exact if_pos rfl
  · have hother : ¬ e.id = some g.id := fun h => hid (Option.some.inj (h.symm.trans he))
    rw [if_neg hother]
    exact if_neg hid

/-- A function is revised entry by entry. -/
theorem revisedBy_revisedBy (f : ProviderFunction) (e : FunctionEntry)
    (es : List FunctionEntry) : (f.revisedBy [e]).revisedBy es = f.revisedBy (e :: es) := by
  rw [ProviderFunction.revisedBy_cons f e [], ProviderFunction.revisedBy_nil,
    ← ProviderFunction.revisedBy_cons]

/-- Revising functions changes neither their identifiers nor their roles. -/
theorem signatures_revisedBy (fs : List ProviderFunction) (es : List FunctionEntry) :
    (fs.map (·.revisedBy es)).map (·.signature) = fs.map (·.signature) := by
  rw [List.map_map]
  rfl

/-- An entry is admitted when there is something that it does. -/
theorem admitted_iff_step (hfs : (fs.map (·.id)).Nodup) (n : Nat)
    (added : List ProviderFunction) :
    e.Admitted fs ↔ ∃ gs new, PatchStep o n e fs added gs new := by
  constructor
  · rintro (⟨hf, hid, hrole, hkey⟩ | ⟨hid, hrole, hregistration, hkey⟩)
    · exact ⟨_, _, .change (find?_id_of_mem hfs hf) hid
        (checkChange_eq_ok_iff.mpr ⟨hrole, hkey⟩)⟩
    · obtain ⟨f, hf⟩ := exists_build hrole hregistration hkey _
      exact ⟨_, _, .addition hid hf⟩
  · rintro ⟨_, _, ⟨hfind, hid, hcheck⟩ | ⟨hid, hf⟩⟩
    · obtain ⟨hrole, hkey⟩ := checkChange_eq_ok_iff.mp hcheck
      exact .change (List.mem_of_find?_eq_some hfind) hid hrole hkey
    · obtain ⟨hdescribes, hkey, _⟩ := build_eq_ok_iff.mp hf
      exact .addition hid hdescribes.role hdescribes.registration hkey

/-- After an entry the others find what they would have found before it. Those functions that it
leaves in their places are revised, and the one that it adds is the first of the additions. -/
structure PatchStep.Leaves (o : Occasion) (n : Nat) (e : FunctionEntry) (es : List FunctionEntry)
    (fs added gs new : List ProviderFunction) : Prop where
  /-- The same entries are admitted. -/
  admitted : ∀ d ∈ es, (d.Admitted gs ↔ d.Admitted fs)
  /-- The functions with their additions are those of all entries. -/
  functions : gs.map (·.revisedBy es) ++ additions o (n + 1) es =
    fs.map (·.revisedBy (e :: es)) ++ additions o n (e :: es)
  /-- So are the new ones. -/
  added : new ++ additions o (n + 1) es = added ++ additions o n (e :: es)

/-- What one entry leaves is judged by the entries behind it as before. No later entry is for a new
function, as none names an identifier of the occasion. -/
theorem PatchStep.leaves (h : PatchStep o n e fs added gs new)
    (hinjective : Function.Injective o.suffix) (hfs : (fs.map (·.id)).Nodup)
    (hes : ∀ e ∈ es, ∀ id, e.id = some id → ¬ o.Issues id) :
    PatchStep.Leaves o n e es fs added gs new := by
  cases h with
  | @change f hfind hid _ =>
    have hadditions : additions o n (e :: es) = additions o (n + 1) es := by rw [additions, hid]
    rw [replaceFunction_changeFunction hfs (List.mem_of_find?_eq_some hfind) hid]
    have hsignatures := signatures_revisedBy fs [e]
    refine ⟨fun d _ => ?_, ?_, by rw [hadditions]⟩
    · exact ⟨.of_signatures (hsignatures ▸ List.Subset.refl _),
        .of_signatures (hsignatures ▸ List.Subset.refl _)⟩
    · rw [hadditions, List.map_map]
      simp only [Function.comp_def, revisedBy_revisedBy]
  | @addition f hid hf =>
    have hadditions : additions o n (e :: es) = f :: additions o (n + 1) es := by
      rw [additions, hid, hf]
    have hother : ∀ d ∈ es, d.id ≠ some f.id := fun d hd hid =>
      hes d hd f.id hid (build_numbered hinjective hf).1.issues
    refine ⟨fun d hd => ⟨.of_append_singleton (hother d hd), .of_signatures (by simp)⟩, ?_, ?_⟩
    · rw [hadditions]
      simp [ProviderFunction.revisedBy_cons, hid, ProviderFunction.revisedBy_eq_self hother]
    · rw [hadditions, List.append_assoc, List.singleton_append]

/-- A patch goes through exactly when every entry is admitted by the functions that were there
first. Then these are revised in their places, and the new ones stand behind them. -/
theorem patchFunctions_eq_ok_iff (hinjective : Function.Injective o.suffix)
    (hes : ∀ e ∈ es, ∀ id, e.id = some id → ¬ o.Issues id) (hfs : (fs.map (·.id)).Nodup)
    (hnew : ∀ f ∈ fs, ¬ o.IssuesFrom n f.id) :
    patchFunctions o domain n es fs added = .ok (gs, all) ↔
      (∀ e ∈ es, e.Admitted fs) ∧ gs = fs.map (·.revisedBy es) ++ additions o n es ∧
        all = added ++ additions o n es := by
  induction es generalizing n fs added with
  | nil =>
    simp only [patchFunctions, additions, Except.ok.injEq, Prod.mk.injEq, List.append_nil,
      List.not_mem_nil, false_implies, implies_true, true_and, ProviderFunction.revisedBy_nil,
      List.map_id', eq_comm]
  | cons e es ih =>
    rw [List.forall_mem_cons] at hes
    rw [List.forall_mem_cons, patchFunctions_cons_eq_ok_iff, admitted_iff_step hfs n added]
    have hrest : ∀ {fs' added'}, PatchStep o n e fs added fs' added' →
        (patchFunctions o domain (n + 1) es fs' added' = .ok (gs, all) ↔
          (∀ d ∈ es, d.Admitted fs) ∧
            gs = fs.map (·.revisedBy (e :: es)) ++ additions o n (e :: es) ∧
            all = added ++ additions o n (e :: es)) := by
      intro fs' added' hstep
      obtain ⟨hnodup, hnewer⟩ := hstep.numbered hinjective hfs hnew
      obtain ⟨hadmitted, hfunctions, hadded⟩ := hstep.leaves hinjective hfs hes.2
      rw [ih hes.2 hnodup hnewer, forall₂_congr hadmitted, hfunctions, hadded]
    constructor
    · rintro ⟨fs', added', hstep, h⟩
      obtain ⟨hadmitted, hgs, hall⟩ := (hrest hstep).mp h
      exact ⟨⟨⟨_, _, hstep⟩, hadmitted⟩, hgs, hall⟩
    · rintro ⟨⟨⟨_, _, hstep⟩, hadmitted⟩, hgs, hall⟩
      exact ⟨_, _, hstep, (hrest hstep).mpr ⟨hadmitted, hgs, hall⟩⟩

/-- The new functions are what the entries without identifier describe, in their order. -/
theorem describes_additions (hes : ∀ e ∈ es, e.Admitted fs) :
    List.Forall₂ FunctionEntry.Describes (es.filter (·.id.isNone)) (additions o n es) := by
  induction es generalizing n with
  | nil => exact .nil
  | cons e es ih =>
    rw [List.forall_mem_cons] at hes
    cases he : e.id with
    | some id =>
      rw [List.filter_cons_of_neg (by simp [he]), additions, he]
      exact ih hes.2
    | none =>
      cases hes.1 with
      | change _ hid _ _ => cases he.symm.trans hid
      | addition _ hrole hregistration hkey =>
        obtain ⟨f, hf⟩ := exists_build hrole hregistration hkey
          (fun role => .generate role (o.suffix n))
        rw [List.filter_cons_of_pos (by simp [he]), additions, he, hf]
        exact .cons (build_eq_ok_iff.mp hf).1 (ih hes.2)

end Providers

namespace ProviderDomain

/-- One domain is another one after a patch: what the patch provides is new, its functions are
revised in their places, new ones stand behind them, and the rest is as it was but for the time of
the last change. -/
structure PatchedTo (d : ProviderDomain) (p : DomainPatch) (now : Instant)
    (new : List ProviderFunction) (b : ProviderDomain) : Prop where
  /-- The identifier stays. -/
  id : b.id = d.id
  /-- The text is the given one, if there is one. -/
  info : b.info = p.info.or d.info
  /-- The credential is the given one, if there is one. -/
  credential : b.credential = p.credential.getD d.credential
  /-- Every function has what the last entries for it provide; new ones come after them. -/
  functions : b.functions = d.functions.map (·.revisedBy p.functions) ++ new
  /-- There is a new function for each entry without identifier, in the order of the patch. -/
  described : List.Forall₂ FunctionEntry.Describes (p.functions.filter (·.id.isNone)) new
  /-- No function comes twice. -/
  distinct : b.functionIds.Nodup
  /-- The time of the registration stays. -/
  registeredAt : b.registeredAt = d.registeredAt
  /-- The time of the last change is set. -/
  updatedAt : b.updatedAt = now

/-- The domain that a patch leaves. -/
def patched (d : ProviderDomain) (p : DomainPatch) (o : Occasion) : ProviderDomain :=
  { d with
    info := p.info.or d.info
    credential := p.credential.getD d.credential
    functions := d.functions.map (·.revisedBy p.functions) ++
      Providers.additions o 0 p.functions
    updatedAt := o.now }

end ProviderDomain

namespace Providers

/-- A patch of a domain is admitted. -/
structure AdmitsPatch (p : Providers) (id : DomainId) (patch : DomainPatch) (d : ProviderDomain) :
    Prop where
  /-- The credential, if there is one, is not blank. -/
  credential : ∀ credential, patch.credential = some credential → Text.isBlank credential = false
  /-- The domain is registered. -/
  registered : p.domains.get? id = some d
  /-- Every entry is admitted by the functions of the domain. -/
  entries : ∀ e ∈ patch.functions, e.Admitted d.functions

/-- Nothing is changed but one domain in its place, and its new functions are entered. -/
structure ChangesDomain (p : Providers) (id : DomainId) (b : ProviderDomain)
    (new : List ProviderFunction) (q : Providers) : Prop where
  /-- The domain is registered as it is. -/
  registered : q.get id = .ok b
  /-- The domains are listed in their order, and the others are as they were. -/
  list : q.list = p.list.map (fun d => if d.id = id then b else d)
  /-- Each new function stands for the domain in its role. -/
  entered : ∀ f ∈ new, q.resolve f.id = .ok ⟨id, f.role⟩
  /-- The others stand for what they stood for. -/
  others : ∀ f, f ∉ new.map (·.id) → q.resolve f = p.resolve f

/-- A domain under its identifier is ready for an occasion: no function comes twice, and none has an
identifier of the occasion. -/
def Ready (p : Providers) (id : DomainId) (o : Occasion) : Prop :=
  ∀ d, p.domains.get? id = some d →
    d.functionIds.Nodup ∧ ∀ f ∈ d.functions, ¬ o.Issues f.id

variable {o : Occasion} {p q : Providers} {id : DomainId} {patch : DomainPatch}
  {b d : ProviderDomain}

/-- A patch succeeds exactly when it is admitted. -/
theorem update_eq_ok_iff (hinjective : Function.Injective o.suffix) (hready : p.Ready id o)
    (hes : ∀ e ∈ patch.functions, ∀ f, e.id = some f → ¬ o.Issues f) :
    p.update id patch o = .ok (b, q) ↔
      ∃ d, p.AdmitsPatch id patch d ∧ b = d.patched patch o ∧
        q = ⟨p.domains.insert id b, index p.functions id (additions o 0 patch.functions)⟩ := by
  have hcredential : require (!patch.credential.any Text.isBlank) .blankCredential = .ok () ↔
      ∀ credential, patch.credential = some credential → Text.isBlank credential = false := by
    rw [require_eq_ok_iff]
    cases patch.credential <;> simp
  have hfunctions d (hd : p.domains.get? id = some d) gs all :
      patchFunctions o id 0 patch.functions d.functions [] = .ok (gs, all) ↔
        (∀ e ∈ patch.functions, e.Admitted d.functions) ∧
          gs = d.functions.map (·.revisedBy patch.functions) ++ additions o 0 patch.functions ∧
          all = [] ++ additions o 0 patch.functions :=
    patchFunctions_eq_ok_iff hinjective hes (hready d hd).1 fun f hf hissues =>
      (hready d hd).2 f hf hissues.issues
  constructor
  · intro h
    obtain ⟨hc, h⟩ := Outcome.andThen_eq_ok_iff.mp h
    obtain ⟨d, hd, h⟩ := Outcome.bind_eq_ok_iff.mp h
    obtain ⟨⟨gs, all⟩, hf, h⟩ := Outcome.bind_eq_ok_iff.mp h
    cases h
    have hheld := get_eq_ok_iff.mp hd
    obtain ⟨hentries, rfl, rfl⟩ := (hfunctions d hheld gs all).mp hf
    exact ⟨d, ⟨hcredential.mp hc, hheld, hentries⟩, rfl, rfl⟩
  · rintro ⟨d, ⟨hc, hd, hentries⟩, rfl, rfl⟩
    exact Outcome.andThen_eq_ok_iff.mpr ⟨hcredential.mpr hc, Outcome.bind_eq_ok_iff.mpr
      ⟨d, get_eq_ok_iff.mpr hd, Outcome.bind_eq_ok_iff.mpr
        ⟨_, (hfunctions d hd _ _).mpr ⟨hentries, rfl, rfl⟩, rfl⟩⟩⟩

/-- A domain that is ready is patched to what the patch says. -/
theorem AdmitsPatch.patchedTo (hinjective : Function.Injective o.suffix) (hready : p.Ready id o)
    (hes : ∀ e ∈ patch.functions, ∀ f, e.id = some f → ¬ o.Issues f)
    (hd : p.AdmitsPatch id patch d) :
    d.PatchedTo patch o.now (additions o 0 patch.functions) (d.patched patch o) where
  id := rfl
  info := rfl
  credential := rfl
  functions := rfl
  described := describes_additions hd.entries
  distinct := by
    obtain ⟨hnodup, hissues⟩ := hready d hd.registered
    have hnew : ∀ f ∈ d.functions, ¬ o.IssuesFrom 0 f.id := fun f hf h => hissues f hf h.issues
    have hf : patchFunctions o id 0 patch.functions d.functions [] =
        .ok ((d.patched patch o).functions, [] ++ additions o 0 patch.functions) :=
      (patchFunctions_eq_ok_iff hinjective hes hnodup hnew).mpr ⟨hd.entries, rfl, rfl⟩
    obtain ⟨_, _, _, hids, _⟩ := signatures_of_patchFunctions hinjective hf hnodup hnew
    exact hids
  registeredAt := rfl
  updatedAt := rfl

/-- New functions have identifiers of the occasion. -/
theorem issues_additions (n : Nat) (es : List FunctionEntry) :
    ∀ f ∈ additions o n es, o.Issues f.id := by
  induction es generalizing n with
  | nil => exact fun _ hf => nomatch hf
  | cons e es ih =>
    unfold additions
    split
    · next hbuild => exact List.forall_mem_cons.mpr ⟨id_of_build hbuild, ih (n + 1)⟩
    · exact ih (n + 1)

/-- A domain is put in its place with its new functions. -/
theorem changesDomain_insert (hp : p.Agrees) (hd : p.domains.get? id = some d)
    {new : List ProviderFunction} (hnew : (new.map (·.id)).Nodup) (b : ProviderDomain) :
    p.ChangesDomain id b new ⟨p.domains.insert id b, index p.functions id new⟩ where
  registered := get_eq_ok_iff.mpr (Table.get?_insert_self _ _ _)
  list := by
    rw [list, Table.values, Table.entries_insert_of_get? hd, list, Table.values, List.map_map,
      List.map_map]
    refine List.map_congr_left fun e he => ?_
    have hkeyed : e.2.id = e.1 := hp.keyed e.1 e.2 (Table.get?_eq_some_iff.mpr he)
    simp only [Function.comp_apply, hkeyed]
    split <;> rfl
  entered f hf := resolve_eq_ok_iff.mpr (get?_index_of_mem _ _ hnew hf)
  others f hf := by
    simp only [resolve, get?_index_of_not_mem _ _ hf]

end Providers

namespace Command

variable {c : Core} {id : DomainId} {p : DomainPatch} {o : Occasion}

/-- A patch of a domain takes effect in the registry of providers at once, -/
theorem start_updateProvider_of_ok {b : ProviderDomain} {q : Providers}
    (h : c.providers.update id p o = .ok (b, q)) :
    (updateProvider id p).start o c = .done { c with providers := q } (.ok b) := by
  simp only [start, Core.updateProvider, h]
  rfl

/-- or it fails. -/
theorem start_updateProvider_of_error {f : Failure} (h : c.providers.update id p o = .error f) :
    (updateProvider id p).start o c = .done c (.error f) := by
  simp only [start, Core.updateProvider, h]
  rfl

end Command

namespace System

variable {s : System}

/-- A start that is admitted brings no identifier that was handed out before. -/
theorem Admits.not_issued {t : Ticket} {command : Command} {o : Occasion}
    (h : s.Admits (.start t command o)) {f : FunctionId} (hf : s.Issued f) : ¬ o.Issues f := by
  rintro ⟨role, n, rfl⟩
  obtain ⟨k, j, hj, role', n', hid⟩ := hf
  exact (h o rfl).2 k j hj n' n (FunctionId.generate_injective hid).symm

/-- So every domain is ready for it. -/
theorem Registered.ready (hs : s.Registered) {t : Ticket} {command : Command} {o : Occasion}
    (h : s.Admits (.start t command o)) (id : DomainId) : s.core.providers.Ready id o := by
  refine fun d hd => ⟨hs.agrees.distinct hd, fun f hf => h.not_issued (hs.functions f.id ?_)⟩
  rw [hs.agrees.get?_of_mem hd hf]
  exact Option.some_ne_none _

/-- Patches of domains are exact. In every state that fresh identifiers lead to, a patch succeeds
exactly when it is admitted, and it changes nothing when it fails. When it succeeds, the domain that
was registered has exactly what the patch provides, function by function, and a new function under a
new identifier for each entry without one. It keeps its place, and nothing else is changed. -/
theorem domain_patch_exact (hs : fresh.Precedes s) {t : Ticket} {id : DomainId} {p : DomainPatch}
    {o : Occasion} (hfresh : s.Admits (.start t (.updateProvider id p) o))
    (hforeign : ∀ e ∈ p.functions, ∀ f, e.id = some f → ¬ o.Issues f) :
    ((∃ b after, (Command.updateProvider id p).start o s.core = .done after (.ok b)) ↔
      ∃ d, s.core.providers.AdmitsPatch id p d) ∧
    ((¬ ∃ d, s.core.providers.AdmitsPatch id p d) →
      ∃ f, (Command.updateProvider id p).start o s.core = .done s.core (.error f)) ∧
    ∀ b after, (Command.updateProvider id p).start o s.core = .done after (.ok b) →
      ∃ d new, s.core.providers.domains.get? id = some d ∧ d.PatchedTo p o.now new b ∧
        (∀ f ∈ new, ¬ s.Issued f.id) ∧
        s.core.providers.ChangesDomain id b new after.providers ∧
        after = { s.core with providers := after.providers } := by
  have hregistered := hs.registered .fresh orderly_fresh registered_fresh
  have hready := hregistered.ready hfresh id
  have hinjective : Function.Injective o.suffix := (hfresh o rfl).1
  cases hupdate : s.core.providers.update id p o with
  | error f =>
    have hstart := Command.start_updateProvider_of_error hupdate
    have hnot : ¬ ∃ d, s.core.providers.AdmitsPatch id p d := by
      rintro ⟨d, hd⟩
      have hok := (Providers.update_eq_ok_iff hinjective hready hforeign).mpr ⟨d, hd, rfl, rfl⟩
      cases hupdate.symm.trans hok
    rw [hstart]
    exact ⟨⟨fun ⟨_, _, h⟩ => (nomatch h), fun h => absurd h hnot⟩, fun _ => ⟨f, rfl⟩,
      fun _ _ h => nomatch h⟩
  | ok r =>
    obtain ⟨b, q⟩ := r
    have hstart := Command.start_updateProvider_of_ok hupdate
    obtain ⟨d, hd, rfl, rfl⟩ :=
      (Providers.update_eq_ok_iff hinjective hready hforeign).mp hupdate
    have hpatched := hd.patchedTo hinjective hready hforeign
    have hissued := Providers.issues_additions (o := o) 0 p.functions
    have hnew : ((Providers.additions o 0 p.functions).map (·.id)).Nodup := by
      have hdistinct := hpatched.distinct
      rw [ProviderDomain.functionIds, hpatched.functions, List.map_append] at hdistinct
      exact hdistinct.of_append_right
    rw [hstart]
    refine ⟨⟨fun _ => ⟨d, hd⟩, fun _ => ⟨_, _, rfl⟩⟩, fun hnot => absurd ⟨d, hd⟩ hnot, ?_⟩
    rintro _ _ ⟨⟩
    exact ⟨d, _, hd.registered, hpatched, fun f hf hheld => hfresh.not_issued hheld (hissued f hf),
      Providers.changesDomain_insert hregistered.agrees hd.registered hnew _, rfl⟩

/-- A patch of the sample domain that changes its publisher twice and adds an exposer in between. -/
def sampleRevision : DomainPatch where
  functions := [
    { id := some samplePublisher, info := some "old"
      registration := some { publicKey := "next" } },
    { role := some .exposer, info := some "more", registration := some { publicKey := "key" } },
    { id := some samplePublisher, info := some "new" }]

/-- A patch that changes the publisher and then its role. -/
def strayRevision : DomainPatch where
  functions := [
    { id := some samplePublisher, info := some "old" },
    { id := some samplePublisher, role := some .exposer }]

/-- Both patches are for the publisher, which an earlier command brought in. -/
theorem not_issues_samplePublisher : ¬ (Occasion.lettered 'c' default).Issues samplePublisher := by
  rintro ⟨role, n, h⟩
  have hsuffix : (Occasion.lettered 'a' default).suffix 1 =
      (Occasion.lettered 'c' default).suffix n := FunctionId.generate_injective h
  exact Occasion.lettered_apart (by decide) default default 1 n hsuffix

/-- The publisher of the sample domain gets the text of the last entry and the key of the first, and
the new exposer comes last. The change of its role is refused. -/
theorem domain_patch_exact_sample :
    ∃ (s : System) (b : ProviderDomain) (after : Core), fresh.Precedes s ∧
      s.Admits (.start 2 (.updateProvider (.generate "a") sampleRevision) (.lettered 'c' default)) ∧
      s.Admits (.start 2 (.updateProvider (.generate "a") strayRevision) (.lettered 'c' default)) ∧
      (Command.updateProvider (.generate "a") sampleRevision).start (.lettered 'c' default) s.core =
        .done after (.ok b) ∧
      b.functions = [⟨samplePublisher, .publisher, some "new", { publicKey := "next" }⟩,
        ⟨.generate .exposer "aaa", .exposer, none, { publicKey := "key" }⟩,
        ⟨.generate .exposer "cc", .exposer, some "more", { publicKey := "key" }⟩] ∧
      (∃ d new, s.core.providers.domains.get? (.generate "a") = some d ∧
        d.PatchedTo sampleRevision default new b ∧
        s.core.providers.ChangesDomain (.generate "a") b new after.providers) ∧
      ∃ f, (Command.updateProvider (.generate "a") strayRevision).start (.lettered 'c' default)
        s.core = .done s.core (.error f) := by
  have hf (command : Command) :
      FreshIds (sampleSchedule ++ [.start 2 command (.lettered 'c' default)]) :=
    .of_letters ['a', 'b', 'c'] (by decide) rfl
  have hrun : (fresh.run sampleSchedule).map (fun s =>
      ((s.core.providers.update (.generate "a") sampleRevision (.lettered 'c' default)).map
          (·.1.functions),
        (s.core.providers.update (.generate "a") strayRevision (.lettered 'c' default)).isOk)) =
      some (.ok [⟨samplePublisher, .publisher, some "new", { publicKey := "next" }⟩,
        ⟨.generate .exposer "aaa", .exposer, none, { publicKey := "key" }⟩,
        ⟨.generate .exposer "cc", .exposer, some "more", { publicKey := "key" }⟩], false) := rfl
  obtain ⟨s, hs, hresults⟩ := Option.map_eq_some_iff.mp hrun
  obtain ⟨hrevised, hstray⟩ := Prod.mk.inj hresults
  have hstart : fresh.Precedes s := precedes_of_fresh_run freshIds_sampleSchedule hs
  have hadmits := admits_of_freshIds (hf (.updateProvider (.generate "a") sampleRevision)) hs
  have hadmitsStray := admits_of_freshIds (hf (.updateProvider (.generate "a") strayRevision)) hs
  have hforeign (p : DomainPatch)
      (hp : ∀ e ∈ p.functions, e.id = none ∨ e.id = some samplePublisher) :
      ∀ e ∈ p.functions, ∀ f, e.id = some f → ¬ (Occasion.lettered 'c' default).Issues f := by
    intro e he f hid
    rcases hp e he with hnone | hpublisher
    · cases hnone.symm.trans hid
    · obtain rfl := Option.some.inj (hpublisher.symm.trans hid)
      exact not_issues_samplePublisher
  obtain ⟨_, _, hexact⟩ := domain_patch_exact hstart hadmits (hforeign _ (by decide))
  obtain ⟨hiff, hrefused, _⟩ := domain_patch_exact hstart hadmitsStray (hforeign _ (by decide))
  cases hupdate : s.core.providers.update (.generate "a") sampleRevision
      (.lettered 'c' default) with
  | error f =>
    rw [hupdate] at hrevised
    cases hrevised
  | ok r =>
    rw [hupdate] at hrevised
    have hdone := Command.start_updateProvider_of_ok hupdate
    obtain ⟨d, new, hd, hpatched, -, hchanges, -⟩ := hexact _ _ hdone
    refine ⟨s, r.1, _, hstart, hadmits, hadmitsStray, hdone, Except.ok.inj hrevised,
      ⟨d, new, hd, hpatched, hchanges⟩, hrefused fun hadmitted => ?_⟩
    obtain ⟨b, after, hok⟩ := hiff.mpr hadmitted
    cases hstray' : s.core.providers.update (.generate "a") strayRevision
        (.lettered 'c' default) with
    | error f => cases (Command.start_updateProvider_of_error hstray').symm.trans hok
    | ok r =>
      rw [hstray'] at hstray
      cases hstray

end System

end ApiExposure
