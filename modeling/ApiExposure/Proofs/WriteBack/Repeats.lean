import ApiExposure.Proofs.Invokers.Grants
import ApiExposure.Proofs.Providers.Listing
import ApiExposure.Proofs.Publications.Store
import ApiExposure.Proofs.Registry.Table
import ApiExposure.Proofs.WriteBack.Forms

/-!
# Patches that repeat what is held

A registry checks a patch although it repeats what it holds, and the patch passes because what is
held is in order: a repeated name is not another name, the profiles are those of live exposers,
every function is found under its identifier with its role, and keys, credential and destination
passed the same checks before. Then each field is replaced by itself, and only the time of the
last change differs.
-/

namespace ApiExposure

namespace Core

/-- The core with the time of the last change of an API set. -/
def touchApi (c : Core) (id : ApiId) (now : Instant) : Core :=
  { c with
    store := { c.store with
      apis := c.store.apis.modify id (fun a => { a with updatedAt := now }) } }

/-- The core with the time of the last change of a domain set. -/
def touchProvider (c : Core) (id : DomainId) (now : Instant) : Core :=
  { c with
    providers := { c.providers with
      domains := c.providers.domains.modify id (fun d => { d with updatedAt := now }) } }

/-- The core with the time of the last change of an invoker set. -/
def touchInvoker (c : Core) (id : InvokerId) (now : Instant) : Core :=
  { c with invokers := ⟨c.invokers.table.modify id (fun i => { i with updatedAt := now })⟩ }

end Core

namespace PublishedApi

variable {a : PublishedApi}

/-- The patch that repeats a sound API is sound. -/
theorem validate_asPatch (h : a.description.Sound) : a.asPatch.validate = .ok () := by
  have hprofiles := ApiDescription.checkProfiles_eq_ok_iff.mpr h.profiles
  have hversions := ApiDescription.checkVersions_nil_eq_ok_iff.mpr h.versions
  have hname : require (!a.asPatch.name.any Text.isBlank) .blankApiName = .ok () :=
    require_eq_ok_iff.mpr (by simp [asPatch, name, h.named])
  exact Outcome.andThen_eq_ok_iff.mpr
    ⟨hname, Outcome.andThen_eq_ok_iff.mpr ⟨hprofiles, hversions⟩⟩

/-- The patch that repeats an API does not rename it. -/
theorem checkRename_asPatch (a : PublishedApi) : a.checkRename a.asPatch = .ok () :=
  require_eq_ok_iff.mpr (by simp)

/-- The patch that repeats an API changes the time of the update only. -/
theorem apply_asPatch (a : PublishedApi) (now : Instant) :
    a.apply a.asPatch now = { a with updatedAt := now } := by
  simp only [apply, asPatch, Option.or_self, Option.getD_some]

end PublishedApi

/-- A patch that repeats an API in order changes the time and nothing else. -/
theorem Publications.updateFor_asPatch {s : Publications} {p : Providers} {id : ApiId}
    {publisher : FunctionId} {a : PublishedApi} (now : Instant)
    (ha : s.getFor publisher id = .ok a) (hstored : a.StoredAs id)
    (hexposers : ∀ e ∈ a.description.exposers, p.roleOf e = some .exposer) :
    s.updateFor p publisher id a.asPatch now = .ok ({ a with updatedAt := now },
      { s with apis := s.apis.modify id (fun a => { a with updatedAt := now }) }) := by
  obtain rfl := hstored.own
  have hreplace : s.replace { a with updatedAt := now } =
      { s with apis := s.apis.modify a.id (fun a => { a with updatedAt := now }) } := by
    rw [replace, ← Table.insert_eq_modify (getFor_eq_ok_iff.mp ha).1]
  refine Outcome.andThen_eq_ok_iff.mpr ⟨PublishedApi.validate_asPatch hstored.sound,
    Outcome.bind_eq_ok_iff.mpr ⟨a, ha, Outcome.andThen_eq_ok_iff.mpr ⟨a.checkRename_asPatch,
      Outcome.andThen_eq_ok_iff.mpr ⟨Providers.requireExposers_eq_ok_iff.mpr hexposers, ?_⟩⟩⟩⟩
  dsimp only
  rw [PublishedApi.apply_asPatch, hreplace]

namespace Providers

variable {fs : List ProviderFunction}

/-- The entry that repeats a function with a key is admitted. -/
theorem checkChange_asEntry {f : ProviderFunction}
    (hf : Text.isBlank f.registration.publicKey = false) :
    checkChange f f.asEntry = .ok () := by
  have hkey : f.registration.validate = .ok () := require_eq_ok_iff.mpr (by simp [hf])
  simp only [checkChange, ProviderFunction.asEntry, Outcome.andThen_eq_ok_iff, require_eq_ok_iff]
  exact ⟨by simp, hkey⟩

/-- The entry that repeats a function leaves it as it is. -/
theorem changeFunction_asEntry (f : ProviderFunction) : changeFunction f f.asEntry = f := by
  simp only [changeFunction, ProviderFunction.asEntry, Option.or_self, Option.getD_some]

/-- Replacing a function by itself changes nothing in a list that has no identifier twice. -/
theorem replaceFunction_self {f : ProviderFunction} (hfs : (fs.map (·.id)).Nodup) (hf : f ∈ fs) :
    replaceFunction f fs = fs := by
  rw [replaceFunction_eq_map hfs]
  refine (List.map_congr_left fun g hg => ?_).trans (List.map_id fs)
  split
  · next hid => exact (List.inj_on_of_nodup_map hfs hg hf hid).symm
  · rfl

/-- Entries that repeat functions of a domain go through without a change. -/
theorem patchFunctions_asEntry (o : Occasion) (domain : DomainId)
    (hfs : (fs.map (·.id)).Nodup)
    (hkeys : ∀ f ∈ fs, Text.isBlank f.registration.publicKey = false)
    {gs : List ProviderFunction} (hgs : gs ⊆ fs) (n : Nat) :
    patchFunctions o domain n (gs.map (·.asEntry)) fs [] = .ok (fs, []) := by
  induction gs generalizing n with
  | nil => rfl
  | cons g gs ih =>
    rw [List.cons_subset] at hgs
    have hstep : PatchStep o n g.asEntry fs []
        (replaceFunction (changeFunction g g.asEntry) fs) [] :=
      .change (find?_id_of_mem hfs hgs.1) rfl (checkChange_asEntry (hkeys g hgs.1))
    rw [changeFunction_asEntry, replaceFunction_self hfs hgs.1] at hstep
    exact patchFunctions_cons_eq_ok_iff.mpr ⟨fs, [], hstep, ih hgs.2 (n + 1)⟩

end Providers

/-- Neither the credential of a domain nor a key of a function is blank. -/
structure ProviderDomain.Keyed (d : ProviderDomain) : Prop where
  /-- The credential is not blank. -/
  credential : Text.isBlank d.credential = false
  /-- No key is blank. -/
  functions : ∀ f ∈ d.functions, Text.isBlank f.registration.publicKey = false

/-- A patch that repeats a domain in order changes the time and nothing else. -/
theorem Providers.update_asPatch {p : Providers} {id : DomainId} {d : ProviderDomain}
    (o : Occasion) (hd : p.get id = .ok d) (hdistinct : d.functionIds.Nodup) (hkeyed : d.Keyed) :
    p.update id d.asPatch o = .ok ({ d with updatedAt := o.now },
      { p with domains := p.domains.modify id (fun d => { d with updatedAt := o.now }) }) := by
  have hcredential : require (!d.asPatch.credential.any Text.isBlank) .blankCredential = .ok () :=
    require_eq_ok_iff.mpr (by simp [ProviderDomain.asPatch, hkeyed.credential])
  have hfunctions : patchFunctions o id 0 d.asPatch.functions d.functions [] =
      .ok (d.functions, []) :=
    patchFunctions_asEntry o id hdistinct hkeyed.functions (List.Subset.refl _) 0
  refine Outcome.andThen_eq_ok_iff.mpr ⟨hcredential, Outcome.bind_eq_ok_iff.mpr ⟨d, hd,
    Outcome.bind_eq_ok_iff.mpr ⟨_, hfunctions, ?_⟩⟩⟩
  simp only [ProviderDomain.asPatch, Option.or_self, Option.getD_some]
  rw [← Table.insert_eq_modify (get_eq_ok_iff.mp hd)]
  rfl

/-- The key of an invoker is not blank, and its destination is a URL if it has one. -/
structure InvokerIdentity.Checked (i : InvokerIdentity) : Prop where
  /-- The key is not blank. -/
  key : Text.isBlank i.onboarding.publicKey = false
  /-- The destination is a URL. -/
  destination : requireUrlIfAny i.destination = .ok ()

/-- A patch that repeats an invoker in order changes the time and nothing else. -/
theorem Invokers.update_asPatch {r : Invokers} {id : InvokerId} {i : InvokerIdentity}
    (now : Instant) (hi : r.get id = .ok i) (hchecked : i.Checked) :
    r.update id i.asPatch now = .ok ({ i with updatedAt := now },
      ⟨r.table.modify id (fun i => { i with updatedAt := now })⟩) := by
  have hvalidate : i.asPatch.validate = .ok () := by
    have hkey : i.onboarding.validate = .ok () := require_eq_ok_iff.mpr (by simp [hchecked.key])
    exact Outcome.andThen_eq_ok_iff.mpr ⟨hkey, hchecked.destination⟩
  have happly : i.apply i.asPatch now = { i with updatedAt := now } := by
    simp only [InvokerIdentity.apply, InvokerIdentity.asPatch, Option.or_self, Option.getD_some]
  refine Outcome.andThen_eq_ok_iff.mpr ⟨hvalidate, Outcome.bind_eq_ok_iff.mpr ⟨i, hi, ?_⟩⟩
  rw [happly, ← Table.insert_eq_modify (get_eq_ok_iff.mp hi)]

end ApiExposure
