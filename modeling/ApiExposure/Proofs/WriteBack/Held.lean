import ApiExposure.Proofs.Providers.Lifetime
import ApiExposure.Proofs.WriteBack.Repeats

/-!
# What the registries hold of what they were given

Three things are true of all that the registries hold because every way in was checked. Profiles
and versions of an API were read from a text, in the description or in a patch, so they can be
written and read again; a cascade takes profiles out and changes none. No credential and no key
of a domain is blank, and neither is the key of an invoker, whose destination is a URL.
-/

namespace ApiExposure

open Record
open Decoder (reads_of_ofText)

variable {o : Occasion} {command : Command} {c d : Core} {r : Outcome command.Result}

/-- Reads a description from a text whose locations have no doubles. -/
def ApiDescription.Decoded (d : ApiDescription) : Prop :=
  (∃ text, Decoder.ofText decode text = .ok d) ∧
    ∀ p ∈ d.profiles, ∀ l ∈ p.location, l.Integral

/-- Reads a patch from such a text. -/
def ApiPatch.Decoded (q : ApiPatch) : Prop :=
  (∃ text, Decoder.ofText decode text = .ok q) ∧
    ∀ ps ∈ q.profiles, ∀ p ∈ ps, ∀ l ∈ p.location, l.Integral

/-- What a command says of an API was decoded. The other commands are made of texts and choices
only, so nothing is asked of them. -/
def Command.Decoded : Command → Prop
  | publish _ d => d.Decoded
  | updateApi _ _ q => q.Decoded
  | _ => True

/-- A profile was read from a text and has no doubles. -/
structure Profile.Read (p : Profile) : Prop where
  /-- It was read in the list of an object. -/
  reads : Profile.decode.Reads (Json.deepest - 2) p
  /-- It has no doubles. -/
  integral : ∀ l ∈ p.location, l.Integral

/-- A version was read from a text. -/
def ApiVersion.Read (v : ApiVersion) : Prop := ApiVersion.decode.Reads (Json.deepest - 2) v

/-- Profiles and versions of an API were read. -/
structure PublishedApi.Read (a : PublishedApi) : Prop where
  /-- The profiles were. -/
  profiles : ∀ p ∈ a.description.profiles, p.Read
  /-- The versions were. -/
  versions : ∀ v ∈ a.description.versions, v.Read

/-- What a description is read from also yields its profiles and versions, one level down. -/
theorem ApiDescription.yields : Yields ApiDescription.record fun n d =>
    (∀ p ∈ d.profiles, Profile.decode.Reads (n - 1) p) ∧
      ∀ v ∈ d.versions, ApiVersion.decode.Reads (n - 1) v :=
  (Yields.pure fun _ _ _ _ _ _ hprofiles _ hversions _ _ _ _ _ _ _ _ => ⟨hprofiles, hversions⟩)
    |>.seq yields_any
    |>.seq yields_any
    |>.seq yields_list
    |>.seq yields_list
    |>.seq yields_any
    |>.seq yields_any
    |>.seq yields_any
    |>.seq yields_any

/-- What a patch of an API is read from also yields the profiles and versions that it brings. -/
theorem ApiPatch.yields : Yields ApiPatch.record fun n q =>
    (∀ ps ∈ q.profiles, ∀ p ∈ ps, Profile.decode.Reads (n - 1) p) ∧
      ∀ vs ∈ q.versions, ∀ v ∈ vs, ApiVersion.decode.Reads (n - 1) v :=
  (Yields.pure fun _ _ _ _ _ _ hprofiles _ hversions _ _ _ _ _ _ _ _ => ⟨hprofiles, hversions⟩)
    |>.seq yields_any
    |>.seq yields_any
    |>.seq yields_optionalList
    |>.seq yields_optionalList
    |>.seq yields_any
    |>.seq yields_any
    |>.seq yields_any
    |>.seq yields_any

namespace PublishedApi

variable {a : PublishedApi}

/-- A published description brings lists that were read. -/
theorem read_of_description (h : a.description.Decoded) : a.Read := by
  obtain ⟨⟨text, htext⟩, hintegral⟩ := h
  obtain ⟨hprofiles, hversions⟩ := ApiDescription.yields.of_decode (reads_of_ofText htext)
  exact ⟨fun p hp => ⟨hprofiles p hp, hintegral p hp⟩, hversions⟩

/-- A patch brings such lists or leaves those that are there. -/
theorem Read.apply (ha : a.Read) {q : ApiPatch} (hq : q.Decoded) (now : Instant) :
    (a.apply q now).Read := by
  obtain ⟨⟨text, htext⟩, hintegral⟩ := hq
  obtain ⟨hprofiles, hversions⟩ := ApiPatch.yields.of_decode (reads_of_ofText htext)
  constructor
  · change ∀ p ∈ q.profiles.getD a.description.profiles, p.Read
    cases h : q.profiles with
    | none => exact ha.profiles
    | some ps => exact fun p hp => ⟨hprofiles ps h p hp, hintegral ps h p hp⟩
  · change ∀ v ∈ q.versions.getD a.description.versions, v.Read
    cases h : q.versions with
    | none => exact ha.versions
    | some vs => exact hversions vs h

/-- A cascade takes profiles out. -/
theorem Read.survivor {b : PublishedApi} {removed : List FunctionId} {now : Instant}
    (ha : a.Read) (h : a.survivor removed now = some b) : b.Read := by
  obtain ⟨_, _, rfl⟩ := survivor_eq_some_iff.mp h
  exact ⟨fun p hp => ha.profiles p (List.mem_of_mem_filter hp), ha.versions⟩

/-- Lists that were read keep in the form of the API. -/
theorem Read.listsKeep (ha : a.Read) : a.ListsKeep (Json.deepest - 2) where
  profiles := fun p hp =>
    let ⟨_, hfits, hread⟩ := (ha.profiles p hp).reads
    (@Profile.faithful 0).keeps (by decide) hfits hread
  versions := fun v hv =>
    let ⟨_, hfits, hread⟩ := ha.versions v hv
    (@ApiVersion.faithful 0).keeps (by decide) hfits hread

end PublishedApi

/-- What decoded commands leave in the store was read. -/
theorem Effect.read (h : Effect o command c r d) (hcommand : command.Decoded)
    (hs : c.store.WellFormed) (hc : c.store.apis.All PublishedApi.Read) :
    d.store.apis.All PublishedApi.Read := by
  cases h with
  | removed h =>
    intro id b hb
    dsimp only at hb
    rw [hs.get?_invalidate] at hb
    obtain ⟨a, ha, hsurvivor⟩ := Option.bind_eq_some_iff.mp hb
    exact (hc id a ha).survivor hsurvivor
  | published h =>
    obtain ⟨_, _, rfl, rfl⟩ := Publications.publishAs_eq_ok_iff.mp h
    refine hc.insert (PublishedApi.read_of_description ?_) _
    exact hcommand
  | patched h =>
    obtain ⟨a, ha, _, _, _, rfl, rfl⟩ := Publications.of_updateFor_eq_ok h
    exact hc.insert ((hc _ a ha).apply hcommand _) _
  | withdrawn h =>
    dsimp only
    rw [(Publications.of_unpublish_eq_ok h).2]
    exact hc.erase _
  | _ => exact hc

namespace Providers

/-- A new function has a key. -/
theorem key_of_build {e : FunctionEntry} {f : ProviderFunction} {id : Role → FunctionId}
    (h : e.build id = .ok f) : Text.isBlank f.registration.publicKey = false := by
  obtain ⟨⟨role, registration⟩, hnew, hf⟩ := Outcome.bind_eq_ok_iff.mp h
  cases hf
  exact (FunctionEntry.newFunction_eq_ok_iff.mp hnew).2.2

/-- Functions that were built for a registration have keys. -/
theorem keys_of_buildFunctions {n : Nat} {es : List FunctionEntry} {fs : List ProviderFunction}
    (h : buildFunctions o n es = .ok fs) :
    ∀ f ∈ fs, Text.isBlank f.registration.publicKey = false := by
  induction es generalizing n fs with
  | nil =>
    cases h
    exact List.forall_mem_nil _
  | cons e es ih =>
    obtain ⟨f, hf, h⟩ := Outcome.bind_eq_ok_iff.mp h
    obtain ⟨gs, hgs, h⟩ := Outcome.bind_eq_ok_iff.mp h
    cases h
    exact List.forall_mem_cons.mpr ⟨key_of_build hf, ih hgs⟩

/-- A function that is changed has one, for a new key is checked. -/
theorem key_of_checkChange {f : ProviderFunction} {e : FunctionEntry}
    (hf : Text.isBlank f.registration.publicKey = false) (h : checkChange f e = .ok ()) :
    Text.isBlank (changeFunction f e).registration.publicKey = false := by
  change Text.isBlank (e.registration.getD f.registration).publicKey = false
  cases hregistration : e.registration with
  | none => exact hf
  | some registration =>
    have hkey : registration.validate = .ok () := by
      rw [checkChange, hregistration] at h
      split at h
      · exact (Outcome.andThen_eq_ok_iff.mp h).2
      · exact h
    simpa using require_eq_ok_iff.mp hkey

/-- A patch leaves functions with keys if there were only such: an entry may not blank a key. -/
theorem keys_of_patchFunctions {domain : DomainId} {n : Nat} {es : List FunctionEntry}
    {functions added functions' added' : List ProviderFunction}
    (h : patchFunctions o domain n es functions added = .ok (functions', added'))
    (hkeys : ∀ f ∈ functions, Text.isBlank f.registration.publicKey = false) :
    ∀ f ∈ functions', Text.isBlank f.registration.publicKey = false := by
  induction es generalizing n functions added with
  | nil =>
    cases h
    exact hkeys
  | cons e es ih =>
    obtain ⟨_, _, hstep, h⟩ := patchFunctions_cons_eq_ok_iff.mp h
    refine ih h ?_
    cases hstep with
    | change hfind _ hcheck =>
      intro g hg
      rcases eq_or_mem_of_mem_replaceFunction hg with rfl | hg
      · exact key_of_checkChange (hkeys _ (List.mem_of_find?_eq_some hfind)) hcheck
      · exact hkeys g hg
    | addition _ hf =>
      refine List.forall_mem_append.mpr ⟨hkeys, ?_⟩
      exact List.forall_mem_singleton.mpr (key_of_build hf)

end Providers

/-- No credential and no key of a domain gets blank. -/
theorem Effect.keyed (h : Effect o command c r d)
    (hc : c.providers.domains.All ProviderDomain.Keyed) :
    d.providers.domains.All ProviderDomain.Keyed := by
  cases h with
  | registered h =>
    obtain ⟨hvalid, h⟩ := Outcome.andThen_eq_ok_iff.mp h
    obtain ⟨functions, hfunctions, h⟩ := Outcome.bind_eq_ok_iff.mp h
    cases h
    have hcredential := require_eq_ok_iff.mp (Outcome.andThen_eq_ok_iff.mp hvalid).1
    exact hc.insert ⟨by simpa using hcredential, Providers.keys_of_buildFunctions hfunctions⟩ _
  | @updated c id p domain providers h =>
    obtain ⟨hcredential, h⟩ := Outcome.andThen_eq_ok_iff.mp h
    obtain ⟨held, hheld, h⟩ := Outcome.bind_eq_ok_iff.mp h
    obtain ⟨⟨functions, added⟩, hfunctions, h⟩ := Outcome.bind_eq_ok_iff.mp h
    cases h
    have hkeyed : held.Keyed := hc _ held (Providers.get_eq_ok_iff.mp hheld)
    refine hc.insert ⟨?_, Providers.keys_of_patchFunctions hfunctions hkeyed.functions⟩ _
    cases hpatch : p.credential with
    | none => exact hkeyed.credential
    | some credential => simpa [hpatch] using require_eq_ok_iff.mp hcredential
  | removed h =>
    obtain ⟨_, _, _, hdomains⟩ := Providers.of_deregister_eq_ok h
    dsimp only
    rw [hdomains]
    exact hc.erase _
  | _ => exact hc

namespace InvokerIdentity

variable {i : InvokerIdentity}

/-- Grants have no part in the checks. -/
theorem Checked.of_eq {j : InvokerIdentity} (hi : i.Checked)
    (honboarding : j.onboarding = i.onboarding) (hdestination : j.destination = i.destination) :
    j.Checked :=
  ⟨honboarding ▸ hi.key, hdestination ▸ hi.destination⟩

/-- A patch that passed its checks brings what passes them. -/
theorem Checked.apply (hi : i.Checked) {p : InvokerPatch} (hp : p.validate = .ok ())
    (now : Instant) : (i.apply p now).Checked := by
  have hvalid : (∀ b ∈ p.onboarding, b.validate = .ok ()) ∧
      requireUrlIfAny p.destination = .ok () := by
    rw [InvokerPatch.validate] at hp
    cases honboarding : p.onboarding with
    | none =>
      rw [honboarding] at hp
      exact ⟨nofun, hp⟩
    | some b =>
      rw [honboarding] at hp
      obtain ⟨hb, hdestination⟩ := Outcome.andThen_eq_ok_iff.mp hp
      exact ⟨fun _ h => Option.some.inj h ▸ hb, hdestination⟩
  constructor
  · change Text.isBlank (p.onboarding.getD i.onboarding).publicKey = false
    cases honboarding : p.onboarding with
    | none => exact hi.key
    | some b => simpa using require_eq_ok_iff.mp (hvalid.1 b honboarding)
  · change requireUrlIfAny (p.destination.or i.destination) = .ok ()
    cases hdestination : p.destination with
    | none => exact hi.destination
    | some destination =>
      rw [← hdestination, hdestination, Option.some_or, ← hdestination]
      exact hvalid.2

end InvokerIdentity

/-- Keys and destinations of invokers keep passing the checks. -/
theorem Effect.checked (h : Effect o command c r d)
    (hc : c.invokers.table.All InvokerIdentity.Checked) :
    d.invokers.table.All InvokerIdentity.Checked := by
  cases h with
  | @onboarded c e identity invokers credentials h =>
    have hvalid : e.validate = .ok () := (Outcome.andThen_eq_ok_iff.mp h).1
    obtain ⟨hkey, hdestination⟩ := Outcome.andThen_eq_ok_iff.mp hvalid
    obtain ⟨_, rfl, rfl⟩ := Invokers.of_onboardAs_eq_ok h
    refine hc.insert ?_ _
    rw [InvokerIdentity.foldl_addGrant_eq]
    exact ⟨by simpa [InvokerIdentity.ofEnrolment] using require_eq_ok_iff.mp hkey, hdestination⟩
  | @invokerUpdated c id p identity invokers h =>
    have hvalid : p.validate = .ok () := (Outcome.andThen_eq_ok_iff.mp h).1
    obtain ⟨held, hheld, rfl, rfl⟩ := Invokers.of_update_eq_ok h
    exact hc.insert ((hc _ held hheld).apply hvalid _) _
  | offboarded h =>
    obtain ⟨_, rfl⟩ := Invokers.of_deregister_eq_ok h
    exact hc.erase _
  | granted _ _ _ h =>
    obtain ⟨held, hheld, _, rfl⟩ := Invokers.of_grant_eq_ok h
    refine hc.insert ?_ _
    rw [InvokerIdentity.addGrant_eq]
    exact (hc _ held hheld).of_eq rfl rfl
  | grantRemoved h =>
    obtain ⟨held, hheld, rfl⟩ := Invokers.of_removeGrant_eq_ok h
    refine hc.insert ?_ _
    exact (hc _ held hheld).of_eq rfl rfl
  | _ => exact hc

/-- The command of a start. -/
def Move.command? : Move → Option Command
  | start _ command _ => some command
  | resume _ _ => none

/-- All that the registries hold is in order. -/
structure Core.InOrder (c : Core) : Prop where
  /-- Lists of APIs were read. -/
  apis : c.store.apis.All PublishedApi.Read
  /-- Domains have credentials and keys. -/
  domains : c.providers.domains.All ProviderDomain.Keyed
  /-- Invokers have keys and destinations. -/
  invokers : c.invokers.table.All InvokerIdentity.Checked

theorem Core.inOrder_fresh : Core.fresh.InOrder :=
  ⟨Table.all_empty, Table.all_empty, Table.all_empty⟩

namespace System

/-- What decoded commands lead to is in order. -/
theorem inOrder_run {ms : List Move} {s : System} (h : fresh.run ms = some s)
    (hms : ∀ command ∈ ms.filterMap Move.command?, command.Decoded) : s.core.InOrder := by
  have hboth : s.core.store.WellFormed ∧ s.core.InOrder := by
    refine core_induction_of_starts (P := fun c => c.store.WellFormed ∧ c.InOrder)
      ⟨Publications.wellFormed_empty, Core.inOrder_fresh⟩ h fun hstart hc he => ?_
    obtain ⟨hwell, hc⟩ := hc
    have hcommand := hms _ (List.mem_filterMap.mpr ⟨_, hstart, rfl⟩)
    exact ⟨he.wellFormed hwell, he.read hcommand hwell hc.apis, he.keyed hc.domains,
      he.checked hc.invokers⟩
  exact hboth.2

end System

end ApiExposure
