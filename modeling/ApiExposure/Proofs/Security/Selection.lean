import ApiExposure.Proofs.Invokers.Offboarding

/-!
# What stored contexts say

A context is stored with a method selected in every entry, and a bulk revocation
keeps entries as they are or takes them out, and the context with the last of
them. So every stored context is as it was negotiated. That its invoker is
onboarded is checked by the creation only; a replacement relies on the context
that is there, and an offboarding takes the context along.
-/

namespace ApiExposure

/-- The method that preferences settle on among those on offer. -/
inductive SecurityMethod.Chosen (offered preferences : List SecurityMethod) (m : SecurityMethod) :
    Prop
  /-- The first preference on offer. -/
  | preferred {before after : List SecurityMethod} (h : preferences = before ++ m :: after)
      (hoffered : m ∈ offered) (hfirst : ∀ p ∈ before, p ∉ offered)
  /-- The first method on offer, when no preference is. -/
  | first {rest : List SecurityMethod} (h : offered = m :: rest)
      (hnone : ∀ p ∈ preferences, p ∉ offered)

/-- The method that an entry with preferences settles on at an interface. -/
inductive InterfaceDescription.Picks (i : InterfaceDescription) (preferences : List SecurityMethod)
    (m : SecurityMethod) : Prop
  /-- The first preference that the interface lists. -/
  | preferred {before after : List SecurityMethod} (h : preferences = before ++ m :: after)
      (hlisted : m ∈ i.securityMethods) (hfirst : ∀ p ∈ before, p ∉ i.securityMethods)
  /-- The first method listed, when it lists no preference. -/
  | listed {rest : List SecurityMethod} (h : i.securityMethods = m :: rest)
      (hnone : ∀ p ∈ preferences, p ∉ i.securityMethods)
  /-- The first preference, when it lists nothing. -/
  | unlisted {rest : List SecurityMethod} (hnone : i.securityMethods = [])
      (h : preferences = m :: rest)

/-- An entry says what it is about and what is preferred, and a method is selected for it; at an
interface it is the one that the interface picks. -/
structure SecurityEntry.Negotiated (e : SecurityEntry) : Prop where
  /-- Something is preferred. -/
  preferred : e.preferred ≠ []
  /-- An interface or an API is named. -/
  target : e.interface ≠ none ∨ e.api ≠ none
  /-- A method is selected. -/
  selected : ∃ m, e.selected = some m ∧ ∀ i, e.interface = some i → i.Picks e.preferred m

/-- A context has a valid destination and entries, all of them negotiated. -/
structure SecurityContext.Negotiated (c : SecurityContext) : Prop where
  /-- There is an entry. -/
  entries : c.entries ≠ []
  /-- The destination is no blank text. -/
  destination : Text.isBlank c.destination = false
  /-- It is a URL. -/
  url : requireUrl c.destination = .ok ()
  /-- Every entry is negotiated. -/
  negotiated : ∀ e ∈ c.entries, e.Negotiated

namespace Outcome

variable {α β : Type}

/-- What is done to all members of a list succeeds when it does for each of them. -/
theorem forM_eq_ok_iff {g : α → Outcome Unit} {l : List α} :
    l.forM g = .ok () ↔ ∀ a ∈ l, g a = .ok () := by
  induction l with
  | nil => exact ⟨fun _ _ h => (List.not_mem_nil h).elim, fun _ => rfl⟩
  | cons a l ih =>
    rw [List.forall_mem_cons, ← ih]
    exact andThen_eq_ok_iff

/-- It yields what it yields for each of them, in their order. -/
theorem mapM_eq_ok_iff {g : α → Outcome β} {l : List α} {k : List β} :
    l.mapM g = .ok k ↔ List.Forall₂ (fun a b => g a = .ok b) l k := by
  induction l generalizing k with
  | nil =>
    rw [List.forall₂_nil_left_iff]
    exact ⟨fun h => (Except.ok.inj h).symm, fun h => h ▸ rfl⟩
  | cons a l ih =>
    rw [List.mapM_cons, bind_eq_ok_iff, List.forall₂_cons_left_iff]
    refine exists_congr fun b => ?_
    constructor
    · rintro ⟨hb, h⟩
      obtain ⟨rest, hrest, h⟩ := bind_eq_ok_iff.mp h
      cases h
      exact ⟨rest, hb, ih.mp hrest, rfl⟩
    · rintro ⟨rest, hb, hrest, rfl⟩
      exact ⟨hb, bind_eq_ok_iff.mpr ⟨rest, ih.mpr hrest, rfl⟩⟩

/-- Each member of the list that it yields then comes from a member. -/
theorem exists_of_mem_mapM {g : α → Outcome β} {l : List α} {k : List β} (h : l.mapM g = .ok k)
    {b : β} (hb : b ∈ k) : ∃ a ∈ l, g a = .ok b := by
  have hall := mapM_eq_ok_iff.mp h
  obtain ⟨n, hn, rfl⟩ := List.mem_iff_getElem.mp hb
  have hnl : n < l.length := hall.length_eq ▸ hn
  exact ⟨l[n], List.getElem_mem hnl, hall.get hnl hn⟩

/-- It has as many members. -/
theorem length_of_mapM {g : α → Outcome β} {l : List α} {k : List β} (h : l.mapM g = .ok k) :
    k.length = l.length := (mapM_eq_ok_iff.mp h).length_eq.symm

end Outcome

namespace SecurityMethod

variable {offered preferences : List SecurityMethod} {m : SecurityMethod}

/-- The search for the first preference on offer, or else the first method, finds the chosen
one. -/
theorem chosen_iff :
    (preferences.find? (offered.contains ·)).or offered.head? = some m ↔
      Chosen offered preferences m := by
  rw [Option.or_eq_some_iff, List.find?_eq_some_iff_append, List.find?_eq_none,
    List.head?_eq_some_iff]
  simp only [List.contains_eq_mem, decide_eq_true_eq, Bool.not_eq_true', decide_eq_false_iff_not]
  constructor
  · rintro (⟨hm, before, after, h, hfirst⟩ | ⟨hnone, rest, h⟩)
    · exact .preferred h hm hfirst
    · exact .first h hnone
  · rintro (⟨h, hm, hfirst⟩ | ⟨h, hnone⟩)
    · exact .inl ⟨hm, _, _, h, hfirst⟩
    · exact .inr ⟨hnone, _, h⟩

/-- It finds none only when none is on offer. -/
theorem chosen_none_iff :
    (preferences.find? (offered.contains ·)).or offered.head? = none ↔ offered = [] := by
  rw [Option.or_eq_none_iff, List.head?_eq_none_iff]
  refine ⟨fun h => h.2, fun h => ⟨?_, h⟩⟩
  simp [h]

end SecurityMethod

namespace SecurityEntry

variable {e f : SecurityEntry} {offer : List SecurityMethod}

/-- An entry passes its check when it lists a method and says what it is for. -/
theorem validate_eq_ok_iff :
    e.validate = .ok () ↔ e.preferred ≠ [] ∧ (e.interface ≠ none ∨ e.api ≠ none) := by
  rw [validate, Outcome.andThen_eq_ok_iff, require_eq_ok_iff, require_eq_ok_iff,
    Bool.not_eq_true', List.isEmpty_eq_false_iff, Bool.or_eq_true, Option.isSome_iff_ne_none,
    Option.isSome_iff_ne_none]

/-- The method is chosen among those on offer; at an interface that lists none it is the first
preference. -/
theorem choose?_eq_some_iff_chosen {m : SecurityMethod} :
    e.choose? offer = some m ↔ SecurityMethod.Chosen (e.offered offer) e.preferred m ∨
      e.offered offer = [] ∧ e.interface ≠ none ∧ ∃ rest, e.preferred = m :: rest := by
  have hfirst : (if e.interface.isSome then e.preferred.head? else none) = some m ↔
      e.interface ≠ none ∧ ∃ rest, e.preferred = m :: rest := by
    cases e.interface <;> simp [List.head?_eq_some_iff]
  rw [choose?, Option.or_eq_some_iff, SecurityMethod.chosen_iff, SecurityMethod.chosen_none_iff,
    hfirst]

/-- At an interface the method is the one that the interface picks, whatever the profiles
offer. -/
theorem choose?_eq_some_iff {i : InterfaceDescription} (hi : e.interface = some i)
    {m : SecurityMethod} : e.choose? offer = some m ↔ i.Picks e.preferred m := by
  have hoffered : e.offered offer = i.securityMethods := by rw [offered, hi]
  rw [choose?_eq_some_iff_chosen, hoffered]
  constructor
  · rintro ((⟨h, hlisted, hfirst⟩ | ⟨h, hnone⟩) | ⟨hnone, _, rest, h⟩)
    · exact .preferred h hlisted hfirst
    · exact .listed h hnone
    · exact .unlisted hnone h
  · rintro (⟨h, hlisted, hfirst⟩ | ⟨h, hnone⟩ | ⟨hnone, h⟩)
    · exact .inl (.preferred h hlisted hfirst)
    · exact .inl (.first h hnone)
    · exact .inr ⟨hnone, hi ▸ Option.some_ne_none i, _, h⟩

/-- A valid entry with the method selected is negotiated. -/
theorem negotiated_of_negotiate (hv : e.validate = .ok ()) (h : e.negotiate offer = .ok f) :
    f.Negotiated := by
  obtain ⟨hpreferred, htarget⟩ := validate_eq_ok_iff.mp hv
  unfold negotiate at h
  split at h
  · next m hm =>
    cases h
    exact ⟨hpreferred, htarget, m, rfl, fun i hi => (choose?_eq_some_iff hi).mp hm⟩
  · cases h

end SecurityEntry

/-- A context that is prepared is negotiated. -/
theorem TrustedInvokers.negotiated_of_prepare {s : Publications}
    {context prepared : SecurityContext} (h : prepare s context = .ok prepared) :
    prepared.Negotiated := by
  obtain ⟨hvalid, h⟩ := Outcome.andThen_eq_ok_iff.mp h
  obtain ⟨entries, hentries, h⟩ := Outcome.bind_eq_ok_iff.mp h
  cases h
  simp only [SecurityContext.validate, Outcome.andThen_eq_ok_iff, require_eq_ok_iff,
    Bool.not_eq_true', List.isEmpty_eq_false_iff] at hvalid
  obtain ⟨hblank, hurl, hsome, hall⟩ := hvalid
  refine ⟨?_, hblank, hurl, fun f hf => ?_⟩
  · rwa [ne_eq, ← List.length_eq_zero_iff, Outcome.length_of_mapM hentries,
      List.length_eq_zero_iff]
  · obtain ⟨e, he, hnegotiate⟩ := Outcome.exists_of_mem_mapM hentries hf
    exact SecurityEntry.negotiated_of_negotiate (Outcome.forM_eq_ok_iff.mp hall e he) hnegotiate

/-- What a bulk revocation leaves of a negotiated context is negotiated unless nothing is left. -/
theorem SecurityContext.Negotiated.revoke {c : SecurityContext} (hc : c.Negotiated)
    {scope : RevocationScope} (h : (c.revoke scope).entries ≠ []) : (c.revoke scope).Negotiated :=
  ⟨h, hc.destination, hc.url, fun e he => hc.negotiated e (List.mem_of_mem_filter he)⟩

namespace TrustedInvokers

/-- Every stored context is negotiated. -/
def Negotiated (t : TrustedInvokers) : Prop :=
  ∀ id context, t.table.get? id = some context → context.Negotiated

variable {t : TrustedInvokers}

theorem negotiated_empty : empty.Negotiated := fun _ _ h => nomatch h

/-- A negotiated context that is stored leaves only negotiated ones. -/
theorem Negotiated.insert (ht : t.Negotiated) (id : InvokerId) {context : SecurityContext}
    (h : context.Negotiated) : (⟨t.table.insert id context⟩ : TrustedInvokers).Negotiated :=
  Table.All.insert ht h id

theorem Negotiated.erase (ht : t.Negotiated) (id : InvokerId) :
    (⟨t.table.erase id⟩ : TrustedInvokers).Negotiated := Table.All.erase ht id

/-- Revoking entries within a scope leaves negotiated contexts, or none. -/
theorem Negotiated.revoke (ht : t.Negotiated) (id : InvokerId) (scope : RevocationScope) :
    (t.revoke id scope).2.Negotiated := by
  unfold TrustedInvokers.revoke
  split
  · exact ht
  · next c hc =>
    dsimp only
    split
    · exact ht.erase id
    · next hleft => exact ht.insert id ((ht id c hc).revoke (by simpa using hleft))

end TrustedInvokers

/-- Contexts are negotiated, and those who have one are onboarded. -/
structure Core.Trusting (c : Core) : Prop where
  /-- Whoever has a context is onboarded. -/
  onboarded : ∀ id, c.trusted.table.get? id ≠ none → c.invokers.table.get? id ≠ none
  /-- Every context is negotiated. -/
  negotiated : c.trusted.Negotiated

namespace Effect

variable {o : Occasion} {command : Command} {c d : Core} {r : Outcome command.Result}

/-- Every effect leaves the contexts negotiated. -/
theorem trusted_negotiated (h : Effect o command c r d) (hc : c.trusted.Negotiated) :
    d.trusted.Negotiated := by
  cases h with
  | offboarded _ => exact hc.erase _
  | accessRevoked _ _ _ => exact hc.revoke _ _
  | contextCreated h =>
    obtain ⟨_, hprepared, h⟩ := Outcome.bind_eq_ok_iff.mp h
    obtain ⟨_, h⟩ := Outcome.andThen_eq_ok_iff.mp h
    cases h
    exact hc.insert _ (TrustedInvokers.negotiated_of_prepare hprepared)
  | contextUpdated h =>
    obtain ⟨_, hprepared, h⟩ := Outcome.bind_eq_ok_iff.mp h
    split at h
    · cases h
      exact hc.insert _ (TrustedInvokers.negotiated_of_prepare hprepared)
    · cases h
  | _ => exact hc

/-- Where there is a context after an effect its invoker is onboarded then. A context is stored
for an invoker that is there, and it goes with it. -/
theorem trusting (h : Effect o command c r d) (hc : c.Trusting) : d.Trusting := by
  refine ⟨fun id hid => h.enrolled_iff.mpr (.inl ⟨?_, ?_⟩), h.trusted_negotiated hc.negotiated⟩
  · exact (h.context_cases hid).elim (hc.onboarded id) fun honboarded => honboarded
  · rintro ⟨rfl, hr⟩
    cases r with
    | error f => cases hr
    | ok a =>
      obtain ⟨_, _, _, hnone, _⟩ := h.of_offboard
      exact hid hnone

end Effect

namespace System

/-- In every state that may be seen, contexts are negotiated and their invokers onboarded. -/
theorem Seen.trusting {s : System} (hs : s.Seen) : s.core.Trusting :=
  hs.core_invariant (P := Core.Trusting)
    ⟨fun _ h => absurd rfl h, TrustedInvokers.negotiated_empty⟩ (fun _ hc he => he.trusting hc)
    (fun _ hc => ⟨hc.onboarded, hc.negotiated⟩) fun _ _ hc => ⟨hc.onboarded, hc.negotiated⟩

/-- Security contexts stay well-formed: in every state that may be seen, whoever has a context is
onboarded, and the context has entries and a valid destination, and each entry has preferences, an
interface or an API, and a selected method, which is the one that the interface picks where there
is one. -/
theorem contexts_negotiated {s : System} (hs : s.Seen) {id : InvokerId}
    {context : SecurityContext} (h : s.core.trusted.table.get? id = some context) :
    s.core.invokers.contains id = true ∧ context.Negotiated :=
  ⟨Invokers.contains_eq_true_iff.mpr (hs.trusting.onboarded id (h ▸ Option.some_ne_none context)),
    hs.trusting.negotiated id context h⟩

/-- The sample invoker prefers certificates at three interfaces and at the sample exposer. -/
def interfaceContext : SecurityContext where
  entries := [
    { interface := some { securityMethods := [.psk, .oauth] }, preferred := [.pki, .oauth] },
    { interface := some { securityMethods := [.psk] }, preferred := [.pki] },
    { exposer := some (.generate .exposer "aaa"), interface := some {}, preferred := [.pki] },
    { interface := some {}, preferred := [.pki] }]
  destination := "http://a"

/-- The sample invoker gets the context and loses its access to the sample exposer. -/
def cutContext : List Move := sampleGranting ++ [
  .start 3 (.createContext (.generate "c") interfaceContext) (.lettered 'd' default),
  .start 4 (.revokeAccess (.generate "c") { exposer := some (.generate .exposer "aaa") })
    (.lettered 'e' default)]

/-- Three entries are left, each with its method. -/
theorem contexts_negotiated_sample :
    ∃ (s : System) (context : SecurityContext),
      s.Seen ∧ s.core.trusted.table.get? (.generate "c") = some context ∧
      context.entries.map (·.selected) = [some .oauth, some .psk, some .pki] ∧
      s.core.invokers.contains (.generate "c") = true ∧ context.Negotiated := by
  have hmethods : ((fresh.run cutContext).bind
      (fun s => s.core.trusted.table.get? (.generate "c"))).map
        (fun context => context.entries.map (·.selected)) =
      some [some .oauth, some .psk, some .pki] := by
    decide +kernel
  obtain ⟨context, h, hselected⟩ := Option.map_eq_some_iff.mp hmethods
  obtain ⟨s, hs, hcontext⟩ := Option.bind_eq_some_iff.mp h
  have hseen := seen_run hs
  exact ⟨s, context, hseen, hcontext, hselected, contexts_negotiated hseen hcontext⟩

end System

end ApiExposure
