import ApiExposure.Proofs.Providers.Listing
import ApiExposure.Proofs.System.Passage

/-!
# The lifetime of a function

A function stands for its domain and its role from the moment it is registered
until its domain is deregistered, and for nothing ever after. No patch takes it out
or changes what it stands for, and since identifiers are fresh no later domain
brings it back.

This is told of every state that may be seen, the one between the removal of a
domain and its cascade included: the index is emptied with the domain.
-/

namespace ApiExposure

namespace Providers

/-- The index has the functions of the registered domains and no others, and no function is listed
twice. -/
structure Consistent (p : Providers) : Prop where
  /-- A function stands for a domain and a role when that domain lists it in that role. -/
  resolve : ∀ f r, p.resolve f = .ok r ↔
    ∃ d, p.domains.get? r.domain = some d ∧ d.id = r.domain ∧
      ∃ g ∈ d.functions, g.id = f ∧ g.role = r.role
  /-- The index has every listed function once. -/
  once : p.functions.keys.Perm (p.domains.values.flatMap (·.functionIds))
  /-- No domain lists a function twice. -/
  distinct : ∀ id d, p.domains.get? id = some d → d.functionIds.Nodup
  /-- No two domains list the same function. -/
  apart : ∀ id key d e f, p.domains.get? id = some d → p.domains.get? key = some e →
    f ∈ d.functionIds → f ∈ e.functionIds → id = key

variable {p : Providers}

/-- A function is resolved to its entry in the index. -/
theorem resolve_eq_ok_iff {f : FunctionId} {r : ResolvedFunction} :
    p.resolve f = .ok r ↔ p.functions.get? f = some r := by
  unfold resolve
  cases p.functions.get? f <;> simp

/-- A function is not found exactly when the index has no entry for it. -/
theorem resolve_eq_error_iff {f : FunctionId} {e : Failure} :
    p.resolve f = .error e ↔ p.functions.get? f = none ∧ e = .notFound (.function f) := by
  unfold resolve
  cases p.functions.get? f <;> simp [eq_comm]

/-- What a domain lists the index has. -/
theorem Agrees.get?_of_mem (hp : p.Agrees) {id : DomainId} {d : ProviderDomain}
    (hd : p.domains.get? id = some d) {g : ProviderFunction} (hg : g ∈ d.functions) :
    p.functions.get? g.id = some ⟨id, g.role⟩ :=
  (hp.exact g.id ⟨id, g.role⟩).mpr (mem_signaturesOf_iff.mpr ⟨d, hd, g, hg, rfl, rfl⟩)

/-- A domain lists no function twice. -/
theorem Agrees.distinct (hp : p.Agrees) {id : DomainId} {d : ProviderDomain}
    (hd : p.domains.get? id = some d) : d.functionIds.Nodup := by
  rw [ProviderDomain.functionIds, ← map_fst_signature, ← signaturesOf_of_get? hd]
  exact hp.once id

/-- No function is listed by two domains. -/
theorem Agrees.apart (hp : p.Agrees) {id key : DomainId} {d e : ProviderDomain} {f : FunctionId}
    (hd : p.domains.get? id = some d) (he : p.domains.get? key = some e)
    (hfd : f ∈ d.functionIds) (hfe : f ∈ e.functionIds) : id = key := by
  obtain ⟨g, hg, rfl⟩ := List.mem_map.mp hfd
  obtain ⟨k, hk, hkg⟩ := List.mem_map.mp hfe
  have hfirst : p.functions.get? g.id = some ⟨id, g.role⟩ := hp.get?_of_mem hd hg
  have hsecond : p.functions.get? k.id = some ⟨key, k.role⟩ := hp.get?_of_mem he hk
  rw [hkg, hfirst] at hsecond
  exact congrArg ResolvedFunction.domain (Option.some.inj hsecond)

/-- No identifier comes twice in all the lists together. -/
theorem Agrees.nodup_listed (hp : p.Agrees) :
    (p.domains.values.flatMap (·.functionIds)).Nodup := by
  have hkeys : p.domains.entries.Pairwise (fun a b => a.1 ≠ b.1) :=
    List.pairwise_map.mp p.domains.distinct
  refine List.nodup_flatMap.mpr ⟨fun d hd => ?_, ?_⟩
  · obtain ⟨id, hid⟩ := Table.mem_values_iff.mp hd
    exact hp.distinct hid
  · rw [Table.values, List.pairwise_map]
    refine hkeys.imp_of_mem fun ha hb hne f hfa hfb => hne ?_
    exact hp.apart (Table.get?_eq_some_iff.mpr ha) (Table.get?_eq_some_iff.mpr hb) hfa hfb

/-- The index has what is in the lists. -/
theorem Agrees.mem_keys_iff (hp : p.Agrees) {f : FunctionId} :
    f ∈ p.functions.keys ↔ f ∈ p.domains.values.flatMap (·.functionIds) := by
  rw [Table.mem_keys_iff, List.mem_flatMap]
  constructor
  · intro hf
    obtain ⟨r, hr⟩ := Option.ne_none_iff_exists'.mp hf
    obtain ⟨d, hd, g, hg, rfl, _⟩ := mem_signaturesOf_iff.mp ((hp.exact f r).mp hr)
    exact ⟨d, Table.mem_values_iff.mpr ⟨_, hd⟩, List.mem_map.mpr ⟨g, hg, rfl⟩⟩
  · rintro ⟨d, hd, hf⟩
    obtain ⟨id, hid⟩ := Table.mem_values_iff.mp hd
    obtain ⟨g, hg, rfl⟩ := List.mem_map.mp hf
    rw [hp.get?_of_mem hid hg]
    exact Option.some_ne_none _

/-- Domains and index that agree are consistent. -/
theorem Agrees.consistent (hp : p.Agrees) : p.Consistent where
  resolve := by
    intro f r
    rw [resolve_eq_ok_iff, hp.exact, mem_signaturesOf_iff]
    constructor
    · rintro ⟨d, hd, hlisted⟩
      exact ⟨d, hd, hp.keyed _ d hd, hlisted⟩
    · rintro ⟨d, hd, _, hlisted⟩
      exact ⟨d, hd, hlisted⟩
  once := (List.perm_ext_iff_of_nodup p.functions.distinct hp.nodup_listed).mpr
    fun _ => hp.mem_keys_iff
  distinct := fun _ _ hd => hp.distinct hd
  apart := fun _ _ _ _ _ hd he hfd hfe => hp.apart hd he hfd hfe

end Providers

/-- A command leaves the registry of providers, registers or patches a domain at its start, or
removes one. -/
theorem Effect.providers_cases {o : Occasion} {command : Command} {c d : Core}
    {r : Outcome command.Result} (h : Effect o command c r d) :
    d.providers = c.providers ∨
      (command.asksFirst = false ∧
        ((∃ g domain, c.providers.register g o = .ok (domain, d.providers)) ∨
          ∃ id p domain, c.providers.update id p o = .ok (domain, d.providers))) ∨
      ∃ id functions, c.providers.deregister id = .ok (functions, d.providers) := by
  cases h with
  | registered h => exact .inr (.inl ⟨rfl, .inl ⟨_, _, h⟩⟩)
  | updated h => exact .inr (.inl ⟨rfl, .inr ⟨_, _, _, h⟩⟩)
  | removed h => exact .inr (.inr ⟨_, _, h⟩)
  | _ => exact .inl rfl

namespace System

variable {s t u : System} {m : Option Move}

/-- A passage removes a domain from the registry of providers. -/
def Deregisters (s : System) (id : DomainId) (u : System) : Prop :=
  ∃ functions, s.core.providers.deregister id = .ok (functions, u.core.providers)

/-- A domain that is removed is not registered afterwards. -/
theorem Deregisters.domains {id : DomainId} (h : s.Deregisters id u) :
    u.core.providers.domains.get? id = none := by
  obtain ⟨removed, h⟩ := h
  obtain ⟨_, _, _, hdomains⟩ := Providers.of_deregister_eq_ok h
  rw [hdomains, Table.get?_erase, if_pos rfl]

/-- A command of a passage brings suffixes that no command had before. -/
structure Brings (s u : System) (o : Occasion) : Prop where
  /-- They differ. -/
  injective : Function.Injective o.suffix
  /-- No earlier command has them. -/
  apart : ∀ t j, s.jobs t = some j → j.occasion.Apart o
  /-- The command has them from then on. -/
  job : ∃ t j, u.jobs t = some j ∧ j.occasion = o

/-- A command can have handed out the identifier of a function. -/
def Issued (s : System) (f : FunctionId) : Prop :=
  ∃ t j, s.jobs t = some j ∧ j.occasion.Issues f

/-- Domains and index agree, and all that they name was handed out by commands. -/
structure Registered (s : System) : Prop where
  /-- Domains and index agree. -/
  agrees : s.core.providers.Agrees
  /-- Functions come from commands. -/
  functions : ∀ f, s.core.providers.functions.get? f ≠ none → s.Issued f
  /-- So do domains. -/
  domains : ∀ id, s.core.providers.domains.get? id ≠ none →
    ∃ t j, s.jobs t = some j ∧ id = .generate (j.occasion.suffix 0)

theorem registered_fresh : fresh.Registered where
  agrees := Providers.agrees_empty
  functions := fun _ h => absurd rfl h
  domains := fun _ h => absurd rfl h

/-- A passage keeps the occasions of all commands. -/
theorem Passes.occasion (h : s.Passes m u) {t : Ticket} {j : Job} (hj : s.jobs t = some j) :
    ∃ k, u.jobs t = some k ∧ k.occasion = j.occasion := by
  cases h with
  | move h =>
    obtain ⟨k, hk, _, hko, _⟩ := step_keeps_job h hj
    exact ⟨k, hk, hko⟩
  | deregistered _ => exact ⟨j, hj, rfl⟩
  | invalidated _ _ => exact ⟨j, hj, rfl⟩

/-- A function that was issued stays so. -/
theorem Issued.pass {f : FunctionId} (hf : s.Issued f) (h : s.Passes m u) : u.Issued f := by
  obtain ⟨t, j, hj, hissues⟩ := hf
  obtain ⟨k, hk, hko⟩ := h.occasion hj
  exact ⟨t, k, hk, hko ▸ hissues⟩

/-- What an occasion brings was not handed out before. -/
theorem Brings.not_issued {o : Occasion} (h : s.Brings u o) {f : FunctionId} (hf : s.Issued f) :
    ¬ o.Issues f := by
  rintro ⟨role, n, rfl⟩
  obtain ⟨t, j, hj, role', n', hid⟩ := hf
  exact h.apart t j hj n' n (FunctionId.generate_injective hid).symm

/-- So it is not in the index. -/
theorem Registered.unissued (hs : s.Registered) {o : Occasion} (h : s.Brings u o)
    {f : FunctionId} (hf : o.Issues f) : s.core.providers.functions.get? f = none := by
  by_contra hne
  exact h.not_issued (hs.functions f hne) hf

/-- Neither is a domain registered under the first suffix. -/
theorem Registered.unregistered (hs : s.Registered) {o : Occasion} (h : s.Brings u o) :
    s.core.providers.domains.get? (.generate (o.suffix 0)) = none := by
  by_contra hne
  obtain ⟨t, j, hj, hid⟩ := hs.domains _ hne
  exact h.apart t j hj 0 0 (DomainId.generate_injective hid).symm

/-- A passage leaves the registry of providers, enters or changes a domain with functions that have
new identifiers, or removes a domain. -/
theorem Registered.cases (hs : s.Registered) (hseen : s.Seen) (hfresh : ∀ n ∈ m, s.Admits n)
    (h : s.Passes m u) :
    u.core.providers = s.core.providers ∨
      (∃ o d new, s.Brings u o ∧
        Providers.Enters o s.core.providers u.core.providers d new) ∨
      ∃ id, s.Deregisters id u := by
  cases h with
  | @move m u h =>
    rcases (step_cases hseen.tracked_and_wellFormed.1 h).2 with ⟨j, r, hj, he, hstart⟩ | ⟨hcore, _⟩
    · rcases he.providers_cases with hsame | ⟨hfirst, henters⟩ | hderegisters
      · exact .inl hsame
      · have hm : m = .start m.ticket j.command j.occasion :=
          hstart.resolve_right fun ⟨hasks, _⟩ => by simp [hasks] at hfirst
        have hoccasion : m.occasion? = some j.occasion := by
          rw [hm]
          rfl
        obtain ⟨hinjective, hapart⟩ := hfresh m rfl j.occasion hoccasion
        have hbrings : s.Brings u j.occasion := ⟨hinjective, hapart, m.ticket, j, hj.job, rfl⟩
        refine .inr (.inl ⟨j.occasion, ?_⟩)
        rcases henters with ⟨g, d, hregister⟩ | ⟨id, p, d, hupdate⟩
        · exact ⟨d, _, hbrings,
            Providers.enters_of_register hinjective (hs.unregistered hbrings) hregister⟩
        · obtain ⟨new, hnew⟩ := Providers.enters_of_update hs.agrees hinjective
            (fun _ hf => hs.unissued hbrings hf) hupdate
          exact ⟨d, new, hbrings, hnew⟩
      · exact .inr (.inr hderegisters)
    · exact .inl (congrArg Core.providers hcore)
  | deregistered h => exact .inr (.inr ⟨_, _, h⟩)
  | invalidated _ _ => exact .inl rfl

/-- Every passage with fresh identifiers keeps domains and index agreeing. -/
theorem Registered.pass (hs : s.Registered) (hseen : s.Seen) (hfresh : ∀ n ∈ m, s.Admits n)
    (h : s.Passes m u) : u.Registered := by
  have hfunctions : ∀ f, s.core.providers.functions.get? f ≠ none → u.Issued f :=
    fun f hf => (hs.functions f hf).pass h
  have hdomains : ∀ id, s.core.providers.domains.get? id ≠ none →
      ∃ t j, u.jobs t = some j ∧ id = .generate (j.occasion.suffix 0) := by
    intro id hid
    obtain ⟨t, j, hj, rfl⟩ := hs.domains id hid
    obtain ⟨k, hk, hko⟩ := h.occasion hj
    exact ⟨t, k, hk, by rw [hko]⟩
  rcases hs.cases hseen hfresh h with
    hsame | ⟨o, d, new, hbrings, henters⟩ | ⟨id, removed, hremoved⟩
  · refine ⟨?_, ?_, ?_⟩ <;> rw [hsame]
    · exact hs.agrees
    · exact hfunctions
    · exact hdomains
  · obtain ⟨t, j, hj, hjo⟩ := hbrings.job
    refine ⟨henters.agrees hs.agrees fun f hf => hs.unissued hbrings hf, fun f hf => ?_,
      fun id hid => ?_⟩
    · by_cases hissues : o.Issues f
      · exact ⟨t, j, hj, hjo ▸ hissues⟩
      · rw [henters.onlyIssued f hissues] at hf
        exact hfunctions f hf
    · rw [henters.get?_domains] at hid
      by_cases hd : s.core.providers.domains.get? id = none
      · split at hid
        · next hown =>
          exact ⟨t, j, hj, by rw [hjo, hown, henters.domain (hown ▸ hd)]⟩
        · exact absurd hd hid
      · exact hdomains id hd
  · refine ⟨hs.agrees.deregister hremoved, fun f hf => ?_, fun k hk => ?_⟩
    · refine hfunctions f fun hnone => ?_
      obtain ⟨r, hr⟩ := Option.ne_none_iff_exists'.mp hf
      rw [((hs.agrees.get?_of_deregister hremoved).mp hr).1] at hnone
      cases hnone
    · obtain ⟨_, _, _, hdomainsLeft⟩ := Providers.of_deregister_eq_ok hremoved
      rw [hdomainsLeft, Table.get?_erase] at hk
      split at hk
      · exact absurd rfl hk
      · exact hdomains k hk

/-- Whatever happens, domains and index keep agreeing. -/
theorem Precedes.registered (h : s.Precedes u) (hseen : s.Seen) (ho : s.Orderly)
    (hs : s.Registered) : u.Registered :=
  h.invariant (P := Registered) hseen ho hs
    fun _ _ _ ht _ hreg hfresh hpass => hreg.pass ht hfresh hpass

/-- What a function stands for stays unless its domain is removed. -/
theorem Registered.resolve_pass (hs : s.Registered) (hseen : s.Seen)
    (hfresh : ∀ n ∈ m, s.Admits n) (h : s.Passes m u) {f : FunctionId} {r : ResolvedFunction}
    (hr : s.core.providers.resolve f = .ok r) (hkept : ¬ s.Deregisters r.domain u) :
    u.core.providers.resolve f = .ok r := by
  rw [Providers.resolve_eq_ok_iff] at hr ⊢
  rcases hs.cases hseen hfresh h with
    hsame | ⟨o, d, new, hbrings, henters⟩ | ⟨id, removed, hremoved⟩
  · rw [hsame]
    exact hr
  · have hissued : s.Issued f := hs.functions f (hr ▸ Option.some_ne_none r)
    rw [henters.onlyIssued f (hbrings.not_issued hissued)]
    exact hr
  · refine (hs.agrees.get?_of_deregister hremoved).mpr ⟨hr, fun hdomain => hkept ?_⟩
    exact hdomain ▸ ⟨removed, hremoved⟩

/-- A function that was handed out does not come into the index any more. -/
theorem Registered.get?_of_pass (hs : s.Registered) (hseen : s.Seen)
    (hfresh : ∀ n ∈ m, s.Admits n) (h : s.Passes m u) {f : FunctionId} (hf : s.Issued f)
    {q : ResolvedFunction} (hq : u.core.providers.functions.get? f = some q) :
    s.core.providers.functions.get? f = some q := by
  rcases hs.cases hseen hfresh h with
    hsame | ⟨o, d, new, hbrings, henters⟩ | ⟨id, removed, hremoved⟩
  · rwa [hsame] at hq
  · rwa [henters.onlyIssued f (hbrings.not_issued hf)] at hq
  · exact ((hs.agrees.get?_of_deregister hremoved).mp hq).1

/-- A function was handed out and stands for nothing but what is given, if for anything. -/
structure Stands (s : System) (f : FunctionId) (r : ResolvedFunction) : Prop where
  /-- Domains and index agree. -/
  registered : s.Registered
  /-- It was handed out. -/
  issued : s.Issued f
  /-- It stands for nothing else. -/
  only : ∀ q, s.core.providers.functions.get? f = some q → q = r

/-- A function stands as long as its domain does. -/
theorem Stands.pass {f : FunctionId} {r : ResolvedFunction} (hf : s.Stands f r) (hseen : s.Seen)
    (hfresh : ∀ n ∈ m, s.Admits n) (h : s.Passes m u) : u.Stands f r where
  registered := hf.registered.pass hseen hfresh h
  issued := hf.issued.pass h
  only := fun q hq => hf.only q (hf.registered.get?_of_pass hseen hfresh h hf.issued hq)

/-- A function was handed out and is not in the index. -/
structure Vanished (s : System) (f : FunctionId) : Prop where
  /-- Domains and index agree. -/
  registered : s.Registered
  /-- It was handed out. -/
  issued : s.Issued f
  /-- It is not there. -/
  absent : s.core.providers.functions.get? f = none

/-- What has vanished does not come back. -/
theorem Vanished.pass {f : FunctionId} (hf : s.Vanished f) (hseen : s.Seen)
    (hfresh : ∀ n ∈ m, s.Admits n) (h : s.Passes m u) : u.Vanished f where
  registered := hf.registered.pass hseen hfresh h
  issued := hf.issued.pass h
  absent := by
    refine Option.eq_none_iff_forall_ne_some.mpr fun q hq => ?_
    have hbefore := hf.registered.get?_of_pass hseen hfresh h hf.issued hq
    rw [hf.absent] at hbefore
    cases hbefore

/-- When its domain is removed a function vanishes. -/
theorem Stands.vanished {f : FunctionId} {r : ResolvedFunction} (hf : s.Stands f r)
    (hseen : s.Seen) (hfresh : ∀ n ∈ m, s.Admits n) (h : s.Passes m u)
    (hremoved : s.Deregisters r.domain u) : u.Vanished f := by
  obtain ⟨hregistered, hissued, honly⟩ := hf.pass hseen hfresh h
  refine ⟨hregistered, hissued, Option.eq_none_iff_forall_ne_some.mpr fun q hq => ?_⟩
  obtain ⟨removed, hremoved⟩ := hremoved
  obtain ⟨_, hdomain⟩ := (hf.registered.agrees.get?_of_deregister hremoved).mp hq
  exact hdomain (congrArg ResolvedFunction.domain (honly q hq))

/-- A system comes before another, and on the way a domain is not removed. -/
inductive PrecedesKeeping (id : DomainId) (s : System) : System → Prop
  /-- Nothing happens. -/
  | refl : PrecedesKeeping id s s
  /-- A passage leads on that does not remove the domain. -/
  | pass {t u : System} {m : Option Move} (h : PrecedesKeeping id s t)
      (hfresh : ∀ n ∈ m, t.Admits n) (hu : t.Passes m u) (hkept : ¬ t.Deregisters id u) :
      PrecedesKeeping id s u

/-- A passage on which a domain is kept is a passage. -/
theorem PrecedesKeeping.precedes {id : DomainId} (h : s.PrecedesKeeping id u) : s.Precedes u := by
  induction h with
  | refl => exact .refl
  | pass _ hfresh hu _ ih => exact ih.pass hfresh hu

/-- In every state that fresh identifiers lead to, domains and index are consistent. What a function
stands for then it stands for until its domain is removed, and for nothing from then on. -/
theorem function_lifetime (hu : fresh.Precedes u) :
    u.core.providers.Consistent ∧
      ∀ f r, u.core.providers.resolve f = .ok r →
        (∀ v, u.PrecedesKeeping r.domain v → v.core.providers.resolve f = .ok r) ∧
          ∀ v m w x, u.Precedes v → v.Passes m w → (∀ n ∈ m, v.Admits n) →
            v.Deregisters r.domain w → w.Precedes x →
              x.core.providers.resolve f = .error (.notFound (.function f)) := by
  have hseen : u.Seen := hu.seen .fresh
  have horderly : u.Orderly := hu.orderly orderly_fresh
  have hregistered : u.Registered := hu.registered .fresh orderly_fresh registered_fresh
  refine ⟨hregistered.agrees.consistent, fun f r hr => ⟨fun v hv => ?_, ?_⟩⟩
  · induction hv with
    | refl => exact hr
    | @pass t w m hkeeping hfresh hpass hkept ih =>
      have hut : u.Precedes t := hkeeping.precedes
      exact (hut.registered hseen horderly hregistered).resolve_pass (hut.seen hseen) hfresh hpass
        ih hkept
  · intro v m w x huv hvw hfresh hremoved hwx
    have hheld : u.core.providers.functions.get? f = some r := Providers.resolve_eq_ok_iff.mp hr
    have hstands : u.Stands f r := by
      refine ⟨hregistered, hregistered.functions f (hheld ▸ Option.some_ne_none r), fun q hq => ?_⟩
      exact Option.some.inj (hq.symm.trans hheld)
    have hv : v.Stands f r := huv.invariant (P := fun t => t.Stands f r) hseen horderly hstands
      fun _ _ _ ht _ hf hn hpass => hf.pass ht hn hpass
    have hvSeen : v.Seen := huv.seen hseen
    have hw : w.Vanished f := hv.vanished hvSeen hfresh hvw hremoved
    have hx : x.Vanished f := hwx.invariant (P := fun t => t.Vanished f) (hvSeen.pass hvw)
      ((huv.orderly horderly).pass hfresh hvw) hw
      fun _ _ _ ht _ hf hn hpass => hf.pass ht hn hpass
    exact Providers.resolve_eq_error_iff.mpr ⟨hx.absent, rfl⟩

/-- The sample domain is patched: a function is changed and another one added. -/
def sampleRenewal : Move :=
  .start 2 (.updateProvider (.generate "a")
    { functions := [
        { id := some samplePublisher, info := some "main" },
        { role := some .exposer, registration := some { publicKey := "key" } }] })
    (.lettered 'c' default)

/-- The sample domain is removed. -/
def sampleDeparture : Move :=
  .start 3 (.deregisterProvider (.generate "a")) (.lettered 'd' default)

/-- A domain like it is registered. -/
def sampleReturn : Move := .start 4 (.registerProvider sampleDomain) (.lettered 'e' default)

theorem freshIds_sampleReturn :
    FreshIds (((sampleSchedule ++ [sampleRenewal]) ++ [sampleDeparture]) ++ [sampleReturn]) :=
  .of_letters ['a', 'b', 'c', 'd', 'e'] (by decide) rfl

/-- The publisher of the sample domain outlives a patch of it and goes with it; the publisher of the
domain that is registered then is another one. -/
theorem function_lifetime_sample :
    ∃ u v w x : System, fresh.Precedes u ∧ u.core.providers.Consistent ∧
      u.core.providers.resolve samplePublisher = .ok ⟨.generate "a", .publisher⟩ ∧
      u.PrecedesKeeping (.generate "a") v ∧
      v.core.providers.resolve samplePublisher = .ok ⟨.generate "a", .publisher⟩ ∧
      v.Deregisters (.generate "a") w ∧ w.Precedes x ∧
      x.core.providers.resolve samplePublisher = .error (.notFound (.function samplePublisher)) ∧
      x.core.providers.resolve (.generate .publisher "ee") =
        .ok ⟨.generate "e", .publisher⟩ := by
  have hrun : (fresh.run sampleSchedule).bind (fun u => (u.run [sampleRenewal]).bind (fun v =>
      (v.run [sampleDeparture]).bind (fun w => (w.run [sampleReturn]).map (fun x =>
        (u.core.providers.resolve samplePublisher,
          (v.core.providers.domains.get? (.generate "a")).isSome,
          (v.core.providers.deregister (.generate "a")).map
            (fun r => decide (r.2.functions.entries = w.core.providers.functions.entries ∧
              r.2.domains.entries = w.core.providers.domains.entries)),
          x.core.providers.resolve (.generate .publisher "ee")))))) =
      some (.ok ⟨.generate "a", .publisher⟩, true, .ok true, .ok ⟨.generate "e", .publisher⟩) := rfl
  obtain ⟨u, hu, hrun⟩ := Option.bind_eq_some_iff.mp hrun
  obtain ⟨v, hv, hrun⟩ := Option.bind_eq_some_iff.mp hrun
  obtain ⟨w, hw, hrun⟩ := Option.bind_eq_some_iff.mp hrun
  obtain ⟨x, hx, hrun⟩ := Option.map_eq_some_iff.mp hrun
  simp only [Prod.mk.injEq] at hrun
  obtain ⟨hresolve, hkept, hderegister, hnew⟩ := hrun
  have hfresh := freshIds_sampleReturn
  have huv : fresh.run (sampleSchedule ++ [sampleRenewal]) = some v :=
    run_append_eq_some.mpr ⟨u, hu, hv⟩
  have huw : fresh.run ((sampleSchedule ++ [sampleRenewal]) ++ [sampleDeparture]) = some w :=
    run_append_eq_some.mpr ⟨v, huv, hw⟩
  have hstart : fresh.Precedes u :=
    precedes_of_run (show FreshIds ([] ++ sampleSchedule) from hfresh.left.left.left) rfl hu
  have hwx : w.Precedes x := precedes_of_run hfresh huw hx
  have hrenewed : u.step sampleRenewal = some v := by simpa [run_cons] using hv
  have hdomain : v.core.providers.domains.get? (.generate "a") ≠ none :=
    Option.isSome_iff_ne_none.mp hkept
  have hkeeping : u.PrecedesKeeping (.generate "a") v :=
    .pass .refl (fun _ hn => Option.mem_some.mp hn ▸ admits_of_freshIds hfresh.left.left hu)
      (.move hrenewed) fun hremoved => hdomain hremoved.domains
  have hremoved : v.Deregisters (.generate "a") w := by
    cases h : v.core.providers.deregister (.generate "a") with
    | error f =>
      rw [h] at hderegister
      cases hderegister
    | ok r =>
      obtain ⟨functions, providers⟩ := r
      rw [h] at hderegister
      obtain ⟨hfunctions, hdomains⟩ := of_decide_eq_true (Except.ok.inj hderegister)
      have hproviders : providers = w.core.providers := by
        cases providers
        cases hw' : w.core.providers
        rw [hw'] at hfunctions hdomains
        exact congrArg₂ Providers.mk (Table.ext hdomains) (Table.ext hfunctions)
      exact ⟨functions, hproviders ▸ h⟩
  have hremoval : v.step sampleDeparture = some w := by simpa [run_cons] using hw
  obtain ⟨hconsistent, hlifetime⟩ := function_lifetime hstart
  obtain ⟨huntil, hafter⟩ := hlifetime samplePublisher _ hresolve
  refine ⟨u, v, w, x, hstart, hconsistent, hresolve, hkeeping, huntil v hkeeping, hremoved, hwx,
    hafter v _ w x hkeeping.precedes (.move hremoval) ?_ hremoved hwx, hnew⟩
  exact fun _ hn => Option.mem_some.mp hn ▸ admits_of_freshIds hfresh.left huv

end System

end ApiExposure
