import ApiExposure.Proofs.Security.Selection

/-!
# How methods are negotiated

For an entry the methods on offer are those of its interface or, without one,
those that the profiles of its API list one after the other. The store collects
the latter without repetition, which changes neither which methods there are nor
which one comes first, and nothing else matters to the choice. A context is
stored when every entry finds a method, and then with all of these methods; what
the client wrote down as selected has no part in it. When one entry finds none,
nothing is stored, and the failure names the first such entry.
-/

namespace ApiExposure

namespace Outcome

variable {α β : Type}

/-- What is done to all members of a list succeeds when it does for each of them, -/
theorem exists_mapM_iff {g : α → Outcome β} {l : List α} :
    (∃ k, l.mapM g = .ok k) ↔ ∀ a ∈ l, ∃ b, g a = .ok b := by
  simp only [mapM_eq_ok_iff]
  induction l with
  | nil => exact iff_of_true ⟨[], .nil⟩ nofun
  | cons a l ih =>
    rw [List.forall_mem_cons, ← ih]
    constructor
    · rintro ⟨_, h⟩
      cases h with
      | cons hb hk => exact ⟨⟨_, hb⟩, _, hk⟩
    · rintro ⟨⟨b, hb⟩, k, hk⟩
      exact ⟨b :: k, .cons hb hk⟩

/-- and fails with the first of them for which it fails. -/
theorem mapM_eq_error_iff {g : α → Outcome β} {l : List α} {f : Failure} :
    l.mapM g = .error f ↔ ∃ before a after, l = before ++ a :: after ∧
      (∀ p ∈ before, ∃ b, g p = .ok b) ∧ g a = .error f := by
  induction l with
  | nil =>
    refine iff_of_false nofun ?_
    rintro ⟨before, a, after, h, _⟩
    exact absurd h.symm (List.append_ne_nil_of_right_ne_nil before (List.cons_ne_nil a after))
  | cons a l ih =>
    have hstep : (a :: l).mapM g = .error f ↔
        g a = .error f ∨ (∃ b, g a = .ok b) ∧ l.mapM g = .error f := by
      rw [List.mapM_cons]
      cases g a with
      | error e => simp [bind, Except.bind]
      | ok b => cases l.mapM g <;> simp [bind, Except.bind, pure, Except.pure]
    rw [hstep, ih]
    constructor
    · rintro (ha | ⟨hb, before, p, after, rfl, hbefore, hp⟩)
      · exact ⟨[], a, l, rfl, nofun, ha⟩
      · exact ⟨a :: before, p, after, rfl, List.forall_mem_cons.mpr ⟨hb, hbefore⟩, hp⟩
    · rintro ⟨_ | ⟨b, before⟩, p, after, h, hbefore, hp⟩
      · cases h
        exact .inl hp
      · cases h
        obtain ⟨hb, hbefore⟩ := List.forall_mem_cons.mp hbefore
        exact .inr ⟨hb, before, p, after, rfl, hbefore, hp⟩

end Outcome

namespace SecurityMethod

variable {offered preferences : List SecurityMethod} {m : SecurityMethod}

/-- It does not matter whether methods are offered more than once. -/
theorem chosen_eraseDups_iff :
    Chosen offered.eraseDups preferences m ↔ Chosen offered preferences m := by
  have hcontains : (fun p => offered.eraseDups.contains p) = fun p => offered.contains p := by
    funext p
    simp
  have hhead : offered.eraseDups.head? = offered.head? := by
    cases offered with
    | nil => rfl
    | cons p rest => rw [List.eraseDups_cons, List.head?_cons, List.head?_cons]
  rw [← chosen_iff, ← chosen_iff, hcontains, hhead]

/-- Some method is chosen when any is on offer. -/
theorem exists_chosen (h : offered ≠ []) : ∃ m, Chosen offered preferences m := by
  obtain ⟨m, hm⟩ := Option.ne_none_iff_exists'.mp (mt chosen_none_iff.mp h)
  exact ⟨m, chosen_iff.mp hm⟩

/-- Where a method is chosen, one is offered. -/
theorem Chosen.offered_ne_nil (h : Chosen offered preferences m) : offered ≠ [] := by
  cases h with
  | preferred _ hoffered _ => exact List.ne_nil_of_mem hoffered
  | first h _ => exact h ▸ List.cons_ne_nil _ _

end SecurityMethod

namespace SecurityEntry

/-- A profile counts for an entry: the entry names no exposer, or that of the profile. -/
def Considers (e : SecurityEntry) (p : Profile) : Prop := ∀ x ∈ e.exposer, p.exposer = x

instance (e : SecurityEntry) : DecidablePred e.Considers :=
  fun p => inferInstanceAs (Decidable (∀ x ∈ e.exposer, p.exposer = x))

/-- The methods on offer for an entry: those of its interface, else those of the profiles of its
API that count, one profile after the other. -/
def onOffer (s : Publications) (e : SecurityEntry) : List SecurityMethod :=
  match e.interface with
  | some i => i.securityMethods
  | none =>
    match e.api.bind s.apis.get? with
    | some a => (a.description.profiles.filter (fun p => e.Considers p)).flatMap (·.securityMethods)
    | none => []

/-- The method that an entry settles on in a store. -/
inductive Settles (s : Publications) (e : SecurityEntry) (m : SecurityMethod) : Prop
  /-- The one that its preferences choose among those on offer. -/
  | chosen (h : SecurityMethod.Chosen (e.onOffer s) e.preferred m)
  /-- Its first preference, at an interface that lists nothing. -/
  | unlisted {i : InterfaceDescription} {rest : List SecurityMethod} (hi : e.interface = some i)
      (hnone : i.securityMethods = []) (h : e.preferred = m :: rest)

/-- An entry without interface has an API in the store, and a profile that counts lists a
method. -/
def Negotiable (s : Publications) (e : SecurityEntry) : Prop :=
  e.interface = none → ∃ id a p, e.api = some id ∧ s.apis.get? id = some a ∧
    p ∈ a.description.profiles ∧ e.Considers p ∧ p.securityMethods ≠ []

/-- An entry as it is stored: with the only method that it settles on, and otherwise as it was
submitted. -/
def StoredAs (s : Publications) (e f : SecurityEntry) : Prop :=
  ∃ m, (∀ k, e.Settles s k ↔ k = m) ∧ f = { e with selected := some m }

variable {s : Publications} {e f : SecurityEntry} {m : SecurityMethod}

/-- Without interface an entry has the methods of the profiles, each once. -/
theorem offered_offer (hi : e.interface = none) :
    e.offered (TrustedInvokers.offer s e) = (e.onOffer s).eraseDups := by
  rw [offered, onOffer, TrustedInvokers.offer, hi]
  cases e.api with
  | none => rfl
  | some id =>
    simp only [Publications.securityMethods, Option.bind_some]
    cases s.apis.get? id with
    | none => rfl
    | some a =>
      have hconsiders : (fun p : Profile => e.exposer.all (· == p.exposer)) =
          fun p => decide (e.Considers p) := by
        funext p
        cases hx : e.exposer <;> simp [Considers, hx, eq_comm, Bool.beq_eq_decide_eq]
      simp only [hconsiders]

/-- What is chosen does not depend on how often a method is offered. -/
theorem chosen_offered_iff :
    SecurityMethod.Chosen (e.offered (TrustedInvokers.offer s e)) e.preferred m ↔
      SecurityMethod.Chosen (e.onOffer s) e.preferred m := by
  cases hi : e.interface with
  | none => rw [offered_offer hi, SecurityMethod.chosen_eraseDups_iff]
  | some i => rw [offered, onOffer, hi]

/-- The method that is selected is the one that the entry settles on. -/
theorem settles_iff : e.choose? (TrustedInvokers.offer s e) = some m ↔ e.Settles s m := by
  rw [choose?_eq_some_iff_chosen, chosen_offered_iff]
  constructor
  · rintro (h | ⟨hnone, hi, rest, h⟩)
    · exact .chosen h
    · obtain ⟨i, hi⟩ := Option.ne_none_iff_exists'.mp hi
      exact .unlisted hi (by rwa [offered, hi] at hnone) h
  · rintro (h | ⟨hi, hnone, h⟩)
    · exact .inl h
    · exact .inr ⟨by rwa [offered, hi], hi ▸ Option.some_ne_none _, _, h⟩

/-- Without interface something is on offer when the API is stored and a profile that counts lists
a method. -/
theorem onOffer_ne_nil_iff (hi : e.interface = none) :
    e.onOffer s ≠ [] ↔ ∃ id a p, e.api = some id ∧ s.apis.get? id = some a ∧
      p ∈ a.description.profiles ∧ e.Considers p ∧ p.securityMethods ≠ [] := by
  rw [onOffer, hi]
  dsimp only
  constructor
  · intro h
    cases hapi : e.api.bind s.apis.get? with
    | none =>
      rw [hapi] at h
      exact absurd rfl h
    | some a =>
      rw [hapi] at h
      obtain ⟨id, hid, ha⟩ := Option.bind_eq_some_iff.mp hapi
      obtain ⟨m, hm⟩ := List.exists_mem_of_ne_nil _ h
      obtain ⟨p, hp, hm⟩ := List.mem_flatMap.mp hm
      obtain ⟨hp, hconsiders⟩ := List.mem_filter.mp hp
      exact ⟨id, a, p, hid, ha, hp, by simpa using hconsiders, List.ne_nil_of_mem hm⟩
  · rintro ⟨id, a, p, hid, ha, hp, hconsiders, hmethods⟩
    have hapi : e.api.bind s.apis.get? = some a := by rw [hid, Option.bind_some, ha]
    obtain ⟨m, hm⟩ := List.exists_mem_of_ne_nil _ hmethods
    have hcounts : p ∈ a.description.profiles.filter (fun p => e.Considers p) :=
      List.mem_filter.mpr ⟨hp, by simpa using hconsiders⟩
    rw [hapi]
    exact List.ne_nil_of_mem (List.mem_flatMap.mpr ⟨p, hcounts, hm⟩)

/-- An entry with a preference is negotiable when there is a method that it settles on. -/
theorem negotiable_iff (hp : e.preferred ≠ []) : e.Negotiable s ↔ ∃ m, e.Settles s m := by
  cases hi : e.interface with
  | none =>
    have hoffer : e.Negotiable s ↔ e.onOffer s ≠ [] := by
      rw [onOffer_ne_nil_iff hi]
      exact ⟨fun h => h hi, fun h _ => h⟩
    rw [hoffer]
    constructor
    · intro h
      exact (SecurityMethod.exists_chosen h).imp fun _ => .chosen
    · rintro ⟨m, h | ⟨hsome, _, _⟩⟩
      · exact h.offered_ne_nil
      · cases hi.symm.trans hsome
  | some i =>
    have hthere : e.interface ≠ none := hi ▸ Option.some_ne_none i
    refine iff_of_true (fun hnone => absurd hnone hthere) ?_
    by_cases hlisted : i.securityMethods = []
    · obtain ⟨m, rest, h⟩ := List.exists_cons_of_ne_nil hp
      exact ⟨m, .unlisted hi hlisted h⟩
    · have hoffer : e.onOffer s ≠ [] := by rwa [onOffer, hi]
      exact (SecurityMethod.exists_chosen hoffer).imp fun _ => .chosen

/-- The negotiation of an entry yields it as it is stored, -/
theorem negotiate_eq_ok_iff :
    e.negotiate (TrustedInvokers.offer s e) = .ok f ↔ e.StoredAs s f := by
  simp only [StoredAs, ← settles_iff, negotiate]
  cases e.choose? (TrustedInvokers.offer s e) with
  | none => simp
  | some m =>
    simp only [Except.ok.injEq, Option.some.injEq]
    constructor
    · intro h
      exact ⟨m, fun k => eq_comm, h.symm⟩
    · rintro ⟨k, hk, hf⟩
      obtain rfl := (hk m).mp rfl
      exact hf.symm

/-- which it does when there is a method, -/
theorem exists_negotiate_iff (hp : e.preferred ≠ []) :
    (∃ f, e.negotiate (TrustedInvokers.offer s e) = .ok f) ↔ e.Negotiable s := by
  simp only [negotiable_iff hp, ← settles_iff, negotiate]
  cases e.choose? (TrustedInvokers.offer s e) <;> simp

/-- and fails for want of one. -/
theorem negotiate_eq_error_iff (hp : e.preferred ≠ []) {x : Failure} :
    e.negotiate (TrustedInvokers.offer s e) = .error x ↔
      ¬ e.Negotiable s ∧ x = .invalid (.noCommonMethod e.api) := by
  simp only [negotiable_iff hp, ← settles_iff, negotiate]
  cases e.choose? (TrustedInvokers.offer s e) <;> simp [eq_comm]

end SecurityEntry

namespace SecurityContext

/-- The context without what the client wrote down as selected. -/
def unselected (c : SecurityContext) : SecurityContext :=
  { c with entries := c.entries.map (fun e => { e with selected := none }) }

/-- A context that passes its check lists a method in every entry. -/
theorem preferred_of_validate {c : SecurityContext} (h : c.validate = .ok ()) :
    ∀ e ∈ c.entries, e.preferred ≠ [] := by
  simp only [validate, Outcome.andThen_eq_ok_iff] at h
  exact fun e he => (SecurityEntry.validate_eq_ok_iff.mp
    (Outcome.forM_eq_ok_iff.mp h.2.2.2 e he)).1

end SecurityContext

namespace TrustedInvokers

variable {s : Publications} {context stored : SecurityContext}

/-- A context is stored with every entry as it is to be stored. -/
theorem negotiate_eq_ok_iff :
    negotiate s context = .ok stored ↔
      List.Forall₂ (SecurityEntry.StoredAs s) context.entries stored.entries ∧
        stored = { context with entries := stored.entries } := by
  simp only [negotiate, Outcome.bind_eq_ok_iff, Outcome.mapM_eq_ok_iff,
    SecurityEntry.negotiate_eq_ok_iff, Except.ok.injEq]
  constructor
  · rintro ⟨entries, h, rfl⟩
    exact ⟨h, rfl⟩
  · rintro ⟨h, hstored⟩
    exact ⟨stored.entries, h, hstored.symm⟩

/-- The negotiation succeeds when all entries are negotiable, -/
theorem exists_negotiate_iff (hp : ∀ e ∈ context.entries, e.preferred ≠ []) :
    (∃ stored, negotiate s context = .ok stored) ↔ ∀ e ∈ context.entries, e.Negotiable s := by
  have hentries : (∃ stored, negotiate s context = .ok stored) ↔
      ∃ entries, context.entries.mapM (fun e => e.negotiate (offer s e)) = .ok entries := by
    rw [negotiate]
    cases context.entries.mapM (fun e => e.negotiate (offer s e)) <;> simp [bind, Except.bind]
  rw [hentries, Outcome.exists_mapM_iff]
  exact forall₂_congr fun e he => SecurityEntry.exists_negotiate_iff (hp e he)

/-- and fails with the first one that is not. -/
theorem negotiate_eq_error_iff (hp : ∀ e ∈ context.entries, e.preferred ≠ []) {f : Failure} :
    negotiate s context = .error f ↔ ∃ before e after, context.entries = before ++ e :: after ∧
      (∀ p ∈ before, p.Negotiable s) ∧ ¬ e.Negotiable s ∧
        f = .invalid (.noCommonMethod e.api) := by
  have hentries : negotiate s context = .error f ↔
      context.entries.mapM (fun e => e.negotiate (offer s e)) = .error f := by
    rw [negotiate]
    cases context.entries.mapM (fun e => e.negotiate (offer s e)) <;> simp [bind, Except.bind]
  rw [hentries, Outcome.mapM_eq_error_iff]
  refine exists_congr fun before => exists_congr fun e => exists_congr fun after =>
    and_congr_right fun h => ?_
  have hmem : ∀ p ∈ before, p ∈ context.entries := fun p hmem => h ▸ List.mem_append_left _ hmem
  have he : e ∈ context.entries := h ▸ List.mem_append_right _ List.mem_cons_self
  refine and_congr (forall₂_congr fun p hmem' => ?_) ?_
  · exact SecurityEntry.exists_negotiate_iff (hp p (hmem p hmem'))
  · exact SecurityEntry.negotiate_eq_error_iff (hp e he)

/-- What the client wrote down as selected has no part in the negotiation. -/
theorem prepare_unselected (s : Publications) (context : SecurityContext) :
    prepare s context.unselected = prepare s context := by
  have hvalidate : context.unselected.validate = context.validate := by
    simp only [SecurityContext.validate, SecurityContext.unselected, List.isEmpty_map,
      List.forM_eq_forM, List.forM_map]
    rfl
  have hnegotiate : negotiate s context.unselected = negotiate s context := by
    simp only [negotiate, SecurityContext.unselected, List.mapM_map]
    rfl
  rw [prepare, prepare, hvalidate, hnegotiate]

end TrustedInvokers

namespace Core

/-- A context is submitted: to be created, or to replace one that is there. -/
inductive Submits (c : Core) (o : Occasion) (id : InvokerId) (context : SecurityContext) :
    Flow SecurityContext → Prop
  /-- It is created. -/
  | created : Submits c o id context ((Command.createContext id context).start o c)
  /-- It replaces another one. -/
  | updated (h : c.trusted.contains id = true) :
      Submits c o id context ((Command.updateContext id context).start o c)

/-- A submitted context is stored: what it is then, and the state that is left. -/
structure StoresContext (c : Core) (id : InvokerId) (context stored : SecurityContext)
    (after : Core) : Prop where
  /-- Each entry has the method that it settles on. -/
  entries : List.Forall₂ (SecurityEntry.StoredAs c.store) context.entries stored.entries
  /-- The rest is as submitted. -/
  kept : stored = { context with entries := stored.entries }
  /-- The invoker has this context. -/
  held : after.trusted.table.get? id = some stored
  /-- Others have theirs. -/
  others : ∀ k, k ≠ id → after.trusted.table.get? k = c.trusted.table.get? k
  /-- Nothing else is changed. -/
  rest : after = { c with trusted := after.trusted }

/-- Why a submitted context is not stored: the first entry that is not negotiable has no
method. -/
def RefusesContext (c : Core) (context : SecurityContext) (f : Failure) : Prop :=
  ∃ before e after, context.entries = before ++ e :: after ∧
    (∀ p ∈ before, p.Negotiable c.store) ∧ ¬ e.Negotiable c.store ∧
      f = .invalid (.noCommonMethod e.api)

variable {c : Core} {o : Occasion} {id : InvokerId} {context : SecurityContext}
  {flow : Flow SecurityContext}

/-- A valid context that an onboarded invoker submits is negotiated and put in its place, whether
it is the first one or not. -/
theorem Submits.eq (h : c.Submits o id context flow) (hid : c.invokers.contains id = true)
    (hvalid : context.validate = .ok ()) :
    flow = .ofOutcome c ((TrustedInvokers.negotiate c.store context).map
      fun stored => (stored, { c with trusted := ⟨c.trusted.table.insert id stored⟩ })) := by
  have hprepare : TrustedInvokers.prepare c.store context =
      TrustedInvokers.negotiate c.store context := by
    rw [TrustedInvokers.prepare, hvalid]
    rfl
  cases h with
  | created =>
    rw [Command.start, createContext, TrustedInvokers.create, hprepare, Invokers.requireOnboarded,
      hid]
    cases TrustedInvokers.negotiate c.store context <;> rfl
  | updated h =>
    rw [Command.start, updateContext, TrustedInvokers.update, hprepare, h]
    cases TrustedInvokers.negotiate c.store context <;> rfl

/-- A context is negotiated all or nothing: when an onboarded invoker submits a valid context, it is
stored exactly when all its entries are negotiable, each with the method that it settles on, and
otherwise the state stays and the first entry that is not negotiable is reported. Contexts that
differ only in what the client wrote down as selected have the same outcome. -/
theorem negotiation_exact (hid : c.invokers.contains id = true)
    (hvalid : context.validate = .ok ()) (o : Occasion) :
    (∀ flow, c.Submits o id context flow →
      ((∃ after stored, flow = .done after (.ok stored)) ↔
        ∀ e ∈ context.entries, e.Negotiable c.store) ∧
      (∀ after stored, flow = .done after (.ok stored) →
        c.StoresContext id context stored after) ∧
      ((∃ e ∈ context.entries, ¬ e.Negotiable c.store) →
        ∃ f, flow = .done c (.error f) ∧ c.RefusesContext context f)) ∧
    ∀ other : SecurityContext, other.unselected = context.unselected →
      (Command.createContext id other).start o c = (Command.createContext id context).start o c ∧
      (Command.updateContext id other).start o c = (Command.updateContext id context).start o c := by
  have hpreferred := SecurityContext.preferred_of_validate hvalid
  refine ⟨fun flow h => ?_, fun other hother => ?_⟩
  · have hsucceeds := TrustedInvokers.exists_negotiate_iff (s := c.store) hpreferred
    rw [h.eq hid hvalid]
    cases hresult : TrustedInvokers.negotiate c.store context with
    | error f =>
      rw [hresult] at hsucceeds
      have hrefuses : c.RefusesContext context f :=
        (TrustedInvokers.negotiate_eq_error_iff hpreferred).mp hresult
      refine ⟨iff_of_false nofun fun hall => ?_, nofun, fun _ => ⟨f, rfl, hrefuses⟩⟩
      exact nomatch hsucceeds.mpr hall
    | ok stored =>
      have hall : ∀ e ∈ context.entries, e.Negotiable c.store := hsucceeds.mp ⟨stored, hresult⟩
      obtain ⟨hentries, hkept⟩ := TrustedInvokers.negotiate_eq_ok_iff.mp hresult
      refine ⟨iff_of_true ⟨_, stored, rfl⟩ hall, ?_, fun ⟨e, he, hnot⟩ => absurd (hall e he) hnot⟩
      intro after stored' hflow
      cases hflow
      exact ⟨hentries, hkept, Table.get?_insert_self _ _ _,
        fun k hk => Table.get?_insert_of_ne _ _ hk, rfl⟩
  · have hprepare : TrustedInvokers.prepare c.store other =
        TrustedInvokers.prepare c.store context := by
      rw [← TrustedInvokers.prepare_unselected, hother, TrustedInvokers.prepare_unselected]
    constructor
    · simp only [Command.start, createContext, TrustedInvokers.create, hprepare]
    · simp only [Command.start, updateContext, TrustedInvokers.update, hprepare]

/-- A domain with a publisher and two exposers. -/
def twoExposers : DomainRegistration where
  credential := "secret"
  functions := [
    { role := some .publisher, registration := some { publicKey := "key" } },
    { role := some .exposer, registration := some { publicKey := "key" } },
    { role := some .exposer, registration := some { publicKey := "key" } }]

/-- An API whose profiles list different methods. -/
def guardedApi : ApiDescription where
  name := "maps"
  profiles := [
    { exposer := .generate .exposer "aaa", securityMethods := [.oauth, .psk] },
    { exposer := .generate .exposer "aaaa", securityMethods := [.psk, .pki] }]
  versions := [{ name := "v1" }]

/-- The API is published, and an invoker is onboarded. -/
def guardedSchedule : List Move := [
  .start 0 (.registerProvider twoExposers) (.lettered 'a' default),
  .start 1 (.publish (.generate .publisher "aa") guardedApi) (.lettered 'b' default),
  .resume 1 (.errand (.ok ())),
  .start 2 (.onboard { onboarding := { publicKey := "key" } }) (.lettered 'c' default),
  .resume 2 (.client (.ok ⟨"client", "secret"⟩))]

/-- Certificates are preferred at any exposer and at the first one, and a shared key at an
interface. -/
def guardedContext : SecurityContext where
  entries := [
    { api := some (.generate "b"), preferred := [.pki, .psk], selected := some .psk },
    { api := some (.generate "b"), exposer := some (.generate .exposer "aaa"), preferred := [.pki] },
    { api := some (.generate "b"), interface := some {}, preferred := [.psk] }]
  destination := "http://a"

/-- The same with an entry for an API that is not published. -/
def strayContext : SecurityContext :=
  { guardedContext with
    entries := guardedContext.entries ++ [{ api := some (.generate "z"), preferred := [.pki] }] }

/-- Certificates are on offer at the second exposer, so the first entry gets them; at the first
exposer what it lists first is taken. Without the selection written down the outcome is the same.
With the stray entry the context cannot be replaced, and it stays. -/
theorem negotiation_exact_sample :
    ∃ (s : System) (after : Core) (stored : SecurityContext) (f : Failure), s.Seen ∧
      s.core.invokers.contains (.generate "c") = true ∧
      guardedContext.validate = .ok () ∧ strayContext.validate = .ok () ∧
      (Command.createContext (.generate "c") guardedContext).start (.lettered 'd' default) s.core =
        .done after (.ok stored) ∧
      s.core.StoresContext (.generate "c") guardedContext stored after ∧
      stored.entries.map (·.selected) = [some .pki, some .oauth, some .psk] ∧
      guardedContext.unselected ≠ guardedContext ∧
      (Command.createContext (.generate "c") guardedContext.unselected).start
        (.lettered 'd' default) s.core = .done after (.ok stored) ∧
      after.trusted.contains (.generate "c") = true ∧
      (Command.updateContext (.generate "c") strayContext).start (.lettered 'e' default) after =
        .done after (.error f) ∧
      after.RefusesContext strayContext f := by
  have hrun : (System.fresh.run guardedSchedule).bind (fun s =>
      (s.core.createContext (.generate "c") guardedContext).toOption.map (fun r =>
        (s.core.invokers.contains (.generate "c"), s.core.store.apis.contains (.generate "z"),
          r.1.entries.map (·.selected)))) =
      some (true, false, [some .pki, some .oauth, some .psk]) := by
    decide +kernel
  obtain ⟨s, hs, h⟩ := Option.bind_eq_some_iff.mp hrun
  obtain ⟨⟨stored, after⟩, hcreated, h⟩ := Option.map_eq_some_iff.mp h
  simp only [Prod.mk.injEq] at h
  obtain ⟨hid, habsent, hselected⟩ := h
  have hstart : (Command.createContext (.generate "c") guardedContext).start
      (.lettered 'd' default) s.core = .done after (.ok stored) := by
    rw [Command.start, Outcome.toOption_eq_some_iff.mp hcreated]
    rfl
  have hvalid : guardedContext.validate = .ok () := by decide +kernel
  have hstray : strayContext.validate = .ok () := by decide +kernel
  obtain ⟨hguarded, hsame⟩ := negotiation_exact hid hvalid (.lettered 'd' default)
  have hstores := (hguarded _ .created).2.1 after stored hstart
  obtain ⟨hunselected, -⟩ := hsame guardedContext.unselected rfl
  have hafter : after.invokers.contains (.generate "c") = true := by rw [hstores.rest]; exact hid
  have hthere : after.trusted.contains (.generate "c") = true := by
    rw [TrustedInvokers.contains, Table.contains, hstores.held]
    rfl
  have hunpublished : ∃ e ∈ strayContext.entries, ¬ e.Negotiable after.store := by
    refine ⟨{ api := some (.generate "z"), preferred := [.pki] }, by decide, fun hnegotiable => ?_⟩
    obtain ⟨_, a, _, hapi, ha, _⟩ := hnegotiable rfl
    cases hapi
    rw [hstores.rest] at ha
    rw [Table.contains, ha] at habsent
    cases habsent
  obtain ⟨hrefused, -⟩ := negotiation_exact hafter hstray (.lettered 'e' default)
  obtain ⟨f, hfailed, hrefuses⟩ := (hrefused _ (.updated hthere)).2.2 hunpublished
  exact ⟨s, after, stored, f, System.seen_run hs, hid, hvalid, hstray, hstart, hstores, hselected,
    by decide, hunselected.trans hstart, hthere, hfailed, hrefuses⟩

end Core

end ApiExposure
