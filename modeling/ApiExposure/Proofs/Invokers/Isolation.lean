import ApiExposure.Proofs.Invokers.Footing
import ApiExposure.Proofs.Registry.Table
import ApiExposure.Proofs.Revocation.Ledger

/-!
# Isolation of invokers

A command spares an invoker when it is about another one, or about an API that
the invoker is not granted, or about functions that the granted APIs do not rest
on. Each registry changes only what an operation names, so such a command leaves
all that the answers to the invoker rest on. Along a run whose moves all spare it
the invoker goes on discovering the same and being allowed the same. Security
contexts, subscriptions and questions spare everyone, even those they are about.

Nothing is assumed of generated identifiers but that they are not the invoker's
own, nor those of APIs that it is granted.
-/

namespace ApiExposure

namespace Table

variable {κ ν : Type}

/-- The values under keys of a kind, in order. -/
def under (t : Table κ ν) (p : κ → Bool) : List ν :=
  (t.entries.filter (fun e => p e.1)).map (·.2)

variable [DecidableEq κ] {key : κ} {p : κ → Bool}

/-- A value that is set elsewhere is not seen. -/
theorem under_insert_of_not (t : Table κ ν) (value : ν) (h : p key = false) :
    (t.insert key value).under p = t.under p :=
  congrArg _ (filter_entries_insert h fun _ _ => h)

/-- A key that is erased elsewhere is not missed. -/
theorem under_erase_of_not (t : Table κ ν) (h : p key = false) :
    (t.erase key).under p = t.under p :=
  congrArg _ (filter_entries_erase fun _ _ => h)

end Table

namespace Publications

variable {s : Publications} {removed : List FunctionId} {now : Instant} {p : ApiId → Bool}

/-- In a keyed store APIs are chosen by their identifiers as by their keys. -/
theorem Keyed.filter_values (hs : s.Keyed) (p : ApiId → Bool) :
    s.apis.values.filter (fun a => p a.id) = s.apis.under p := by
  rw [Table.values, List.filter_map, Table.under]
  refine congrArg _ (List.filter_congr fun e he => ?_)
  exact congrArg p (hs e.1 e.2 (Table.get?_eq_some_iff.mpr he))

/-- A cascade leaves all APIs of a kind when none of them depends on the functions. -/
theorem under_invalidate (hs : s.Keyed)
    (h : ∀ a, s.apis.get? a.id = some a → p a.id = true → dependsOn removed a = false) :
    (s.invalidate removed now).1.apis.under p = s.apis.under p := by
  have hother : ∀ a, s.apis.get? a.id = some a → dependsOn removed a = true → p a.id = false := by
    intro a ha hdepends
    refine Bool.eq_false_iff.mpr fun hp => ?_
    rw [h a ha hp] at hdepends
    cases hdepends
  refine invalidate_induction (P := fun t => t.under p = s.apis.under p) hs rfl
    (fun t a ha hdepends ht => ?_) fun t a b ha hdepends _ ht => ?_
  · exact (Table.under_erase_of_not t (hother a ha hdepends)).trans ht
  · exact (Table.under_insert_of_not t b (hother a ha hdepends)).trans ht

end Publications

namespace Invokers

/-- Between two registries only one invoker changes. -/
def OnlyChanges (id : InvokerId) (r q : Invokers) : Prop :=
  ∀ k, k ≠ id → q.table.get? k = r.table.get? k

/-- Setting an invoker changes no other one. -/
theorem onlyChanges_insert (r : Invokers) (id : InvokerId) (i : InvokerIdentity) :
    OnlyChanges id r ⟨r.table.insert id i⟩ :=
  fun _ hk => Table.get?_insert_of_ne _ _ hk

theorem onlyChanges_erase (r : Invokers) (id : InvokerId) :
    OnlyChanges id r ⟨r.table.erase id⟩ :=
  fun k hk => (Table.get?_erase r.table id k).trans (if_neg hk)

end Invokers

namespace Ledger

/-- Between two ledgers only lines for calls of one invoker change. -/
def OnlyChanges (id : InvokerId) (l m : Ledger) : Prop :=
  ∀ call, call.invoker ≠ id → m.entry? call = l.entry? call

variable {id : InvokerId} {now : Instant}

theorem onlyChanges_refl (id : InvokerId) (l : Ledger) : OnlyChanges id l l := fun _ _ => rfl

/-- A revoked call is a call of its invoker. -/
theorem onlyChanges_revoke (l : Ledger) (call : Call) (now : Instant) :
    OnlyChanges call.invoker l (l.revoke call now) :=
  fun _ h => (entry?_revoke l call _ now).trans (if_neg fun he => h (congrArg Call.invoker he))

theorem onlyChanges_reinstate (l : Ledger) (call : Call) (now : Instant) :
    OnlyChanges call.invoker l (l.reinstate call now).2 :=
  fun _ h => (entry?_reinstate l call _ now).trans
    (if_neg fun he => h (congrArg Call.invoker he.1))

/-- Revoking the calls of grants changes the ledger for their invoker only. -/
theorem onlyChanges_revokeGrants (l : Ledger) (grants : List Grant) :
    OnlyChanges id l (Core.revokeGrants l id grants now) := by
  intro call h
  rw [Core.entry?_revokeGrants, if_neg]
  rintro ⟨g, _, rfl⟩
  exact h rfl

/-- So does revoking them one by one, however far it gets. -/
theorem onlyChanges_revokeEach {l m : Ledger} {grants : List Grant} {r : Outcome Unit}
    (h : Core.revokeEach id now grants l = (m, r)) : OnlyChanges id l m := by
  induction grants generalizing l with
  | nil =>
    cases h
    exact onlyChanges_refl _ _
  | cons g gs ih =>
    rw [Core.revokeEach] at h
    split at h
    · cases h
      exact onlyChanges_refl _ _
    · exact fun call hc => (ih h call hc).trans (onlyChanges_revoke l (g.call id) now call hc)

end Ledger

/-- A command spares an invoker in a state. -/
def Command.Spares (c : Core) (o : Occasion) (id : InvokerId) : Command → Prop
  | registerProvider _ | updateProvider _ _ => ∀ f, o.Issues f → ¬ c.RestsOn id f
  | deregisterProvider domain => ∀ functions providers,
      c.providers.deregister domain = .ok (functions, providers) →
        ∀ f ∈ functions, ¬ c.RestsOn id f
  | publish _ _ => c.isGranted id (.generate (o.suffix 0)) = false
  | updateApi _ api _ | unpublish _ api => c.isGranted id api = false
  | onboard _ => .generate (o.suffix 0) ≠ id
  | updateInvoker other _ | offboard other | grant other _ | removeGrant other _
  | revokeAccess other _ => other ≠ id
  | revoke call => call.invoker ≠ id
  | createContext _ _ | updateContext _ _ | subscribe _ _ | unsubscribe _ _ | ask _ => True

namespace Core

variable {c : Core} {id other : InvokerId}

/-- Changes to another invoker and its calls leave what concerns this one. -/
theorem agreeFor_of_invokers {invokers : Invokers} {ledger : Ledger}
    (hi : Invokers.OnlyChanges other c.invokers invokers)
    (hl : Ledger.OnlyChanges other c.ledger ledger) (h : other ≠ id)
    (trusted : TrustedInvokers) :
    AgreeFor id c { c with invokers, ledger, trusted } where
  identity := hi id h.symm
  ledger call hcall := hl call fun he => h (he.symm.trans hcall)
  apis := by simp only [grantedApis, isGranted, grantsOf, hi id h.symm]
  roles _ _ := rfl

/-- So do changes to the registry of providers and the store that leave the values under the
identifiers of the granted APIs and the roles that these rest on. -/
theorem agreeFor_of_providers {providers : Providers} {store : Publications}
    (hc : c.store.WellFormed) (hs : store.WellFormed)
    (hroles : ∀ f, c.RestsOn id f → providers.roleOf f = c.providers.roleOf f)
    (h : store.apis.under (c.isGranted id) = c.store.apis.under (c.isGranted id)) :
    AgreeFor id c { c with providers, store } where
  identity := rfl
  ledger _ _ := rfl
  apis :=
    calc
      store.apis.values.filter (fun a => c.isGranted id a.id)
      _ = store.apis.under (c.isGranted id) := hs.keyed.filter_values _
      _ = c.store.apis.under (c.isGranted id) := h
      _ = c.grantedApis id := (hc.keyed.filter_values _).symm
  roles := hroles

/-- A provider that brings new functions changes nothing for an invoker that does not rest on them.
-/
theorem agreeFor_of_onlyIssued {o : Occasion} {providers : Providers} (hc : c.store.WellFormed)
    (h : Providers.OnlyIssued o c.providers providers)
    (hspares : ∀ f, o.Issues f → ¬ c.RestsOn id f) : AgreeFor id c { c with providers } := by
  refine agreeFor_of_providers hc hc (fun f hf => ?_) rfl
  rw [Providers.roleOf, h f fun hi => hspares f hi hf, Providers.roleOf]

end Core

/-- The effect of a command that spares an invoker leaves what concerns it. -/
theorem Effect.agreeFor {o : Occasion} {command : Command} {c d : Core}
    {r : Outcome command.Result} (h : Effect o command c r d) (hc : c.store.WellFormed)
    {id : InvokerId} (hspares : command.Spares c o id) : c.AgreeFor id d := by
  have hd : d.store.WellFormed := h.wellFormed hc
  cases h with
  | registered h => exact Core.agreeFor_of_onlyIssued hc (Providers.onlyIssued_register h) hspares
  | updated h => exact Core.agreeFor_of_onlyIssued hc (Providers.onlyIssued_update h) hspares
  | removed h =>
    have hleft := hspares _ _ h
    refine Core.agreeFor_of_providers hc hd (fun f hf => ?_) ?_
    · exact Providers.roleOf_deregister h fun hm => hleft f hm hf
    · refine Publications.under_invalidate hc.keyed fun a ha hgranted => ?_
      have hmem : a ∈ c.grantedApis id :=
        (Core.mem_grantedApis_iff hc).mpr ⟨ha, Core.isGranted_iff.mp hgranted⟩
      rw [Publications.dependsOn, Bool.or_eq_false_iff, List.any_eq_false]
      refine ⟨?_, fun e he => ?_⟩
      · simpa using fun hm => hleft _ hm ⟨a, hmem, .inl rfl⟩
      · simpa using fun hm => hleft _ hm ⟨a, hmem, .inr he⟩
  | published h =>
    obtain ⟨_, _, rfl, rfl⟩ := Publications.publishAs_eq_ok_iff.mp h
    exact Core.agreeFor_of_providers hc hd (fun _ _ => rfl)
      (Table.under_insert_of_not _ _ hspares)
  | @patched c publisher key p a store h =>
    obtain ⟨held, hheld, _, _, _, rfl, rfl⟩ := Publications.of_updateFor_eq_ok h
    have hid : (held.apply p o.now).id = key := (hc key held hheld).own
    exact Core.agreeFor_of_providers hc hd (fun _ _ => rfl)
      (Table.under_insert_of_not _ _ (hid ▸ hspares))
  | withdrawn h =>
    refine Core.agreeFor_of_providers hc hd (fun _ _ => rfl) ?_
    rw [(Publications.of_unpublish_eq_ok h).2]
    exact Table.under_erase_of_not _ hspares
  | onboarded h =>
    obtain ⟨_, _, rfl⟩ := Invokers.of_onboardAs_eq_ok h
    exact Core.agreeFor_of_invokers (Invokers.onlyChanges_insert _ _ _)
      (Ledger.onlyChanges_refl _ _) hspares _
  | invokerUpdated h =>
    obtain ⟨_, _, _, rfl⟩ := Invokers.of_update_eq_ok h
    exact Core.agreeFor_of_invokers (Invokers.onlyChanges_insert _ _ _)
      (Ledger.onlyChanges_refl _ _) hspares _
  | offboarded h =>
    obtain ⟨_, rfl⟩ := Invokers.of_deregister_eq_ok h
    exact Core.agreeFor_of_invokers (Invokers.onlyChanges_erase _ _)
      (Ledger.onlyChanges_revokeGrants _ _) hspares _
  | @granted c other g _ _ _ _ _ _ h =>
    obtain ⟨_, _, _, rfl⟩ := Invokers.of_grant_eq_ok h
    exact Core.agreeFor_of_invokers (Invokers.onlyChanges_insert _ _ _)
      (Ledger.onlyChanges_reinstate c.ledger (g.call other) o.now) hspares _
  | grantRemoved h =>
    obtain ⟨_, _, rfl⟩ := Invokers.of_removeGrant_eq_ok h
    exact Core.agreeFor_of_invokers (Invokers.onlyChanges_insert _ _ _)
      (Ledger.onlyChanges_refl _ _) hspares _
  | callRevoked _ =>
    exact Core.agreeFor_of_invokers (fun _ _ => rfl) (Ledger.onlyChanges_revoke _ _ _) hspares _
  | accessRevoked _ _ h =>
    exact Core.agreeFor_of_invokers (fun _ _ => rfl) (Ledger.onlyChanges_revokeEach h) hspares _
  | accessPartlyRevoked _ h =>
    exact Core.agreeFor_of_invokers (fun _ _ => rfl) (Ledger.onlyChanges_revokeEach h) hspares _
  | _ => exact ⟨rfl, fun _ _ => rfl, rfl, fun _ _ => rfl⟩

namespace System

/-- The command that makes a move, with its occasion. -/
def mover? (s : System) : Move → Option (Command × Occasion)
  | .start _ command o => some (command, o)
  | .resume t _ => (s.jobs t).map (fun j => (j.command, j.occasion))

/-- The command that makes a move spares an invoker. -/
def Spares (s : System) (m : Move) (id : InvokerId) : Prop :=
  ∀ command o, s.mover? m = some (command, o) → command.Spares s.core o id

/-- Along a schedule every move spares an invoker in the state in which it is made. -/
def RunSpares (id : InvokerId) : System → List Move → Prop
  | _, [] => True
  | s, m :: ms => s.Spares m id ∧ ∀ t, s.step m = some t → RunSpares id t ms

variable {s u : System} {m : Move} {id : InvokerId}

/-- What a move settles is the command that makes it. -/
theorem Settles.mover? {j : Job} {r : Outcome j.command.Result} (h : s.Settles m u j r) :
    s.mover? m = some (j.command, j.occasion) := by
  obtain ⟨hstep, hj, _, _⟩ := h
  cases m with
  | start t command o =>
    obtain ⟨_, rfl⟩ := step_start.mp hstep
    rw [Move.ticket, jobs_advance_self] at hj
    cases hj
    rfl
  | resume t reply =>
    obtain ⟨i, f, hi, _, rfl⟩ := step_resume.mp hstep
    rw [Move.ticket, jobs_advance_self] at hj
    cases hj
    rw [System.mover?, hi]
    rfl

/-- A command that spares an invoker does so when it starts. -/
theorem spares_start {t : Ticket} {command : Command} {o : Occasion}
    (h : command.Spares s.core o id) : s.Spares (.start t command o) id := by
  intro _ _ hm
  cases hm
  exact h

/-- What goes on right after its start is the command that was started. -/
theorem spares_resume {t : Ticket} {command : Command} {o : Occasion}
    (hstart : s.step (.start t command o) = some u) (h : command.Spares u.core o id)
    (reply : Reply) : u.Spares (.resume t reply) id := by
  obtain ⟨_, rfl⟩ := step_start.mp hstart
  intro _ _ hm
  rw [mover?, jobs_advance_self] at hm
  cases hm
  exact h

/-- A move that spares an invoker leaves what concerns it. -/
theorem agreeFor_step (hs : s.Seen) (h : s.step m = some u) (hspares : s.Spares m id) :
    s.core.AgreeFor id u.core := by
  obtain ⟨htracked, hc⟩ := hs.tracked_and_wellFormed
  rcases (step_cases htracked h).2 with ⟨j, r, hj, he, _⟩ | ⟨hcore, _⟩
  · exact he.agreeFor hc (hspares _ _ hj.mover?)
  · rw [hcore]
    exact .refl _ _

/-- So does a run of such moves. -/
theorem agreeFor_run {ms : List Move} (hs : s.Seen) (h : s.run ms = some u)
    (hspares : RunSpares id s ms) : u.Seen ∧ s.core.AgreeFor id u.core := by
  induction ms generalizing s with
  | nil =>
    cases h
    exact ⟨hs, .refl _ _⟩
  | cons m ms ih =>
    obtain ⟨hfirst, hrest⟩ := hspares
    obtain ⟨t, ht, h⟩ := run_cons_eq_some.mp h
    obtain ⟨hu, hagree⟩ := ih (hs.step ht) h (hrest t ht)
    exact ⟨hu, (agreeFor_step hs ht hfirst).trans hagree⟩

/-- In states that may be seen, what an invoker discovers and what is decided on its calls is the
same wherever the states agree in its identity and grants, the lines of the ledger for its calls,
the APIs that it is granted and the roles that these rest on. So it stays the same along every
run whose moves are about other invokers, or about APIs and functions that the invoker's grants
have nothing to do with. -/
theorem invoker_isolated (hs : s.Seen) (id : InvokerId) :
    (∀ u : System, u.Seen → s.core.AgreeFor id u.core → s.core.SameAnswers id u.core) ∧
      ∀ ms u, s.run ms = some u → RunSpares id s ms → s.core.SameAnswers id u.core := by
  have hagree : ∀ u : System, u.Seen → s.core.AgreeFor id u.core → s.core.SameAnswers id u.core :=
    fun u hu h => h.sameAnswers hs.tracked_and_wellFormed.2 hu.tracked_and_wellFormed.2
  refine ⟨hagree, fun ms u h hspares => ?_⟩
  obtain ⟨hu, h⟩ := agreeFor_run hs h hspares
  exact hagree u hu h

/-- Another API of the sample publisher on the same exposer. -/
def otherPublication : Command := .publish samplePublisher { sampleApi with name := "tiles" }

/-- An enrolment that asks for the sample API. -/
def otherEnrolment : Command :=
  .onboard { onboarding := { publicKey := "key" }, requested := [.generate "b"] }

/-- After the sample invoker was onboarded another API is published, and another invoker is
onboarded that is granted the same API and has its grants revoked. -/
def otherMoves : List Move := [
  .start 3 otherPublication (.lettered 'd' default),
  .resume 3 (.errand (.ok ())),
  .start 4 otherEnrolment (.lettered 'e' default),
  .resume 4 (.client (.ok ⟨"other", "secret"⟩)),
  .start 5 (.revokeAccess (.generate "e") { apis := [.generate "b"] }) (.lettered 'f' default)]

/-- The moves of others leave what the sample invoker discovers and may call. -/
theorem invoker_isolated_sample :
    ∃ s u, Seen s ∧ Seen u ∧ s.run otherMoves = some u ∧
      RunSpares (.generate "c") s otherMoves ∧ s.core.AgreeFor (.generate "c") u.core ∧
      s.core.SameAnswers (.generate "c") u.core ∧
      u.core.check sampleCall default = .ok .allow := by
  have hrun : (fresh.run sampleGranting).bind (fun s => (s.run otherMoves).map (fun u =>
      (s.core.check sampleCall default, s.core.isGranted (.generate "c") (.generate "d")))) =
      some (.ok .allow, false) := rfl
  obtain ⟨s, hs, h⟩ := Option.bind_eq_some_iff.mp hrun
  obtain ⟨u, hu, h⟩ := Option.map_eq_some_iff.mp h
  obtain ⟨hallow, hnotGranted⟩ := Prod.mk.inj h
  have hspares : RunSpares (.generate "c") s otherMoves := by
    refine ⟨spares_start hnotGranted, fun t ht => ⟨spares_resume ht ?_ _, fun t' _ => ?_⟩⟩
    · have hwaits : (fresh.run (sampleGranting ++
          [.start 3 otherPublication (.lettered 'd' default)])).map (fun t =>
          t.core.isGranted (.generate "c") (.generate "d")) = some false := rfl
      rw [run_concat_eq_some.mpr ⟨s, hs, ht⟩] at hwaits
      exact Option.some.inj hwaits
    · have hother : InvokerId.generate "e" ≠ .generate "c" := by decide
      exact ⟨spares_start hother, fun t ht => ⟨spares_resume ht hother _, fun t' _ =>
        ⟨spares_start hother, fun _ _ => trivial⟩⟩⟩
  obtain ⟨hseen, hagree⟩ := agreeFor_run (seen_run hs) hu hspares
  obtain ⟨hstates, hruns⟩ := invoker_isolated (seen_run hs) (.generate "c")
  have hsame := hstates u hseen hagree
  exact ⟨s, u, seen_run hs, hseen, hu, hspares, hagree, hruns otherMoves u hu hspares,
    (hsame.decisions sampleCall rfl default).trans hallow⟩

end System

end ApiExposure
