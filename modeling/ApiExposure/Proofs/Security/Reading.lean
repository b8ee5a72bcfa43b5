import ApiExposure.Proofs.Security.Contexts
import ApiExposure.Proofs.System.Passage

/-!
# What is read of a security context

A context stays as it was stored until its invoker stores another one, loses
access within a scope or leaves. Nothing that happens to the APIs that it names
touches it, not even their removal in the course of a cascade. A read shows the
context without the credentials that were not asked for; it works on a copy, so
what one reader does not get is still there for the next. Contexts that differ
in such credentials alone cannot be told apart without asking for them.
-/

namespace ApiExposure

namespace SecurityEntry

/-- What is shown of an entry when only some credentials are asked for. -/
structure ShownAs (authentication authorization : Bool) (e f : SecurityEntry) : Prop where
  /-- Credentials for authentication are shown only if asked for. -/
  authenticates : f.authentication = if authentication then e.authentication else none
  /-- So are those for authorization. -/
  authorizes : f.authorization = if authorization then e.authorization else none
  /-- The rest is shown as it is. -/
  rest : { f with authentication := e.authentication, authorization := e.authorization } = e

/-- The entry without credentials for authentication. -/
def withoutAuthentication (e : SecurityEntry) : SecurityEntry := { e with authentication := none }

/-- The entry without credentials for authorization. -/
def withoutAuthorization (e : SecurityEntry) : SecurityEntry := { e with authorization := none }

end SecurityEntry

namespace SecurityContext

/-- What is shown of a context when only some credentials are asked for. -/
structure ShownAs (authentication authorization : Bool) (c d : SecurityContext) : Prop where
  /-- Each entry is shown in its place. -/
  entries : List.Forall₂ (SecurityEntry.ShownAs authentication authorization) c.entries d.entries
  /-- The rest is shown as it is. -/
  rest : { d with entries := c.entries } = c

/-- Two contexts are the same but for what a change takes from their entries. -/
structure SameBut (change : SecurityEntry → SecurityEntry) (c d : SecurityContext) : Prop where
  /-- The changed entries are the same. -/
  entries : c.entries.map change = d.entries.map change
  /-- So are the destinations, -/
  destination : c.destination = d.destination
  /-- and the features. -/
  features : c.features = d.features

variable {authentication authorization : Bool}

/-- A redacted context shows what the marks ask for. -/
theorem shownAs_redacted (c : SecurityContext) :
    c.ShownAs authentication authorization (c.redacted authentication authorization) := by
  refine ⟨?_, rfl⟩
  have hentry : ∀ e ∈ c.entries,
      e.ShownAs authentication authorization (e.redacted authentication authorization) :=
    fun e _ => ⟨rfl, rfl, rfl⟩
  exact List.forall₂_map_right_iff.mpr (List.forall₂_same.mpr hentry)

/-- What a read does not show does not matter to it. -/
theorem SameBut.redacted_eq {change : SecurityEntry → SecurityEntry} {c d : SecurityContext}
    (h : c.SameBut change d)
    (hchange : ∀ e : SecurityEntry, (change e).redacted authentication authorization =
      e.redacted authentication authorization) :
    c.redacted authentication authorization = d.redacted authentication authorization := by
  have hentries : ∀ l : List SecurityEntry,
      l.map (·.redacted authentication authorization) =
        (l.map change).map (·.redacted authentication authorization) := by
    intro l
    rw [List.map_map]
    exact List.map_congr_left fun e _ => (hchange e).symm
  rw [redacted, redacted, hentries, hentries d.entries, h.entries, h.destination, h.features]

end SecurityContext

/-- By success a command stores, cuts or removes the context of an invoker. -/
def Command.RewritesContext (id : InvokerId) : Command → Prop
  | createContext k _ => k = id
  | updateContext k _ => k = id
  | revokeAccess k _ => k = id
  | offboard k => k = id
  | _ => False

namespace Effect

variable {o : Occasion} {c d : Core} {id : InvokerId} {context stored : SecurityContext}

/-- A context that is created is there afterwards as it is returned. -/
theorem get?_of_createContext (h : Effect o (.createContext id context) c (.ok stored) d) :
    d.trusted.table.get? id = some stored := by
  cases h with
  | contextCreated h =>
    obtain ⟨_, rfl⟩ := TrustedInvokers.of_create_eq_ok h
    exact Table.get?_insert_self _ _ _

/-- So is one that replaces another. -/
theorem get?_of_updateContext (h : Effect o (.updateContext id context) c (.ok stored) d) :
    d.trusted.table.get? id = some stored := by
  cases h with
  | contextUpdated h =>
    obtain ⟨_, rfl⟩ := TrustedInvokers.of_update_eq_ok h
    exact Table.get?_insert_self _ _ _

/-- An effect that does not rewrite the context of an invoker leaves it as it is. -/
theorem get?_trusted {command : Command} {r : Outcome command.Result}
    (h : Effect o command c r d)
    (hno : ¬ ((∃ a, r = .ok a) ∧ command.RewritesContext id)) :
    d.trusted.table.get? id = c.trusted.table.get? id := by
  have hother : ∀ {k a}, r = .ok a → (k = id → command.RewritesContext id) → id ≠ k :=
    fun hr hk heq => hno ⟨⟨_, hr⟩, hk heq.symm⟩
  cases h with
  | offboarded h => exact (Table.get?_erase _ _ _).trans (if_neg (hother rfl fun hk => hk))
  | accessRevoked _ _ _ =>
    rw [TrustedInvokers.get?_revoke, if_neg (hother rfl fun hk => hk)]
  | contextCreated h =>
    obtain ⟨_, rfl⟩ := TrustedInvokers.of_create_eq_ok h
    exact Table.get?_insert_of_ne _ _ (hother rfl fun hk => hk)
  | contextUpdated h =>
    obtain ⟨_, rfl⟩ := TrustedInvokers.of_update_eq_ok h
    exact Table.get?_insert_of_ne _ _ (hother rfl fun hk => hk)
  | _ => rfl

end Effect

namespace System

/-- By a move a context is stored for an invoker, created or in place of another one. -/
inductive Stores (s : System) (m : Move) (u : System) (id : InvokerId) (stored : SecurityContext) :
    Prop
  /-- It is created. -/
  | created {context : SecurityContext} {o : Occasion} {f : Flow SecurityContext}
      (h : s.Settles m u ⟨.createContext id context, o, f⟩ (.ok stored))
  /-- It replaces another one. -/
  | updated {context : SecurityContext} {o : Occasion} {f : Flow SecurityContext}
      (h : s.Settles m u ⟨.updateContext id context, o, f⟩ (.ok stored))

/-- By a move a command succeeds that stores, cuts or removes the context of an invoker. -/
def RewritesContext (s : System) (m : Move) (u : System) (id : InvokerId) : Prop :=
  ∃ j a, s.Settles m u j (.ok a) ∧ j.command.RewritesContext id

/-- A system leads to another one, and on the way the context of an invoker is not rewritten. -/
inductive KeepsContext (id : InvokerId) (s : System) : System → Prop
  /-- A system leads to itself. -/
  | refl : KeepsContext id s s
  /-- What leads to a system leads to what this passes to. -/
  | pass {t u : System} {m : Option Move} (h : KeepsContext id s t)
      (hno : ∀ n ∈ m, ¬ t.RewritesContext n u id) (hu : t.Passes m u) : KeepsContext id s u

variable {s t u : System} {m : Move} {id : InvokerId} {stored : SecurityContext}

/-- The invoker has the stored context afterwards. -/
theorem Stores.get? (h : s.Stores m u id stored) (hs : s.Seen) :
    u.core.trusted.table.get? id = some stored := by
  have htracked := hs.tracked_and_wellFormed.1
  cases h with
  | created h => exact (h.effect htracked).get?_of_createContext
  | updated h => exact (h.effect htracked).get?_of_updateContext

theorem Stores.step (h : s.Stores m u id stored) : s.step m = some u := by
  cases h with
  | created h => exact h.step
  | updated h => exact h.step

/-- A passage that does not rewrite the context of an invoker leaves it as it is. -/
theorem Passes.get?_trusted {m : Option Move} (hs : s.Seen) (h : s.Passes m u)
    (hno : ∀ n ∈ m, ¬ s.RewritesContext n u id) :
    u.core.trusted.table.get? id = s.core.trusted.table.get? id := by
  cases h with
  | deregistered _ => rfl
  | invalidated _ _ => rfl
  | @move n _ h =>
    rcases (step_cases hs.tracked_and_wellFormed.1 h).2 with ⟨j, r, hj, he, _⟩ | ⟨hcore, _⟩
    · refine he.get?_trusted ?_
      rintro ⟨⟨a, rfl⟩, hrewrites⟩
      exact hno n rfl ⟨j, a, hj, hrewrites⟩
    · rw [hcore]

namespace KeepsContext

theorem seen (h : KeepsContext id s u) (hs : s.Seen) : u.Seen := by
  induction h with
  | refl => exact hs
  | pass _ _ hu ih => exact ih.pass hu

/-- On the way the context stays. -/
theorem get?_trusted (h : KeepsContext id s u) (hs : s.Seen) :
    u.core.trusted.table.get? id = s.core.trusted.table.get? id := by
  induction h with
  | refl => rfl
  | pass h hno hu ih => exact (hu.get?_trusted (h.seen hs) hno).trans ih

end KeepsContext

/-- Moves of commands that do not rewrite the context of an invoker keep it. -/
theorem keepsContext_of_run {past ms : List Move} (hpast : fresh.run past = some s)
    (h : s.run ms = some u)
    (hno : ∀ n ∈ ms, ∀ command o, .start n.ticket command o ∈ past ++ ms →
      ¬ command.RewritesContext id) : KeepsContext id s u := by
  induction ms using List.reverseRecOn generalizing u with
  | nil =>
    cases h
    exact .refl
  | append_singleton ms m ih =>
    obtain ⟨v, hv, hm⟩ := run_concat_eq_some.mp h
    have hpath : KeepsContext id s v := by
      refine ih hv fun n hn command o hstart => hno n (List.mem_append_left _ hn) command o ?_
      rw [← List.append_assoc]
      exact List.mem_append_left _ hstart
    refine .pass hpath (fun n hn => ?_) (.move hm)
    obtain rfl := Option.some.inj hn
    rintro ⟨j, a, hj, hrewrites⟩
    have hrun : fresh.run (past ++ (ms ++ [m])) = some u := run_append_eq_some.mpr ⟨s, hpast, h⟩
    have hm : m ∈ ms ++ [m] := List.mem_append_right _ (List.mem_singleton_self m)
    exact hno m hm _ _ (start_mem_run hrun hj.job) hrewrites

/-- A start that settles its command at once settles it with the result that it has then. -/
theorem settles_of_start {n : Ticket} {command : Command} {o : Occasion}
    {r : Outcome command.Result} (h : s.step (.start n command o) = some u)
    (hr : (command.start o s.core).Settled r) :
    s.Settles (.start n command o) u ⟨command, o, command.start o s.core⟩ r := by
  obtain ⟨hnew, rfl⟩ := step_start.mp h
  exact ⟨h, jobs_advance_self _ _ _, hr, fun i hi => nomatch hnew.symm.trans hi⟩

/-- A context that can be created is stored when its creation starts. -/
theorem stores_of_createContext {n : Ticket} {context : SecurityContext} {o : Occasion}
    {after : Core} (h : s.core.createContext id context = .ok (stored, after))
    (hu : s.step (.start n (.createContext id context) o) = some u) :
    s.Stores (.start n (.createContext id context) o) u id stored := by
  have hsettled : ((Command.createContext id context).start o s.core).Settled (.ok stored) := by
    rw [Command.start, h]
    rfl
  exact .created (settles_of_start hu hsettled)

/-- A context is read as it was stored: whatever happens after it was stored, short of a command
that rewrites it, a read shows what was returned then but for the credentials that are not asked
for. Without asking for credentials of a kind, contexts that differ in these alone are read the
same. A read leaves all as it is. -/
theorem context_read_as_stored :
    (∀ {s u v : System} {m : Move} {id : InvokerId} {stored : SecurityContext}, s.Seen →
      s.Stores m u id stored → KeepsContext id u v → ∀ (authentication authorization : Bool) o,
        ∃ read, (Command.ask (.context id authentication authorization)).start o v.core =
            .done v.core (.ok read) ∧
          stored.ShownAs authentication authorization read) ∧
    (∀ (c d : Core) (i k : InvokerId) (p q : SecurityContext),
      c.trusted.table.get? i = some p → d.trusted.table.get? k = some q →
      (p.SameBut SecurityEntry.withoutAuthentication q → ∀ authorization now,
        (Query.context i false authorization).answer c now =
          (Query.context k false authorization).answer d now) ∧
      (p.SameBut SecurityEntry.withoutAuthorization q → ∀ authentication now,
        (Query.context i authentication false).answer c now =
          (Query.context k authentication false).answer d now)) ∧
    ∀ (c : Core) id authentication authorization o,
      ((Command.ask (.context id authentication authorization)).start o c).state = c := by
  refine ⟨?_, ?_, fun _ _ _ _ _ => rfl⟩
  · intro s u v m id stored hs hstores hpath authentication authorization o
    have hu : u.Seen := hs.step hstores.step
    have hheld : v.core.trusted.table.get? id = some stored :=
      (hpath.get?_trusted hu).trans (hstores.get? hs)
    refine ⟨stored.redacted authentication authorization, ?_, stored.shownAs_redacted⟩
    rw [Command.start, Query.answer, TrustedInvokers.get, hheld]
  · intro c d i k p q hp hq
    constructor
    · intro h authorization now
      have hread : p.redacted false authorization = q.redacted false authorization :=
        h.redacted_eq fun e => rfl
      rw [Query.answer, Query.answer, TrustedInvokers.get, TrustedInvokers.get, hp, hq]
      exact congrArg Except.ok hread
    · intro h authentication now
      have hread : p.redacted authentication false = q.redacted authentication false :=
        h.redacted_eq fun e => rfl
      rw [Query.answer, Query.answer, TrustedInvokers.get, TrustedInvokers.get, hp, hq]
      exact congrArg Except.ok hread

/-- The sample invoker has credentials of both kinds for the sample API. -/
def credentialContext (password : String) : SecurityContext where
  entries := [{
    api := some (.generate "b")
    interface := some {}
    preferred := [.psk]
    authentication := some password
    authorization := some "token" }]
  destination := "http://a"

/-- The context is stored. -/
def credentialStorage (password : String) : Move :=
  .start 3 (.createContext (.generate "c") (credentialContext password)) (.lettered 'd' default)

/-- The sample API is withdrawn, and then its domain is removed. -/
def publisherGone : List Move := [
  .start 4 (.unpublish samplePublisher (.generate "b")) (.lettered 'e' default),
  .resume 4 (.errand (.ok ())),
  .start 5 (.deregisterProvider (.generate "a")) (.lettered 'f' default)]

/-- When the API is gone its entry is still read, here without the credentials for
authentication; and such a read does not tell one password from another. -/
theorem context_read_as_stored_sample :
    ∃ (s u v w : System) (stored other read : SecurityContext), s.Seen ∧
      s.Stores (credentialStorage "password") u (.generate "c") stored ∧
      KeepsContext (.generate "c") u v ∧ v.core.store.apis.contains (.generate "b") = false ∧
      (Command.ask (.context (.generate "c") false true)).start (.lettered 'g' default) v.core =
        .done v.core (.ok read) ∧
      stored.ShownAs false true read ∧
      s.Stores (credentialStorage "passphrase") w (.generate "c") other ∧ stored ≠ other ∧
      stored.SameBut SecurityEntry.withoutAuthentication other ∧
      (Query.context (.generate "c") false true).answer u.core default =
        (Query.context (.generate "c") false true).answer w.core default := by
  have hrun : (fresh.run sampleGranting).bind (fun s =>
      (s.core.createContext (.generate "c") (credentialContext "password")).toOption.bind (fun r =>
        (s.core.createContext (.generate "c") (credentialContext "passphrase")).toOption.bind
          (fun q => (s.step (credentialStorage "password")).bind (fun u =>
            (s.step (credentialStorage "passphrase")).bind (fun _ =>
              (u.run publisherGone).map (fun v => (v.core.store.apis.contains (.generate "b"),
                [r.1, q.1]))))))) =
      some (false, ["password", "passphrase"].map (fun password =>
        { credentialContext password with
          entries := (credentialContext password).entries.map
            (fun e => { e with selected := some .psk }) })) := by
    decide +kernel
  obtain ⟨s, hs, h⟩ := Option.bind_eq_some_iff.mp hrun
  obtain ⟨⟨stored, after⟩, hcreated, h⟩ := Option.bind_eq_some_iff.mp h
  obtain ⟨⟨other, changed⟩, hchanged, h⟩ := Option.bind_eq_some_iff.mp h
  obtain ⟨u, hu, h⟩ := Option.bind_eq_some_iff.mp h
  obtain ⟨w, hw, h⟩ := Option.bind_eq_some_iff.mp h
  obtain ⟨v, hv, h⟩ := Option.map_eq_some_iff.mp h
  simp only [Prod.mk.injEq, List.map_cons, List.map_nil, List.cons.injEq, and_true] at h
  obtain ⟨habsent, hstored, hother⟩ := h
  have hseen : s.Seen := seen_run hs
  have hstores : s.Stores (credentialStorage "password") u (.generate "c") stored :=
    stores_of_createContext (Outcome.toOption_eq_some_iff.mp hcreated) hu
  have hstoresOther : s.Stores (credentialStorage "passphrase") w (.generate "c") other :=
    stores_of_createContext (Outcome.toOption_eq_some_iff.mp hchanged) hw
  have hpast : fresh.run (sampleGranting ++ [credentialStorage "password"]) = some u :=
    run_concat_eq_some.mpr ⟨s, hs, hu⟩
  have hkeeps : KeepsContext (.generate "c") u v := by
    refine keepsContext_of_run hpast hv fun n hn command o hstart => ?_
    have hticket : n.ticket = 4 ∨ n.ticket = 5 := by
      simp only [publisherGone, List.mem_cons, List.not_mem_nil, or_false] at hn
      rcases hn with rfl | rfl | rfl
      · exact .inl rfl
      · exact .inl rfl
      · exact .inr rfl
    have hcommand : command = .unpublish samplePublisher (.generate "b") ∨
        command = .deregisterProvider (.generate "a") := by
      rcases hticket with hticket | hticket <;> rw [hticket] at hstart <;>
        simp [sampleGranting, sampleSchedule, credentialStorage, publisherGone] at hstart
      · exact .inl hstart.1
      · exact .inr hstart.1
    rcases hcommand with rfl | rfl <;> exact id
  obtain ⟨hreads, hsame, -⟩ := context_read_as_stored
  obtain ⟨read, hread, hshown⟩ :=
    hreads hseen hstores hkeeps false true (.lettered 'g' default)
  have hdiffers : stored ≠ other := by
    rw [hstored, hother]
    decide
  have hbut : stored.SameBut SecurityEntry.withoutAuthentication other := by
    rw [hstored, hother]
    exact ⟨rfl, rfl, rfl⟩
  have hanswers := (hsame u.core w.core (.generate "c") (.generate "c") stored other
    (hstores.get? hseen) (hstoresOther.get? hseen)).1 hbut true default
  exact ⟨s, u, v, w, stored, other, read, hseen, hstores, hkeeps, habsent, hread, hshown,
    hstoresOther, hdiffers, hbut, hanswers⟩

end System

end ApiExposure
