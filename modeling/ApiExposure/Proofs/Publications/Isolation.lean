import ApiExposure.Proofs.Invokers.Offboarding
import ApiExposure.Proofs.Publications.Shares

/-!
# Isolation of publishers

A publisher cannot tell an API of somebody else from one that does not exist: whatever
it asks for about it is refused in the same words, at once and without a call. What it
does to its own APIs leaves those of others as they are and where they are, also when
other commands come between a call and its reply. For then nothing of others is stored
under the identifier that it is at work on: one that is generated is fresh, and one
that stood for its API never stands for an API of another publisher. And what it gets
to see depends on the roles of functions and on its own share of the store, so two
cores with the same share go through the same calls to the same result.
-/

namespace ApiExposure

/-- What can be asked for about one API. -/
inductive ApiUse where
  /-- To read it. -/
  | read
  /-- To patch it. -/
  | update (p : ApiPatch)
  /-- To withdraw it. -/
  | withdraw

namespace ApiUse

/-- The command of a publisher. -/
def command (publisher : FunctionId) (id : ApiId) : ApiUse → Command
  | read => .ask (.api publisher id)
  | update p => .updateApi publisher id p
  | withdraw => .unpublish publisher id

/-- How it is refused when there is no API. A patch is checked for itself first. -/
def refusal (id : ApiId) : ApiUse → Failure
  | update p =>
    match p.validate with
    | .error f => f
    | .ok _ => .notFound (.api id)
  | _ => .notFound (.api id)

/-- It is refused when the identifier stands for nothing of the publisher. -/
theorem isRefused_of_not_own {c : Core} {publisher : FunctionId} {id : ApiId}
    (h : ∀ a, c.store.apis.get? id = some a → a.publisher ≠ publisher) (use : ApiUse) :
    (use.command publisher id).IsRefused c (use.refusal id) := by
  have hget := Publications.getFor_of_not_own h
  intro o
  cases use with
  | read => simp only [command, Command.start, Query.answer, hget, refusal]
  | update p =>
    simp only [command, Command.start, Core.updateApi, Publications.updateFor, Publications.patch,
      hget, refusal]
    cases p.validate <;> rfl
  | withdraw => simp only [command, Command.start, Core.unpublish, hget, refusal]

end ApiUse

namespace Command

/-- A publisher publishes, patches, withdraws or reads its APIs. -/
inductive IsBy (publisher : FunctionId) : Command → Prop
  /-- It publishes one. -/
  | publish (d : ApiDescription) : IsBy publisher (.publish publisher d)
  /-- It patches one. -/
  | updateApi (id : ApiId) (p : ApiPatch) : IsBy publisher (.updateApi publisher id p)
  /-- It withdraws one. -/
  | unpublish (id : ApiId) : IsBy publisher (.unpublish publisher id)
  /-- It reads one. -/
  | api (id : ApiId) : IsBy publisher (.ask (.api publisher id))
  /-- It lists them. -/
  | apis : IsBy publisher (.ask (.apis publisher))

/-- The identifier that a command changes the store under, if it asks a collaborator first. -/
def target? (o : Occasion) : Command → Option ApiId
  | .publish _ _ => some (.generate (o.suffix 0))
  | .unpublish _ id => some id
  | _ => none

end Command

namespace Core

/-- A publisher finds the same in two states: the roles of functions and its own APIs. -/
structure SameFor (publisher : FunctionId) (c d : Core) : Prop where
  /-- Functions have the same roles. -/
  roles : ∀ f, c.providers.roleOf f = d.providers.roleOf f
  /-- The publisher has the same APIs, in the same order. -/
  apis : c.store.listFor publisher = d.store.listFor publisher

/-- A state is in order for a publisher at work on an identifier: the index of names is right, and
nothing of another publisher is stored under the identifier. -/
structure Reserves (publisher : FunctionId) (id : Option ApiId) (c : Core) : Prop where
  /-- The index is right. -/
  indexed : c.store.Indexed
  /-- What is stored is the publisher's. -/
  own : ∀ key ∈ id, ∀ a, c.store.apis.get? key = some a → a.publisher = publisher

end Core

/-- What a command of a publisher does when it takes effect leaves the APIs of all others. -/
theorem Sequel.others_eq {o : Occasion} {command : Command} {report : Option Report} {c d : Core}
    {r : Outcome command.Result} {deeds : List Deed} {publisher : FunctionId}
    (h : Sequel o command report c r d deeds) (hby : command.IsBy publisher)
    (hc : c.store.Indexed)
    (hreserves : report ≠ none → c.Reserves publisher (command.target? o)) :
    d.store.others publisher = c.store.others publisher := by
  cases hby with
  | publish d =>
    cases h with
    | quiet hq _ => cases hq
    | published h =>
      obtain ⟨_, hnew, rfl, rfl⟩ := Publications.publishAs_eq_ok_iff.mp h
      exact Publications.others_add rfl hnew
    | _ => rfl
  | updateApi id p =>
    cases h with
    | quiet hq _ => cases hq
    | patched h =>
      obtain ⟨a, ha, howner, _, _, rfl, rfl⟩ := Publications.of_updateFor_eq_ok h
      have hid : (a.apply p o.now).id = id := hc.keyed id a ha
      refine Publications.others_replace howner fun b hb => ?_
      rw [hid, ha] at hb
      exact Option.some.inj hb ▸ howner
    | _ => rfl
  | unpublish id =>
    cases h with
    | quiet hq _ => cases hq
    | withdrawn h =>
      exact Publications.others_unpublish ((hreserves (by simp)).own id rfl) h
    | _ => rfl
  | api id | apis =>
    cases h with
    | quiet _ h => cases h <;> rfl
    | _ => rfl

namespace Flow

variable {α : Type}

/-- Two flows go alike: they end with the same result, or they stop at the same call and go on
alike after every reply, in any two states that are the same and in order. -/
inductive Alike (same : Core → Core → Prop) (fit : Core → Prop) : Flow α → Flow α → Prop
  /-- Both have ended. -/
  | done {c d : Core} (r : Outcome α) (h : same c d) : Alike same fit (.done c r) (.done d r)
  /-- Both wait for an errand. -/
  | errand {c d : Core} (e : Errand) {next next' : Except Outage Unit → Core → Flow α}
      (h : same c d) (hc : fit c) (hd : fit d)
      (hnext : ∀ reply c d, same c d → fit c → fit d →
        Alike same fit (next reply c) (next' reply d)) :
      Alike same fit (.errand c e next) (.errand d e next')
  /-- Both make a change known. -/
  | announce {c d : Core} (change : Change) {next next' : Core → Flow α} (h : same c d)
      (hnext : ∀ c d, same c d → Alike same fit (next c) (next' d)) :
      Alike same fit (.announce c change next) (.announce d change next')

/-- With nothing else happening, flows that go alike make the same calls and give the same
result, and the states in the end are the same. -/
theorem Alike.perform_recording {σ : Type} {same : Core → Core → Prop} {fit : Core → Prop}
    {f g : Flow α} (h : f.Alike same fit g) (k : Collaborators σ) (memory : σ)
    (record : List Change) :
    ∃ c d r scene, f.perform (.recording k) (memory, record) = ((c, r), scene) ∧
      g.perform (.recording k) (memory, record) = ((d, r), scene) ∧ same c d := by
  induction h generalizing memory record with
  | done r h => exact ⟨_, _, r, _, rfl, rfl, h⟩
  | errand e h hc hd _ ih => exact ih (k.errand e memory).1 _ _ h hc hd (k.errand e memory).2 record
  | announce change h _ ih => exact ih _ _ h memory (record ++ [change])

end Flow

namespace Core

variable {publisher : FunctionId} {c d : Core} {o : Occasion}

/-- Stores that a publisher cannot tell apart may be put in. -/
theorem SameFor.store (h : SameFor publisher c d) {s t : Publications}
    (hst : s.listFor publisher = t.listFor publisher) :
    SameFor publisher { c with store := s } { d with store := t } :=
  ⟨h.roles, hst⟩

/-- A publication goes on in the same way, since its identifier is reserved for the publisher in
both states. -/
theorem publish_alike (hc : c.Reserves publisher (some (.generate (o.suffix 0))))
    (hd : d.Reserves publisher (some (.generate (o.suffix 0)))) (h : SameFor publisher c d)
    (x : ApiDescription) :
    (c.publish publisher x o).Alike (SameFor publisher)
      (Reserves publisher (some (.generate (o.suffix 0)))) (d.publish publisher x o) := by
  rw [publish, publish,
    ← Publications.validate_congr hc.indexed hd.indexed h.apis h.roles]
  cases c.store.validate c.providers publisher x with
  | error f => exact .done _ h
  | ok _ =>
    refine .errand _ h hc hd fun reply c d h hc hd => ?_
    cases reply with
    | error outage => exact .done _ h
    | ok _ =>
      have halike := Publications.publishAs_alike hc.indexed hd.indexed h.apis h.roles
        (hc.own _ rfl) (hd.own _ rfl) x o.now
      dsimp only
      generalize c.store.publishAs c.providers (.generate (o.suffix 0)) publisher x o.now = first
        at halike ⊢
      generalize d.store.publishAs d.providers (.generate (o.suffix 0)) publisher x o.now = second
        at halike ⊢
      cases halike with
      | error f => exact .errand _ h hc hd fun _ _ _ h _ _ => .done _ h
      | ok a hst => exact .announce _ (h.store hst) fun _ _ h => .done _ h

/-- A patch goes on in the same way: an API of the publisher is in both states, and one of others is
missing for it in both. -/
theorem updateApi_alike (hc : c.store.Indexed) (hd : d.store.Indexed) (h : SameFor publisher c d)
    (fit : Core → Prop) (id : ApiId) (p : ApiPatch) (now : Instant) :
    (c.updateApi publisher id p now).Alike (SameFor publisher) fit
      (d.updateApi publisher id p now) := by
  have halike := Publications.updateFor_alike hc.keyed hd.keyed h.apis h.roles id p now
  rw [updateApi, updateApi]
  generalize c.store.updateFor c.providers publisher id p now = first at halike ⊢
  generalize d.store.updateFor d.providers publisher id p now = second at halike ⊢
  cases halike with
  | error f => exact .done _ h
  | ok a hst => exact .announce _ (h.store hst) fun _ _ h => .done _ h

/-- A withdrawal goes on in the same way. An API that it takes out is the publisher's, so its
identifier is reserved. -/
theorem unpublish_alike (hc : c.store.Indexed) (hd : d.store.Indexed)
    (h : SameFor publisher c d) (id : ApiId) :
    (c.unpublish publisher id).Alike (SameFor publisher) (Reserves publisher (some id))
      (d.unpublish publisher id) := by
  have hget := Publications.getFor_congr hc.keyed hd.keyed h.apis id
  rw [unpublish, unpublish, ← hget]
  cases ha : c.store.getFor publisher id with
  | error f => exact .done _ h
  | ok a =>
    have hreserves : ∀ {e : Core}, e.store.Indexed → e.store.getFor publisher id = .ok a →
        e.Reserves publisher (some id) := by
      intro e he hea
      obtain ⟨hstored, howner⟩ := Publications.getFor_eq_ok_iff.mp hea
      refine ⟨he, fun key hkey b hb => ?_⟩
      obtain rfl := Option.mem_some.mp hkey
      rw [hstored] at hb
      exact Option.some.inj hb ▸ howner
    refine .errand _ h (hreserves hc ha) (hreserves hd (hget ▸ ha)) fun reply c d h hc hd => ?_
    cases reply with
    | error outage => exact .done _ h
    | ok _ =>
      have halike := Publications.unpublish_alike hc.indexed.keyed hd.indexed.keyed h.apis
        (hc.own id rfl) (hd.own id rfl)
      dsimp only
      generalize c.store.unpublish id = first at halike ⊢
      generalize d.store.unpublish id = second at halike ⊢
      cases halike with
      | error f => exact .done _ h
      | ok a hst => exact .announce _ (h.store hst) fun _ _ h => .done _ h

/-- What a publisher asks for goes alike in states that are the same for it, provided that what it
publishes gets an identifier that stands for nothing of others. -/
theorem alike_of_isBy {command : Command} (hby : command.IsBy publisher) (hc : c.store.Indexed)
    (hd : d.store.Indexed) (h : SameFor publisher c d)
    (hnewC : c.store.apis.get? (.generate (o.suffix 0)) = none)
    (hnewD : d.store.apis.get? (.generate (o.suffix 0)) = none) :
    (command.start o c).Alike (SameFor publisher) (Reserves publisher (command.target? o))
      (command.start o d) := by
  have hreserves : ∀ {e : Core}, e.store.Indexed →
      e.store.apis.get? (.generate (o.suffix 0)) = none →
      e.Reserves publisher (some (.generate (o.suffix 0))) := by
    intro e he hnew
    refine ⟨he, fun key hkey a ha => ?_⟩
    rw [← Option.mem_some.mp hkey, hnew] at ha
    cases ha
  cases hby with
  | publish x => exact publish_alike (hreserves hc hnewC) (hreserves hd hnewD) h x
  | updateApi id p => exact updateApi_alike hc hd h _ id p o.now
  | unpublish id => exact unpublish_alike hc hd h id
  | api id =>
    simp only [Command.start, Query.answer, Publications.getFor_congr hc.keyed hd.keyed h.apis id]
    exact .done _ h
  | apis =>
    have hlist : c.listApis publisher = d.listApis publisher := by
      simp only [listApis, Providers.requirePublisher, h.roles, h.apis]
    simp only [Command.start, Query.answer, hlist]
    exact .done _ h

end Core

namespace System

variable {s u : System} {m : Option Move} {publisher : FunctionId} {id : ApiId}

/-- An identifier is spent and stands for nothing but an API of the publisher. -/
def HeldBy (s : System) (publisher : FunctionId) (id : ApiId) : Prop :=
  s.Spent id ∧ ∀ a, s.core.store.apis.get? id = some a → a.publisher = publisher

/-- With fresh identifiers it stays so. -/
theorem HeldBy.pass (hseen : s.Seen) (ho : s.Orderly) (hs : s.HeldBy publisher id)
    (hfresh : ∀ n ∈ m, s.Admits n) (h : s.Passes m u) : u.HeldBy publisher id := by
  refine ⟨hs.1.pass h, fun b hb => ?_⟩
  obtain ⟨a, ha, hab⟩ := hs.1.stored_of_pass hseen ho hfresh h hb
  exact hab.symm.trans (hs.2 a ha)

/-- Every withdrawal that waits is of an identifier that is held by its publisher. -/
def Withdrawing (s : System) : Prop :=
  ∀ t j publisher id, s.jobs t = some j → ¬ j.IsSettled → j.command = .unpublish publisher id →
    s.HeldBy publisher id

/-- A withdrawal that is open after a move has just started, with its API in the store, or was open
before. -/
theorem open_of_step {m : Move} (h : s.step m = some u) {t : Ticket} {j : Job}
    (hj : u.jobs t = some j) (hopen : ¬ j.IsSettled)
    (hcommand : j.command = .unpublish publisher id) :
    (∃ a, s.core.store.apis.get? id = some a ∧ a.publisher = publisher) ∨
      ∃ i, s.jobs t = some i ∧ ¬ i.IsSettled ∧ i.command = .unpublish publisher id := by
  by_cases ht : t = m.ticket
  · subst ht
    cases m with
    | start t command o =>
      obtain ⟨_, rfl⟩ := step_start.mp h
      rw [Move.ticket, jobs_advance_self] at hj
      cases hj
      obtain rfl : command = .unpublish publisher id := hcommand
      cases ha : s.core.store.getFor publisher id with
      | error f =>
        refine absurd ⟨.error f, ?_⟩ hopen
        simp only [Command.start, Core.unpublish, ha]
        rfl
      | ok a => exact .inl ⟨a, Publications.getFor_eq_ok_iff.mp ha⟩
    | resume t reply =>
      obtain ⟨i, f, hi, hf, rfl⟩ := step_resume.mp h
      rw [Move.ticket, jobs_advance_self] at hj
      cases hj
      refine .inr ⟨i, hi, ?_, hcommand⟩
      rintro ⟨r, hr⟩
      exact hopen ⟨r, (hr.resume hf).2⟩
  · exact .inr ⟨j, (jobs_step_of_ne h ht).symm.trans hj, hopen, hcommand⟩

/-- A withdrawal that waits along a passage waits for an API of its publisher. -/
theorem Withdrawing.pass (hseen : s.Seen) (ho : s.Orderly) (hspent : s.StoreSpent)
    (hs : s.Withdrawing) (hfresh : ∀ n ∈ m, s.Admits n) (h : s.Passes m u) : u.Withdrawing := by
  intro t j publisher id hj hopen hcommand
  have hbefore : s.HeldBy publisher id := by
    cases h with
    | move h =>
      rcases open_of_step h hj hopen hcommand with ⟨a, ha, rfl⟩ | ⟨i, hi, hopen, hcommand⟩
      · exact ⟨hspent id a ha, fun b hb => congrArg _ (Option.some.inj (hb.symm.trans ha))⟩
      · exact hs t i publisher id hi hopen hcommand
    | deregistered _ => exact hs t j publisher id hj hopen hcommand
    | invalidated _ _ => exact hs t j publisher id hj hopen hcommand
  exact hbefore.pass hseen ho hfresh h

/-- What the isolation of publishers rests on along a run. -/
structure Housed (s : System) : Prop where
  /-- It may be seen. -/
  seen : s.Seen
  /-- Identifiers are fresh. -/
  orderly : s.Orderly
  /-- Commands do what they planned. -/
  planned : s.Planned
  /-- What is stored has a spent identifier. -/
  spent : s.StoreSpent
  /-- Withdrawals are of identifiers that are held. -/
  withdrawing : s.Withdrawing

/-- In every state that may be seen, what commands work on is reserved. -/
theorem Precedes.housed (h : fresh.Precedes s) : s.Housed := by
  have hkept := h.invariant (P := fun v => v.StoreSpent ∧ v.Withdrawing) .fresh orderly_fresh
    ⟨fun _ _ ha => (nomatch ha), fun _ _ _ _ hj => (nomatch hj)⟩
    fun _ _ _ hv ho hs hfresh hpass => ⟨hs.1.pass hv hpass, hs.2.pass hv ho hs.1 hfresh hpass⟩
  exact ⟨h.seen .fresh, h.orderly orderly_fresh, h.planned, h.storeSpent, hkept.2⟩

/-- While a command of a publisher waits, what it works on is reserved. -/
theorem Housed.reserves (hs : s.Housed) {t : Ticket} {j : Job} (hj : s.jobs t = some j)
    (hopen : ¬ j.IsSettled) (hby : j.command.IsBy publisher) :
    s.core.Reserves publisher (j.command.target? j.occasion) := by
  refine ⟨hs.seen.reachable.indexed, ?_⟩
  have hwaits := (hs.orderly.tracked t j hj).resolve_left hopen
  obtain ⟨command, o, flow⟩ := j
  cases hby with
  | publish d =>
    intro key hkey a ha
    obtain rfl := Option.mem_some.mp hkey
    obtain ⟨v, i, hi, hsettled, he⟩ := hs.spent _ a ha
    have hv : t ≠ v := by
      rintro rfl
      exact hopen (Option.some.inj (hj.symm.trans hi) ▸ hsettled)
    exact absurd (ApiId.generate_injective he) (hs.orderly.apart t v _ i hv hj hi 0 0)
  | unpublish id =>
    intro key hkey
    obtain rfl := Option.mem_some.mp hkey
    exact (hs.withdrawing t _ publisher id hj hopen rfl).2
  | _ => cases hwaits.asksFirst

/-- A publisher is isolated from all others. -/
structure Isolates (s : System) (publisher : FunctionId) : Prop where
  /-- About an API of somebody else it is told what it is told about one that does not exist. -/
  refused : ∀ id a, s.core.store.apis.get? id = some a → a.publisher ≠ publisher →
    ∀ use : ApiUse, (use.command publisher id).IsRefused s.core (use.refusal id) ∧
      ∀ (c : Core) (key : ApiId), c.store.apis.get? key = none →
        (use.command publisher key).IsRefused c (use.refusal key)
  /-- By no move of its commands the APIs of others change or get out of order. -/
  frame : ∀ m u j, s.step m = some u → u.jobs m.ticket = some j → j.command.IsBy publisher →
    u.core.store.others publisher = s.core.store.others publisher
  /-- While its commands wait, what they work on is reserved for it. -/
  reserved : ∀ t j, s.jobs t = some j → ¬ j.IsSettled → j.command.IsBy publisher →
    s.core.Reserves publisher (j.command.target? j.occasion)
  /-- Its commands go alike in another core that is the same for it, with other APIs of others. -/
  alike : ∀ t : System, fresh.Precedes t → s.core.SameFor publisher t.core →
    ∀ (command : Command) (o : Occasion), command.IsBy publisher →
      s.core.store.apis.get? (.generate (o.suffix 0)) = none →
      t.core.store.apis.get? (.generate (o.suffix 0)) = none →
      (command.start o s.core).Alike (Core.SameFor publisher)
          (Core.Reserves publisher (command.target? o)) (command.start o t.core) ∧
        ∀ {σ : Type} (k : Collaborators σ) (memory : σ) (record : List Change),
          ∃ (c d : Core) (r : Outcome command.Result) (scene : σ × List Change),
            (command.start o s.core).perform (.recording k) (memory, record) = ((c, r), scene) ∧
            (command.start o t.core).perform (.recording k) (memory, record) = ((d, r), scene) ∧
            c.SameFor publisher d

/-- Publishers are isolated: in every state that may be seen when identifiers are fresh, what a
publisher asks for about APIs of others is refused as for APIs that do not exist, what it does
leaves the APIs of others as they are, and what it is answered does not depend on them. -/
theorem publishers_isolated (h : fresh.Precedes s) (publisher : FunctionId) :
    s.Isolates publisher where
  refused := by
    intro id a ha howner use
    constructor
    · refine use.isRefused_of_not_own fun b hb => ?_
      rwa [← Option.some.inj (ha.symm.trans hb)]
    · intro c key hnone
      refine use.isRefused_of_not_own fun b hb => ?_
      rw [hnone] at hb
      cases hb
  frame := by
    intro m u j hstep hj hby
    have hs := h.housed
    have hindexed := hs.seen.reachable.indexed
    cases turn_of_step hs.planned hs.seen.tracked_and_wellFormed.2 hstep with
    | waits hwaits => rw [hwaits.core]
    | proceeds hproceeds => rw [hproceeds.core]
    | @settles i r deeds hsettles _ sequel =>
      obtain rfl : i = j := Option.some.inj (hsettles.job.symm.trans hj)
      refine sequel.others_eq hby hindexed fun hreport => ?_
      cases m with
      | start t command o => exact absurd rfl hreport
      | resume t reply =>
        obtain ⟨k, f, hk, _, rfl⟩ := step_resume.mp hstep
        rw [Move.ticket, jobs_advance_self] at hj
        cases hj
        have hreserves := hs.reserves hk (hsettles.unsettled k hk) hby
        exact hreserves
  reserved := fun _ _ hj hopen hby => h.housed.reserves hj hopen hby
  alike := by
    intro t ht hsame command o hby hnewS hnewT
    have halike := Core.alike_of_isBy hby h.housed.seen.reachable.indexed
      ht.housed.seen.reachable.indexed hsame hnewS hnewT
    exact ⟨halike, fun k memory record => halike.perform_recording k memory record⟩

/-- The publisher of the sample domain when the letter is `b`. -/
def otherPublisher : FunctionId := .generate .publisher "bb"

/-- Two publishers publish the sample API, and the second is about to withdraw its own. -/
def twoPublishers : List Move := [
  .start 0 (.registerProvider sampleDomain) (.lettered 'a' default),
  .start 1 (.registerProvider sampleDomain) (.lettered 'b' default),
  .start 2 (.publish samplePublisher sampleApi) (.lettered 'c' default),
  .resume 2 (.errand (.ok ())),
  .start 3 (.publish otherPublisher sampleApi) (.lettered 'd' default),
  .resume 3 (.errand (.ok ())),
  .start 4 (.unpublish otherPublisher (.generate "d")) (.lettered 'e' default)]

theorem freshIds_twoPublishers : FreshIds twoPublishers :=
  .of_letters ['a', 'b', 'c', 'd', 'e'] (by decide) rfl

/-- The second publisher is isolated with the API of the first beside its own. -/
theorem publishers_isolated_sample :
    ∃ s : System, fresh.Precedes s ∧
      s.core.store.apis.values.map (fun a => (a.id, a.publisher)) =
        [(.generate "c", samplePublisher), (.generate "d", otherPublisher)] ∧
      s.Isolates otherPublisher := by
  have hstored : (fresh.run twoPublishers).map (fun s =>
      s.core.store.apis.values.map (fun a => (a.id, a.publisher))) =
      some [(.generate "c", samplePublisher), (.generate "d", otherPublisher)] := by
    decide +kernel
  obtain ⟨s, hs, hstored⟩ := Option.map_eq_some_iff.mp hstored
  have hprecedes : fresh.Precedes s :=
    precedes_of_run (show FreshIds ([] ++ twoPublishers) from freshIds_twoPublishers) rfl hs
  exact ⟨s, hprecedes, hstored, publishers_isolated hprecedes otherPublisher⟩

end System

end ApiExposure
