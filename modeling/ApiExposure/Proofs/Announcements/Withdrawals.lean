import ApiExposure.Proofs.Announcements.Updates
import ApiExposure.Proofs.Invokers.Offboarding
import ApiExposure.Proofs.Publications.Fallout

/-!
# Whom withdrawals name

The withdrawal of an API names the exposers of the copy of the API that the removal
hands over. A command that withdraws the API, and the removal of its publisher's
domain, hand it over as it was. The removal of a domain that has all its exposers
takes these out first and hands over what is left, so the withdrawal names none. A
filter takes an event that names no exposers whatever exposers the filter lists, and
so subscribers are told of such a withdrawal who asked for other exposers only.
-/

namespace ApiExposure

/-- A filter list takes identifiers when it is empty or has them all. -/
theorem IdLists.allListed_iff {α : Type} [BEq α] [LawfulBEq α] {allowed ids : List α} :
    allListed allowed ids = true ↔ (allowed ≠ [] → ∀ id ∈ ids, id ∈ allowed) := by
  cases allowed <;> simp [allListed]

/-- Whoever is notified of an event has these exposers in each filter that lists any. -/
def Subscriptions.Minds (r : Subscriptions) (e : Event) (exposers : List FunctionId) : Prop :=
  ∀ destination n s, (destination, n) ∈ r.notificationsFor e → r.get? n.subscription = some s →
    ∀ f ∈ s.filters, f.exposers ≠ [] → ∀ x ∈ exposers, x ∈ f.exposers

/-- Notifications mind the exposers that an event names. -/
theorem Subscriptions.minds_exposers (r : Subscriptions) (e : Event) :
    r.Minds e e.detail.exposers := by
  intro destination n s hn hs f hf
  obtain ⟨⟨id, entry⟩, hentry, heq⟩ := List.mem_map.mp hn
  obtain ⟨hheld, hmatches⟩ := List.mem_filter.mp hentry
  obtain ⟨rfl, rfl⟩ := Prod.mk.inj heq
  obtain ⟨held, hget, rfl⟩ := Option.map_eq_some_iff.mp hs
  obtain rfl : entry = held := Option.some.inj ((Table.get?_eq_some_iff.mpr hheld).symm.trans hget)
  rw [EventSubscription.matchesEvent, Bool.and_eq_true, List.all_eq_true] at hmatches
  have haccepts := hmatches.2 f hf
  rw [IdLists.accepts, Bool.and_eq_true] at haccepts
  exact IdLists.allListed_iff.mp haccepts.2

/-- A matching subscription that lists other exposers is notified all the same. -/
theorem Subscriptions.not_minds_of_mem {r : Subscriptions} {e : Event} {exposers : List FunctionId}
    {id : SubscriptionId} {entry : SubscriptionEntry} (hentry : (id, entry) ∈ r.table.entries)
    (hmatches : entry.subscription.matchesEvent e = true) {f : EventFilter}
    (hf : f ∈ entry.subscription.filters) (hlisted : f.exposers ≠ []) {x : FunctionId}
    (hx : x ∈ exposers) (hother : x ∉ f.exposers) : ¬ r.Minds e exposers := by
  intro h
  have hnotified : (entry.subscription.destination, Notification.ofEvent id e) ∈
      r.notificationsFor e :=
    List.mem_map.mpr ⟨(id, entry), List.mem_filter.mpr ⟨hentry, hmatches⟩, rfl⟩
  have hget : r.get? (Notification.ofEvent id e).subscription = some entry.subscription :=
    Option.map_eq_some_iff.mpr ⟨entry, Table.get?_eq_some_iff.mpr hentry, rfl⟩
  exact hother (h _ _ _ hnotified hget f hf hlisted x hx)

/-- A registry with one subscription, for events of one kind and one exposer. -/
def Subscriptions.single (kind : EventKind) (exposer : FunctionId) : Subscriptions where
  table := Table.empty.insert (.forSubscriber "" 1)
    ⟨"", { events := [kind], destination := "", filters := [{ exposers := [exposer] }] }⟩
  sequence := 1

/-- An event that names no exposer gets past its filter. -/
theorem Subscriptions.not_minds_single {e : Event} (he : e.detail.exposers = [])
    {exposers : List FunctionId} {x y : FunctionId} (hx : x ∈ exposers) (hne : x ≠ y) :
    ¬ (single e.kind y).Minds e exposers := by
  refine not_minds_of_mem (List.mem_singleton_self _) ?_ (List.mem_singleton_self _)
    (List.cons_ne_nil _ _) hx (by simpa using hne)
  simp [EventSubscription.matchesEvent, IdLists.accepts, IdLists.allListed, he]

/-- A sound description has an exposer, which is not blank. -/
theorem ApiDescription.Sound.exists_exposer {d : ApiDescription} (h : d.Sound) :
    ∃ e ∈ d.exposers, Text.isBlank e.text = false := by
  obtain ⟨p, hp⟩ := List.exists_mem_of_ne_nil _ h.profiles.nonempty
  exact ⟨p.exposer, ApiDescription.mem_exposers.mpr ⟨p, hp, rfl⟩, h.profiles.named p hp⟩

/-- The command removes the domain that has all exposers of an API and not its publisher. -/
def Command.Strands (c : Core) (a : PublishedApi) (command : Command) : Prop :=
  ∃ id functions providers, command = .deregisterProvider id ∧
    c.providers.deregister id = .ok (functions, providers) ∧ a.publisher ∉ functions ∧
      ∀ e ∈ a.description.exposers, e ∈ functions

/-- Changes make known once that an API is withdrawn, and name these exposers. -/
def Change.WithdrawnOnce (changes : List Change) (id : ApiId) (exposers : List FunctionId) : Prop :=
  changes.filter (fun change => id ∈ Roll.apis.leaves change) =
    [⟨.apiUnavailable, { apis := [id], exposers }⟩]

/-- What has a key of its own is found by it alone. -/
theorem filter_key_eq {α β : Type} [DecidableEq β] {key : α → β} {l : List α} {a : α}
    (hl : (l.map key).Nodup) (ha : a ∈ l) : l.filter (fun b => key b = key a) = [a] := by
  induction l with
  | nil => cases ha
  | cons b l ih =>
    rw [List.map_cons, List.nodup_cons] at hl
    rcases List.mem_cons.mp ha with rfl | ha
    · have hrest : l.filter (fun b => key b = key a) = [] := by
        refine List.filter_eq_nil_iff.mpr fun b hb hkey => hl.1 ?_
        exact List.mem_map.mpr ⟨b, hb, of_decide_eq_true hkey⟩
      rw [List.filter_cons_of_pos (by simp), hrest]
    · have hne : key b ≠ key a := fun hkey => hl.1 (List.mem_map.mpr ⟨a, ha, hkey.symm⟩)
      rw [List.filter_cons_of_neg (by simpa using hne), ih hl.2 ha]

namespace Publications

variable {s : Publications} {a : PublishedApi}

/-- A cascade makes the withdrawal of each API that goes known once. -/
theorem WellFormed.withdrawnOnce (hs : s.WellFormed) (removed : List FunctionId) (now : Instant)
    (ha : s.apis.get? a.id = some a) (hg : a.GoesWith removed) :
    Change.WithdrawnOnce (Deed.changes (s.invalidate removed now).2.deeds) a.id
      (if a.publisher ∈ removed then a.description.exposers else []) := by
  have hids : ((s.apis.values.filter (PublishedApi.GoesWith removed)).map (·.id)).Nodup :=
    (nodup_ids hs.keyed).sublist (List.filter_sublist.map _)
  have hmem : a ∈ s.apis.values.filter (PublishedApi.GoesWith removed) :=
    List.mem_filter.mpr ⟨Table.mem_values_iff.mpr ⟨_, ha⟩, by simpa using hg⟩
  have hleaves : ∀ b : PublishedApi, (a.id ∈ Roll.apis.leaves (b.withdrawal removed)) ↔
      b.id = a.id := fun b => List.mem_singleton.trans eq_comm
  have hupdates : ∀ b : PublishedApi, Roll.apis.leaves (.ofApi .apiUpdated b) = [] := fun _ => rfl
  rw [Change.WithdrawnOnce, hs.changes_invalidate, List.filter_append, List.filter_map,
    List.filter_map]
  simp only [Function.comp_def, hleaves, hupdates, List.not_mem_nil, decide_false,
    List.filter_false, List.map_nil, List.append_nil]
  rw [filter_key_eq hids hmem]
  rfl

end Publications

namespace Sequel

variable {o : Occasion} {command : Command} {report : Option Report} {c d : Core}
  {r : Outcome command.Result} {deeds : List Deed} {a : PublishedApi}

/-- A command by which an API goes makes its withdrawal known once, with its exposers unless it
strands the API. -/
theorem withdrawnOnce (h : Sequel o command report c r d deeds) (hc : c.store.WellFormed)
    (ha : c.store.apis.get? a.id = some a) (hgone : d.store.apis.get? a.id = none) :
    (command.Strands c a ∧ Change.WithdrawnOnce (Deed.changes deeds) a.id []) ∨
      (¬ command.Strands c a ∧
        Change.WithdrawnOnce (Deed.changes deeds) a.id a.description.exposers) := by
  have hstored : c.store.apis.get? a.id ≠ none := by simp [ha]
  cases h with
  | quiet hq h => exact absurd (h.store_eq_of_isQuiet hq ▸ hgone) hstored
  | @removed c id functions providers h =>
    have hg : a.GoesWith functions := by
      have hsurvivor : a.survivor functions o.now = none := by
        rw [hc.get?_invalidate, ha] at hgone
        exact hgone
      rw [PublishedApi.survivor_eq_ite] at hsurvivor
      by_contra hg
      rw [if_neg hg] at hsurvivor
      cases hsurvivor
    have honce := hc.withdrawnOnce functions o.now ha hg
    by_cases hp : a.publisher ∈ functions
    · rw [if_pos hp] at honce
      refine .inr ⟨?_, honce⟩
      rintro ⟨_, _, _, hsame, hfunctions, hnot, _⟩
      cases hsame
      rw [h] at hfunctions
      cases hfunctions
      exact hnot hp
    · rw [if_neg hp] at honce
      exact .inl ⟨⟨id, functions, providers, rfl, h, hp, hg.resolve_left hp⟩, honce⟩
  | published h =>
    obtain ⟨_, _, _, rfl⟩ := Publications.publishAs_eq_ok_iff.mp h
    rw [Publications.get?_add] at hgone
    split at hgone
    · cases hgone
    · exact absurd hgone hstored
  | patched h =>
    obtain ⟨_, _, _, _, _, rfl, rfl⟩ := Publications.of_updateFor_eq_ok h
    rw [Publications.get?_replace] at hgone
    split at hgone
    · cases hgone
    · exact absurd hgone hstored
  | @withdrawn c publisher id b store h =>
    obtain ⟨hb, hstore⟩ := Publications.of_unpublish_eq_ok h
    obtain rfl : a.id = id := by
      by_contra hne
      rw [hstore, Table.get?_erase, if_neg hne] at hgone
      exact hstored hgone
    obtain rfl : a = b := Option.some.inj (ha.symm.trans hb)
    have hleaves : a.id ∈ Roll.apis.leaves (.ofApi .apiUnavailable a) := List.mem_singleton_self _
    refine .inr ⟨?_, List.filter_cons_of_pos (by simpa using hleaves)⟩
    rintro ⟨_, _, _, hsame, _⟩
    cases hsame
  | _ => exact absurd hgone hstored

end Sequel

namespace System

variable {s u v : System} {m : Move} {ms : List Move} {a : PublishedApi}

/-- In every state that may be seen the jobs are planned. -/
theorem Seen.planned (hs : s.Seen) : s.Planned := by
  induction hs with
  | fresh => exact fun _ _ hj => nomatch hj
  | step hs h ih => exact ih.pass hs (.move h)
  | deregistered hs h ih => exact ih.pass hs (.deregistered h)
  | invalidated hs functions now ih => exact ih.pass hs (.invalidated functions now)

/-- What a command owes has been made known when the system is idle. -/
theorem owed_sublist_changes (hs : s.Seen) (h : s.run ms = some v) (hv : v.Idle) (t : Ticket) :
    (s.owed t).Sublist (s.changes ms) := by
  induction ms generalizing s with
  | nil =>
    obtain rfl := Option.some.inj h
    rw [hv.owed hs.planned]
    exact List.nil_sublist _
  | cons m ms ih =>
    obtain ⟨u, hu, hrest⟩ := run_cons_eq_some.mp h
    have hlater := ih (hs.step hu) hrest
    have hchanges : s.changes (m :: ms) = (u.change? m).toList ++ u.changes ms := by
      rw [changes, record, hu]
      rfl
    rw [hchanges]
    by_cases ht : t = m.ticket
    · subst ht
      cases turn_of_step hs.planned hs.tracked_and_wellFormed.2 hu with
      | waits hwaits => exact hwaits.owed.2 ▸ hlater.trans (List.sublist_append_right _ _)
      | settles hsettles hdoes _ =>
        rw [(hsettles.owed hs.planned hdoes).1]
        exact List.nil_sublist _
      | proceeds hproceeds =>
        rw [hproceeds.owed]
        exact (List.Sublist.refl _).append hlater
    · rw [← owed_of_ne hu ht]
      exact hlater.trans (List.sublist_append_right _ _)

/-- By a move an API goes. -/
structure Drops (s : System) (m : Move) (u : System) (a : PublishedApi) : Prop where
  /-- The move is made. -/
  step : s.step m = some u
  /-- The API is stored before. -/
  before : s.core.store.apis.get? a.id = some a
  /-- It is not afterwards. -/
  after : u.core.store.apis.get? a.id = none

/-- The changes that the command of a move makes known with the move and after it. -/
def tells (u : System) (m : Move) : List Change := (u.change? m).toList ++ u.owed m.ticket

/-- A command by which an API goes takes effect then. -/
theorem Drops.sequel (hs : s.Seen) (h : s.Drops m u a) :
    ∃ (j : Job) (r : Outcome j.command.Result) (deeds : List Deed), u.jobs m.ticket = some j ∧
      Sequel j.occasion j.command (s.report? m) s.core r u.core deeds ∧
        u.tells m = Deed.changes deeds := by
  have hstored : s.core.store.apis.get? a.id ≠ none := by simp [h.before]
  cases turn_of_step hs.planned hs.tracked_and_wellFormed.2 h.step with
  | waits hwaits => exact absurd (hwaits.core ▸ h.after) hstored
  | proceeds hproceeds => exact absurd (hproceeds.core ▸ h.after) hstored
  | @settles j r deeds hsettles hdoes hsequel =>
    exact ⟨j, r, deeds, hsettles.job, hsequel, (hsettles.owed hs.planned hdoes).2.symm⟩

/-- Withdrawals name the exposers, but for one kind of removal. When an API goes in a state that may
be seen, its command makes the withdrawal known once, by the time nothing is left to do. The
withdrawal names the exposers that the API had, and only subscribers hear of it whose filters have
all of these, exactly when the command does not remove the domain of all exposers and leave the
publisher; if it does, the withdrawal names none. -/
theorem withdrawal_names_exposers_iff (hs : s.Seen) (h : s.Drops m u a) :
    ∃ j exposers, u.jobs m.ticket = some j ∧
      Change.WithdrawnOnce (u.tells m) a.id exposers ∧
      (∀ ms v, u.run ms = some v → v.Idle →
        (u.tells m).Sublist ((u.change? m).toList ++ u.changes ms)) ∧
      (exposers = a.description.exposers ↔ ¬ j.command.Strands s.core a) ∧
      (j.command.Strands s.core a → exposers = []) ∧
      ((∀ (r : Subscriptions) id timestamp,
        r.Minds (.ofChange id timestamp ⟨.apiUnavailable, { apis := [a.id], exposers }⟩)
          a.description.exposers) ↔ ¬ j.command.Strands s.core a) := by
  obtain ⟨j, r, deeds, hj, hsequel, htells⟩ := h.sequel hs
  have hwell := hs.tracked_and_wellFormed.2
  have hknown : ∀ ms v, u.run ms = some v → v.Idle →
      (u.tells m).Sublist ((u.change? m).toList ++ u.changes ms) := fun ms v hv hidle =>
    (List.Sublist.refl _).append (owed_sublist_changes (hs.step h.step) hv hidle _)
  rcases hsequel.withdrawnOnce hwell h.before h.after with ⟨hstrands, honce⟩ | ⟨hnot, honce⟩
  · obtain ⟨y, hy, hnamed⟩ := (hwell a.id a h.before).sound.exists_exposer
    have hnil : [] ≠ a.description.exposers := (List.ne_nil_of_mem hy).symm
    have hne : y ≠ ⟨""⟩ := by
      rintro rfl
      exact absurd hnamed (by decide)
    refine ⟨j, _, hj, htells ▸ honce, hknown, iff_of_false hnil (not_not_intro hstrands),
      fun _ => rfl, iff_of_false (fun hminds => ?_) (not_not_intro hstrands)⟩
    exact Subscriptions.not_minds_single rfl hy hne (hminds _ default default)
  · refine ⟨j, _, hj, htells ▸ honce, hknown, ?_, fun hstrands => absurd hstrands hnot, ?_⟩
    · simp [hnot]
    · exact iff_of_true (fun r _ _ => r.minds_exposers _) hnot

/-- The removal of the sample domain in a run. -/
def domainRemoval : Move := .start 4 (.deregisterProvider (.generate "a")) (.lettered 'e' default)

/-- If a stored API is not stored any more after the removal of the sample domain, it goes by this
move. -/
theorem drops_domainRemoval (ms : List Move) (id : ApiId) (exposers : List FunctionId)
    (changes : List Change) (h : (fresh.run ms).bind (fun s => (s.step domainRemoval).map (fun u =>
      ((s.core.store.apis.get? id).map (fun a => (a.id, a.description.exposers)),
        (u.core.store.apis.get? id).isNone, u.tells domainRemoval))) =
      some (some (id, exposers), true, changes)) :
    ∃ s u a, fresh.run ms = some s ∧ s.Drops domainRemoval u a ∧ a.id = id ∧
      a.description.exposers = exposers ∧ u.tells domainRemoval = changes := by
  obtain ⟨s, hs, h⟩ := Option.bind_eq_some_iff.mp h
  obtain ⟨u, hu, h⟩ := Option.map_eq_some_iff.mp h
  obtain ⟨hbefore, h⟩ := Prod.mk.inj h
  obtain ⟨hafter, htells⟩ := Prod.mk.inj h
  obtain ⟨a, ha, h⟩ := Option.map_eq_some_iff.mp hbefore
  obtain ⟨rfl, rfl⟩ := Prod.mk.inj h
  exact ⟨s, u, a, hs, ⟨hu, ha, Option.isNone_iff_eq_none.mp hafter⟩, rfl, rfl, htells⟩

/-- The sample domain has the publisher of the sample API too, and the withdrawal names the
exposer. -/
theorem withdrawal_names_exposers_iff_sample :
    ∃ (s u : System) (a : PublishedApi) (j : Job), s.Seen ∧ s.Drops domainRemoval u a ∧
      u.jobs domainRemoval.ticket = some j ∧ ¬ j.command.Strands s.core a ∧
      a.description.exposers = [.generate .exposer "aaa"] ∧
      Change.WithdrawnOnce (u.tells domainRemoval) a.id [.generate .exposer "aaa"] := by
  obtain ⟨s, u, a, hs, hdrops, hid, hexposers, htells⟩ :=
    drops_domainRemoval sampleSchedule (.generate "b") [.generate .exposer "aaa"]
      [⟨.apiUnavailable, { apis := [.generate "b"], exposers := [.generate .exposer "aaa"] }⟩]
      (by decide +kernel)
  have hseen := seen_run hs
  have honce : Change.WithdrawnOnce (u.tells domainRemoval) a.id [.generate .exposer "aaa"] := by
    rw [htells, hid]
    rfl
  obtain ⟨j, exposers, hj, hnamed, _, hnames, _, _⟩ := withdrawal_names_exposers_iff hseen hdrops
  have hsame : exposers = [.generate .exposer "aaa"] := by
    simpa using hnamed.symm.trans honce
  exact ⟨s, u, a, j, hseen, hdrops, hj, hnames.mp (hsame.trans hexposers.symm), hexposers, honce⟩

/-- Someone asks for the withdrawals of APIs of another exposer than the sample API has. -/
def otherExposer : EventSubscription where
  events := [.apiUnavailable]
  destination := "http://c"
  filters := [{ exposers := [.generate .exposer "bbb"] }]

/-- Two domains. The second publishes an API that the first exposes. -/
def strandedSchedule : List Move := [
  .start 0 (.registerProvider sampleDomain) (.lettered 'a' default),
  .start 1 (.registerProvider sampleDomain) (.lettered 'b' default),
  .start 2 (.subscribe "c" otherExposer) (.lettered 'c' default),
  .start 3 (.publish (.generate .publisher "bb") sampleApi) (.lettered 'd' default),
  .resume 3 (.errand (.ok ())),
  .resume 3 .announced]

/-- When the first domain goes, the withdrawal of the API does not name its exposer, and the
subscriber hears of it that asked for another one. -/
theorem withdrawal_names_no_exposer :
    FreshIds (strandedSchedule ++ [domainRemoval]) ∧
      ∃ (s u : System) (a : PublishedApi), fresh.run strandedSchedule = some s ∧
        s.Drops domainRemoval u a ∧ a.description.exposers = [.generate .exposer "aaa"] ∧
        u.tells domainRemoval = [⟨.apiUnavailable, { apis := [a.id] }⟩] ∧
        ¬ u.core.subscriptions.Minds
          (.ofChange default default ⟨.apiUnavailable, { apis := [a.id] }⟩)
          a.description.exposers := by
  refine ⟨.of_letters ['a', 'b', 'c', 'd', 'e'] (by decide) rfl, ?_⟩
  have hsubscribed : (fresh.run strandedSchedule).bind (fun s => (s.step domainRemoval).map
      (fun u => u.core.subscriptions.table.entries)) =
      some [(.forSubscriber "c" 1, ⟨"c", otherExposer⟩)] := by
    decide +kernel
  obtain ⟨s, u, a, hs, hdrops, hid, hexposers, htells⟩ :=
    drops_domainRemoval strandedSchedule (.generate "d") [.generate .exposer "aaa"]
      [⟨.apiUnavailable, { apis := [.generate "d"] }⟩] (by decide +kernel)
  rw [hs, Option.bind_some, hdrops.step, Option.map_some, Option.some.injEq] at hsubscribed
  refine ⟨s, u, a, hs, hdrops, hexposers, hid ▸ htells, ?_⟩
  rw [hexposers, hid]
  exact Subscriptions.not_minds_of_mem (hsubscribed ▸ List.mem_singleton_self _) (by decide)
    (List.mem_singleton_self _) (by decide) (List.mem_singleton_self _) (by decide)

end System

end ApiExposure
