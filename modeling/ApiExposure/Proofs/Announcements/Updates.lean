import ApiExposure.Proofs.Announcements.Reconstruction

/-!
# Updates after withdrawals

An API that is changed by its publisher is published at that moment, and the update
is made known then. When a domain is removed, the APIs that lose exposers are changed
at once, but their updates come last, after the endpoints of the dropped APIs have
been taken down one by one. Meanwhile another command may drop such an API and
withdraw it, and the update comes all the same. Here it is proved that updates come
after withdrawals in this way and in no other.
-/

namespace ApiExposure

/-- Some element of a list stands in this relation to the elements before it. -/
def Sometime {α : Type} (P : List α → α → Prop) (l : List α) : Prop :=
  ∃ before a after, l = before ++ a :: after ∧ P before a

/-- With one element more it is the last one or one of those before. -/
theorem sometime_concat {α : Type} {P : List α → α → Prop} {l : List α} {a : α} :
    Sometime P (l ++ [a]) ↔ Sometime P l ∨ P l a := by
  constructor
  · rintro ⟨before, b, after, h, hp⟩
    rcases concat_eq_split_iff.mp h with ⟨rfl, rfl, _⟩ | ⟨rest, _, rfl⟩
    · exact .inr hp
    · exact .inl ⟨before, b, rest, rfl, hp⟩
  · rintro (⟨before, b, after, rfl, hp⟩ | hp)
    · exact ⟨before, b, after ++ [a], by simp, hp⟩
    · exact ⟨l, a, [], rfl, hp⟩

theorem not_sometime_nil {α : Type} {P : List α → α → Prop} : ¬ Sometime P [] := by
  rintro ⟨before, a, after, h, _⟩
  simp at h

/-- A change is an update of an API. -/
def Change.Updates (change : Change) (id : ApiId) : Prop :=
  change.kind = .apiUpdated ∧ id ∈ change.detail.apis

/-- An update of an API is made known after a withdrawal. -/
def Stale (changes : List Change) (id : ApiId) : Prop :=
  Sometime (fun before change => change.Updates id ∧ id ∈ Roll.apis.left before) changes

/-- The removal of a domain takes exposers from an API and leaves it published. -/
def Core.Strips (c : Core) (domain : DomainId) (now : Instant) (id : ApiId) : Prop :=
  ∃ functions providers, c.providers.deregister domain = .ok (functions, providers) ∧
    ∃ a ∈ (c.store.invalidate functions now).2.updated, a.id = id

/-- What makes an update known leaves the API published, and the update comes at once or the
API is stripped in the removal of a domain. -/
theorem Sequel.updates {o : Occasion} {command : Command} {report : Option Report} {c d : Core}
    {r : Outcome command.Result} {deeds : List Deed} (h : Sequel o command report c r d deeds)
    (hc : c.store.WellFormed) {change : Change} (hchange : change ∈ Deed.changes deeds)
    {id : ApiId} (hupdates : change.Updates id) :
    id ∈ d.store.apis.keys ∧ (deeds = [.announcement change] ∨
      ∃ domain, command = .deregisterProvider domain ∧ c.Strips domain o.now id) := by
  obtain ⟨hkind, hid⟩ := hupdates
  cases h with
  | @removed c domain functions providers h =>
    rw [Cascade.changes_deeds, List.mem_append, List.mem_map, List.mem_map] at hchange
    rcases hchange with ⟨a, _, rfl⟩ | ⟨a, ha, rfl⟩
    · cases hkind
    · obtain rfl : id = a.id := List.mem_singleton.mp hid
      have hstored := hc.stored_of_updated ha
      exact ⟨Table.mem_keys_iff.mpr (by simp [hstored]),
        .inr ⟨domain, rfl, functions, providers, h, a, ha, rfl⟩⟩
  | @patched c publisher key p b store h =>
    obtain rfl : change = .ofApi .apiUpdated b := List.mem_singleton.mp hchange
    obtain rfl : id = b.id := List.mem_singleton.mp hid
    obtain ⟨a, ha, _, _, _, rfl, rfl⟩ := Publications.of_updateFor_eq_ok h
    exact ⟨Table.mem_keys_iff.mpr (by simp [Publications.get?_replace]), .inl rfl⟩
  | accessRevoked _ _ _ hd =>
    rw [hd] at hchange
    split at hchange
    · cases hchange
    · obtain rfl := List.mem_singleton.mp hchange
      cases hkind
  | published _ | withdrawn _ | onboarded _ | invokerUpdated _ | offboarded _ | callRevoked _ =>
    obtain rfl := List.mem_singleton.mp hchange
    cases hkind
  | _ => cases hchange

namespace System

/-- By a move a change of some sort is made known. -/
def MakesKnown (s : System) (m : Move) (sort : Change → Prop) : Prop :=
  ∃ u change, s.step m = some u ∧ u.change? m = some change ∧ sort change

/-- The command of a ticket removes a domain and thereby strips an API. -/
def Stripped (ms : List Move) (t : Ticket) (id : ApiId) : Prop :=
  Sometime (fun before m => ∃ s domain o, fresh.run before = some s ∧
    m = .start t (.deregisterProvider domain) o ∧ s.core.Strips domain o.now id) ms

/-- After the command of a ticket has stripped an API, another one withdraws it. -/
def Bypassed (ms : List Move) (t : Ticket) (id : ApiId) : Prop :=
  Sometime (fun before m => Stripped before t id ∧ m.ticket ≠ t ∧ ∃ s, fresh.run before = some s ∧
    s.MakesKnown m (fun change => id ∈ Roll.apis.leaves change)) ms

/-- A command that has been bypassed so makes its update known all the same. -/
def Overtaken (ms : List Move) (id : ApiId) : Prop :=
  Sometime (fun before m => Bypassed before m.ticket id ∧ ∃ s, fresh.run before = some s ∧
    s.MakesKnown m (·.Updates id)) ms

variable {s u : System} {m : Move} {ms : List Move} {t : Ticket} {id : ApiId}

/-- A move makes a change of a sort known when the change that it makes known is of that sort. -/
theorem makesKnown_iff {sort : Change → Prop} (hm : s.step m = some u) :
    s.MakesKnown m sort ↔ ∃ change, u.change? m = some change ∧ sort change := by
  constructor
  · rintro ⟨v, change, hv, hchange⟩
    obtain rfl := Option.some.inj (hv.symm.trans hm)
    exact ⟨change, hchange⟩
  · rintro ⟨change, hchange⟩
    exact ⟨u, change, hm, hchange⟩

/-- What is known of an update that the command of a ticket owes. -/
structure Due (ms : List Move) (s : System) (t : Ticket) (id : ApiId) : Prop where
  /-- The command strips the API. -/
  stripped : Stripped ms t id
  /-- It does not withdraw it. -/
  remains : id ∉ Roll.apis.left (s.owed t)
  /-- If the API is withdrawn another command has done it. -/
  bypassed : id ∈ Roll.apis.left (fresh.changes ms) → Bypassed ms t id

/-- A run that announces no API twice does not do so before its last move either. -/
theorem nodup_entered_of_concat (h : fresh.run ms = some s) (hm : s.step m = some u)
    (honce : (Roll.apis.entered (fresh.changes (ms ++ [m]))).Nodup) :
    (Roll.apis.entered (fresh.changes ms)).Nodup := by
  rw [changes_concat h hm, Roll.entered_append] at honce
  exact honce.of_append_left

/-- A published API has not been withdrawn, and no command owes to withdraw it. -/
theorem not_left_of_mem (h : fresh.run ms = some s)
    (honce : (Roll.apis.entered (fresh.changes ms)).Nodup) (hid : id ∈ s.core.store.apis.keys) :
    id ∉ Roll.apis.left (fresh.changes ms) ∧ ∀ t, id ∉ Roll.apis.left (s.owed t) := by
  have hkept := Roll.kept_run Roll.tells_apis rfl h honce
  obtain ⟨hlisted, howed⟩ := (hkept.mem_held id).mp hid
  exact ⟨((hkept.mem_listed id).mp hlisted).2, howed⟩

/-- What was stripped once has been stripped in every longer run. -/
theorem Stripped.concat (h : Stripped ms t id) (m : Move) : Stripped (ms ++ [m]) t id :=
  sometime_concat.mpr (.inl h)

theorem Bypassed.concat (h : Bypassed ms t id) (m : Move) : Bypassed (ms ++ [m]) t id :=
  sometime_concat.mpr (.inl h)

/-- What a command withdraws is withdrawn for good. -/
theorem Bypassed.left (h : fresh.run ms = some s) (hb : Bypassed ms t id) :
    id ∈ Roll.apis.left (fresh.changes ms) := by
  refine run_induction (P := fun ms s => Bypassed ms t id → id ∈ Roll.apis.left (fresh.changes ms))
    (fun hb => absurd hb not_sometime_nil) (fun ms m s u hs ih hm hb => ?_) h hb
  rw [changes_concat hs hm, Roll.left_append, List.mem_append]
  rcases sometime_concat.mp hb with hb | ⟨_, _, v, hv, w, change, hw, hchange, hid⟩
  · exact .inl (ih hb)
  · obtain rfl := Option.some.inj (hv.symm.trans hs)
    obtain rfl := Option.some.inj (hw.symm.trans hm)
    rw [hchange]
    exact .inr (List.mem_flatMap.mpr ⟨change, List.mem_singleton_self change, hid⟩)

namespace Due

/-- An update that was owed before a move by another command. -/
theorem of_ne (hd : Due ms s t id) (h : fresh.run ms = some s) (hm : s.step m = some u)
    (ht : t ≠ m.ticket) : Due (ms ++ [m]) u t id where
  stripped := hd.stripped.concat m
  remains := owed_of_ne hm ht ▸ hd.remains
  bypassed := by
    rw [changes_concat h hm, Roll.left_append, List.mem_append]
    rintro (hleft | hleft)
    · exact (hd.bypassed hleft).concat m
    · obtain ⟨change, hchange, hid⟩ := List.mem_flatMap.mp hleft
      refine sometime_concat.mpr (.inr ⟨hd.stripped, Ne.symm ht, s, h, u, change, hm, ?_, hid⟩)
      exact Option.mem_toList.mp hchange

/-- An update that a command still owes when it makes another change known. -/
theorem of_proceeds (hd : Due ms s m.ticket id) (h : fresh.run ms = some s) {d : Deed}
    {deeds : List Deed} (hm : s.Proceeds m u d deeds) : Due (ms ++ [m]) u m.ticket id := by
  have hremains := hd.remains
  rw [hm.owed, Roll.left_append, List.mem_append, not_or] at hremains
  refine ⟨hd.stripped.concat m, hremains.2, fun hleft => ?_⟩
  rw [changes_concat h hm.step, Roll.left_append, List.mem_append] at hleft
  exact (hd.bypassed (hleft.resolve_right hremains.1)).concat m

/-- An update that a command comes to owe. -/
theorem of_settles (h : fresh.run ms = some s)
    (honce : (Roll.apis.entered (fresh.changes (ms ++ [m]))).Nodup) {j : Job}
    {r : Outcome j.command.Result} {deeds : List Deed} (hm : s.Settles m u j r)
    (hdoes : j.flow.Does deeds)
    (hsequel : Sequel j.occasion j.command (s.report? m) s.core r u.core deeds) {change : Change}
    (hchange : change ∈ u.owed m.ticket) (hupdates : change.Updates id) :
    Due (ms ++ [m]) u m.ticket id := by
  obtain ⟨_, hchanges⟩ := hm.owed (planned_run h) hdoes
  have hmem : change ∈ Deed.changes deeds := by
    rw [hchanges]
    exact List.mem_append_right _ hchange
  obtain ⟨hstored, hdeeds | ⟨domain, hcommand, hstrips⟩⟩ :=
    hsequel.updates (wellFormed_run h) hmem hupdates
  · rw [hm.change?_eq hdoes, hdeeds] at hchanges
    rw [← List.append_cancel_left (show [change] ++ [] = [change] ++ u.owed m.ticket from hchanges)]
      at hchange
    cases hchange
  · obtain ⟨hleft, howed⟩ :=
      not_left_of_mem (run_concat_eq_some.mpr ⟨s, h, hm.step⟩) honce hstored
    refine ⟨sometime_concat.mpr (.inr ⟨s, domain, j.occasion, h, ?_, hstrips⟩), howed _,
      fun hid => absurd hid hleft⟩
    rw [← hcommand]
    exact hm.eq_start (tracked_run h) (by rw [hcommand]; rfl)

end Due

/-- Every update that a command owes is due from the removal of a domain. -/
theorem due_run (h : fresh.run ms = some s)
    (honce : (Roll.apis.entered (fresh.changes ms)).Nodup) {change : Change}
    (hchange : change ∈ s.owed t) (hupdates : change.Updates id) : Due ms s t id := by
  refine run_induction (P := fun ms s => (Roll.apis.entered (fresh.changes ms)).Nodup →
    ∀ t, change ∈ s.owed t → Due ms s t id) (fun _ _ h => nomatch h)
    (fun ms m s u hs ih hm honce t hchange => ?_) h honce t hchange
  have hbefore := nodup_entered_of_concat hs hm honce
  by_cases ht : t = m.ticket
  · subst ht
    cases turn_of_step (planned_run hs) (wellFormed_run hs) hm with
    | waits hwaits =>
      rw [hwaits.owed.2, owed, hwaits.before] at hchange
      cases hchange
    | settles hsettles hdoes hsequel =>
      exact .of_settles hs honce hsettles hdoes hsequel hchange hupdates
    | proceeds hproceeds =>
      refine Due.of_proceeds (ih hbefore _ ?_) hs hproceeds
      rw [hproceeds.owed]
      exact List.mem_append_right _ hchange
  · exact (ih hbefore t (owed_of_ne hm ht ▸ hchange)).of_ne hs hm ht

/-- The command that makes an update of a withdrawn API known has been bypassed. -/
theorem bypassed_of_updates (h : fresh.run ms = some s) (hm : s.step m = some u)
    (honce : (Roll.apis.entered (fresh.changes (ms ++ [m]))).Nodup) {change : Change}
    (hchange : u.change? m = some change) (hupdates : change.Updates id)
    (hleft : id ∈ Roll.apis.left (fresh.changes ms)) : Bypassed ms m.ticket id := by
  cases turn_of_step (planned_run h) (wellFormed_run h) hm with
  | waits hwaits =>
    rw [hwaits.owed.1] at hchange
    cases hchange
  | @settles j r deeds hsettles hdoes hsequel =>
    have hmem : change ∈ Deed.changes deeds := by
      rw [(hsettles.owed (planned_run h) hdoes).2, hchange]
      exact List.mem_cons_self
    have hstored := (hsequel.updates (wellFormed_run h) hmem hupdates).1
    have hnot := (not_left_of_mem (run_concat_eq_some.mpr ⟨s, h, hm⟩) honce hstored).1
    rw [changes_concat h hm, Roll.left_append, List.mem_append, not_or] at hnot
    exact absurd hleft hnot.1
  | proceeds hproceeds =>
    have howed : change ∈ s.owed m.ticket := by
      rw [hproceeds.owed, hchange]
      exact List.mem_cons_self
    exact (due_run h (nodup_entered_of_concat h hm honce) howed hupdates).bypassed hleft

/-- With a move more an update is overtaken by this move or was so before. -/
theorem overtaken_concat (h : fresh.run ms = some s) (hm : s.step m = some u) :
    Overtaken (ms ++ [m]) id ↔ Overtaken ms id ∨
      Bypassed ms m.ticket id ∧ ∃ change, u.change? m = some change ∧ change.Updates id := by
  rw [Overtaken, sometime_concat, ← Overtaken, ← makesKnown_iff hm]
  refine or_congr_right (and_congr_right fun _ => ⟨?_, fun hknown => ⟨s, h, hknown⟩⟩)
  rintro ⟨v, hv, hknown⟩
  obtain rfl := Option.some.inj (hv.symm.trans h)
  exact hknown

/-- Updates are stale only when they are overtaken: in a run that announces no API twice, an update
of an API is made known after its withdrawal exactly when the removal of a domain strips the API,
another command then makes a withdrawal of it known, and the removal makes its update known after
that. -/
theorem stale_iff_overtaken (h : fresh.run ms = some s)
    (honce : (Roll.apis.entered (fresh.changes ms)).Nodup) (id : ApiId) :
    Stale (fresh.changes ms) id ↔ Overtaken ms id := by
  refine run_induction (P := fun ms s => (Roll.apis.entered (fresh.changes ms)).Nodup →
    (Stale (fresh.changes ms) id ↔ Overtaken ms id))
    (fun _ => iff_of_false not_sometime_nil not_sometime_nil)
    (fun ms m s u hs ih hm honce => ?_) h honce
  rw [overtaken_concat hs hm, ← ih (nodup_entered_of_concat hs hm honce), changes_concat hs hm]
  cases hchange : u.change? m with
  | none => simp
  | some change =>
    rw [Option.toList_some, Stale, sometime_concat, ← Stale]
    refine or_congr_right ⟨fun ⟨hupdates, hleft⟩ => ?_, fun ⟨hbypassed, hknown⟩ => ?_⟩
    · exact ⟨bypassed_of_updates hs hm honce hchange hupdates hleft, change, rfl, hupdates⟩
    · obtain ⟨_, hsame, hupdates⟩ := hknown
      cases hsame
      exact ⟨hupdates, hbypassed.left hs⟩

/-- An API on the exposers of two domains, whose letters are `a` and `b`. -/
def jointApi : ApiDescription where
  name := "tiles"
  profiles := [{ exposer := .generate .exposer "aaa" }, { exposer := .generate .exposer "bbb" }]
  versions := [{ name := "v1" }]

/-- The first domain publishes the sample API and the second one the joint API. The first domain is
removed, and while the endpoint of its API is taken down the joint API is withdrawn. -/
def overtakenRemoval : List Move := [
  .start 0 (.registerProvider sampleDomain) (.lettered 'a' default),
  .start 1 (.registerProvider sampleDomain) (.lettered 'b' default),
  .start 2 (.publish samplePublisher sampleApi) (.lettered 'c' default),
  .resume 2 (.errand (.ok ())),
  .resume 2 .announced,
  .start 3 (.publish (.generate .publisher "bb") jointApi) (.lettered 'd' default),
  .resume 3 (.errand (.ok ())),
  .resume 3 .announced,
  .start 4 (.deregisterProvider (.generate "a")) (.lettered 'e' default),
  .start 5 (.unpublish (.generate .publisher "bb") (.generate "d")) (.lettered 'f' default),
  .resume 5 (.errand (.ok ())),
  .resume 5 .announced,
  .resume 4 (.errand (.ok ())),
  .resume 4 .announced]

/-- What the run makes known: both APIs, the withdrawal of the second one, the removal of the first
one, and at last an update of the second one. -/
theorem changes_overtakenRemoval : fresh.changes overtakenRemoval = [
    ⟨.apiAvailable, ⟨[.generate "c"], [], [.generate .exposer "aaa"]⟩⟩,
    ⟨.apiAvailable, ⟨[.generate "d"], [], [.generate .exposer "aaa", .generate .exposer "bbb"]⟩⟩,
    ⟨.apiUnavailable, ⟨[.generate "d"], [], [.generate .exposer "bbb"]⟩⟩,
    ⟨.apiUnavailable, ⟨[.generate "c"], [], [.generate .exposer "aaa"]⟩⟩,
    ⟨.apiUpdated, ⟨[.generate "d"], [], [.generate .exposer "bbb"]⟩⟩] := rfl

/-- The last change is an update of the joint API, which is withdrawn by the third. -/
theorem stale_overtakenRemoval : Stale (fresh.changes overtakenRemoval) (.generate "d") := by
  have hleft : .generate "d" ∈ Roll.apis.left ((fresh.changes overtakenRemoval).take 4) := by
    rw [changes_overtakenRemoval]
    decide
  exact ⟨_, _, [], (List.take_append_drop 4 _).symm, ⟨rfl, List.mem_singleton_self _⟩, hleft⟩

/-- The update of the joint API is overtaken by its withdrawal. -/
theorem stale_iff_overtaken_sample :
    ∃ s, fresh.run overtakenRemoval = some s ∧
      (Roll.apis.entered (fresh.changes overtakenRemoval)).Nodup ∧
      Overtaken overtakenRemoval (.generate "d") := by
  have hrun : (fresh.run overtakenRemoval).isSome = true := rfl
  obtain ⟨s, hs⟩ := Option.isSome_iff_exists.mp hrun
  have honce : (Roll.apis.entered (fresh.changes overtakenRemoval)).Nodup := by
    rw [changes_overtakenRemoval]
    decide
  exact ⟨s, hs, honce, (stale_iff_overtaken hs honce _).mp stale_overtakenRemoval⟩

/-- Identifiers are fresh, and yet an update is made known after a withdrawal. -/
theorem update_after_withdrawal :
    FreshIds overtakenRemoval ∧ (fresh.run overtakenRemoval).isSome = true ∧
      Stale (fresh.changes overtakenRemoval) (.generate "d") :=
  ⟨.of_letters ['a', 'b', 'c', 'd', 'e', 'f'] (by decide) rfl, rfl, stale_overtakenRemoval⟩

end System

end ApiExposure
