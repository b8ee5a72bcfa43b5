import ApiExposure.Proofs.Announcements.Roll
import ApiExposure.Proofs.Authorization.Decision
import ApiExposure.Proofs.Publications.Order
import ApiExposure.Proofs.Publications.Ownership

/-!
# Registries from announcements

The announcements of a run tell which APIs are published and which invokers are
onboarded. Every effect that lets a member in announces it by its first deed, every
effect that lets members go has one withdrawal for each of them among its deeds, and
no other deed tells of members. With fresh identifiers nobody comes twice; and a
member goes once, because whoever finds it gone has nothing to withdraw. So when no
command is in progress the roll kept from the announcements is the registry, in the
same order. While commands are in progress the roll may be behind.
-/

namespace ApiExposure

namespace Roll

variable {κ : Type} [DecidableEq κ] {r : Roll κ} {log : List Change}

/-- What an effect does to a registry is told by the deeds that follow. -/
inductive Books (r : Roll κ) (o : Occasion) (c d : Core) (deeds : List Deed) : Prop
  /-- A member comes under its own identifier and is announced at once. -/
  | enters {change : Change} (hdeeds : deeds = [.announcement change])
      (he : r.enters change = [r.generate (o.suffix 0)])
      (hheld : r.held d = r.held c ++ [r.generate (o.suffix 0)])
  /-- Members go, or none, and it is owed to withdraw them. -/
  | leaves (he : r.entered (Deed.changes deeds) = [])
      (honce : (r.left (Deed.changes deeds)).Nodup)
      (hleft : r.left (Deed.changes deeds) ⊆ r.held c) (hsub : (r.held d).Sublist (r.held c))
      (hmem : ∀ id ∈ r.held c, id ∈ r.held d ↔ id ∉ r.left (Deed.changes deeds))

omit [DecidableEq κ] in
/-- A log without changes of the entering kind enters nobody. -/
theorem entered_eq_nil (h : ∀ change ∈ log, change.kind ≠ r.entering) : r.entered log = [] :=
  List.flatMap_eq_nil_iff.mpr fun change hchange => if_neg (h change hchange)

omit [DecidableEq κ] in
/-- A log without changes of the leaving kind lets nobody go. -/
theorem left_eq_nil (h : ∀ change ∈ log, change.kind ≠ r.leaving) : r.left log = [] :=
  List.flatMap_eq_nil_iff.mpr fun change hchange => if_neg (h change hchange)

omit [DecidableEq κ] in
/-- Nobody comes or goes, and the deeds do not tell of members. -/
theorem Books.still {o : Occasion} {c d : Core} {deeds : List Deed} (hheld : r.held d = r.held c)
    (h : ∀ change ∈ Deed.changes deeds, change.kind ≠ r.entering ∧ change.kind ≠ r.leaving) :
    r.Books o c d deeds := by
  have hleft : r.left (Deed.changes deeds) = [] := left_eq_nil fun change hc => (h change hc).2
  exact .leaves (entered_eq_nil fun change hc => (h change hc).1) (by simp [hleft])
    (by simp [hleft]) (by simp [hheld]) (by simp [hleft, hheld])

omit [DecidableEq κ] in
/-- One member goes and is withdrawn. -/
theorem Books.one {o : Occasion} {c d : Core} {change : Change} {id : κ}
    (h : r.leaves change = [id]) (hid : id ∈ r.held c) (hsub : (r.held d).Sublist (r.held c))
    (hmem : ∀ k, k ∈ r.held d ↔ k ∈ r.held c ∧ k ≠ id) :
    r.Books o c d [.announcement change] := by
  have henters : r.enters change = [] := by
    by_contra hne
    rw [leaves_of_enters hne] at h
    cases h
  have hentered : r.entered (Deed.changes [.announcement change]) = [] := by
    simp [Deed.changes, Deed.change?, entered, henters]
  have hleft : r.left (Deed.changes [.announcement change]) = [id] := by
    simp [Deed.changes, Deed.change?, left, h]
  refine .leaves hentered (by simp [hleft]) (by simpa [hleft] using hid) hsub fun k hk => ?_
  rw [hmem, hleft, List.mem_singleton]
  exact and_iff_right hk

/-- A cascade withdraws what it drops. -/
theorem left_cascade (k : Cascade) :
    apis.left (Deed.changes k.deeds) = k.removed.map (·.id) := by
  have hupdated : apis.left (k.updated.map (.ofApi .apiUpdated)) = [] := by
    refine left_eq_nil fun change hchange => ?_
    obtain ⟨a, _, rfl⟩ := List.mem_map.mp hchange
    simp [Change.ofApi, apis]
  have hremoved : apis.left (k.removed.map (.ofApi .apiUnavailable)) =
      k.removed.map (·.id) := by
    induction k.removed with
    | nil => rfl
    | cons a as ih => exact congrArg _ ih
  rw [Cascade.changes_deeds, left_append]
  exact (congrArg₂ _ hremoved hupdated).trans (List.append_nil _)

/-- It announces nothing. -/
theorem entered_cascade (k : Cascade) : apis.entered (Deed.changes k.deeds) = [] := by
  refine entered_eq_nil fun change hchange => ?_
  rw [Cascade.changes_deeds, List.mem_append, List.mem_map, List.mem_map] at hchange
  rcases hchange with ⟨a, _, rfl⟩ | ⟨a, _, rfl⟩ <;> simp [Change.ofApi, apis]

end Roll

namespace Sequel

variable {o : Occasion} {command : Command} {report : Option Report} {c d : Core}
  {r : Outcome command.Result} {deeds : List Deed}

/-- The deeds tell which APIs come and go. -/
theorem books_apis (h : Sequel o command report c r d deeds) (hc : c.store.WellFormed) :
    Roll.apis.Books o c d deeds := by
  cases h with
  | quiet hq h =>
    exact .still (congrArg (fun s => s.apis.keys) (h.store_eq_of_isQuiet hq)) (by simp)
  | @removed c id functions providers h =>
    obtain ⟨honce, hids⟩ := hc.removed_invalidate functions o.now
    have hleft := Roll.left_cascade (c.store.invalidate functions o.now).2
    refine .leaves (Roll.entered_cascade _) (hleft ▸ honce) ?_
      (Publications.keys_invalidate_sublist hc.keyed functions o.now) fun k hk => ?_
    · rw [hleft]
      exact fun k hk => Table.mem_keys_iff.mpr ((hids k).mp hk).1
    · have hstored : c.store.apis.get? k ≠ none := Table.mem_keys_iff.mp hk
      rw [hleft, hids, not_and]
      exact Table.mem_keys_iff.trans ⟨fun h _ => h, fun h => h hstored⟩
  | published h =>
    obtain ⟨_, hfree, rfl, rfl⟩ := Publications.publishAs_eq_ok_iff.mp h
    exact .enters rfl rfl (Publications.keys_add hfree)
  | @patched c publisher id p b store h =>
    obtain ⟨a, ha, _, _, _, rfl, rfl⟩ := Publications.of_updateFor_eq_ok h
    have hid : (a.apply p o.now).id = id := hc.keyed id a ha
    refine .still (Publications.keys_replace (a := a) (by rw [hid, ha])) ?_
    simp [Deed.changes, Deed.change?, Change.ofApi, Roll.apis]
  | @withdrawn c publisher id a store h =>
    obtain ⟨hheld, hstore⟩ := Publications.of_unpublish_eq_ok h
    have hid : a.id = id := hc.keyed id a hheld
    have hkeys : Roll.apis.held { c with store } = (c.store.apis.erase id).keys :=
      congrArg Table.keys hstore
    refine .one (congrArg (fun k => [k]) hid) (Table.mem_keys_iff.mpr (by simp [hheld])) ?_ ?_
    · rw [hkeys]
      exact Table.keys_erase_sublist _ _
    · exact fun k => hkeys ▸ Table.mem_keys_erase
  | accessRevoked _ _ _ hd =>
    refine .still rfl ?_
    rw [hd]
    split <;> simp [Deed.changes, Deed.change?, Change.accessRevoked, Roll.apis]
  | _ =>
    refine .still rfl ?_
    simp [Deed.changes, Deed.change?, Change.ofInvoker, Change.accessRevoked, Roll.apis]

/-- The deeds tell which invokers come and go. -/
theorem books_invokers (h : Sequel o command report c r d deeds) :
    Roll.invokers.Books o c d deeds := by
  have hkeys : ∀ (id : InvokerId) (held i : InvokerIdentity),
      c.invokers.table.get? id = some held →
        (c.invokers.table.insert id i).keys = c.invokers.table.keys := fun id held i hheld =>
    Table.keys_insert_of_contains (by rw [Table.contains, hheld]; rfl)
  cases h with
  | quiet hq h =>
    refine .still ?_ (by simp)
    cases h with
    | granted _ _ _ h =>
      obtain ⟨held, hheld, _, rfl⟩ := Invokers.of_grant_eq_ok h
      exact hkeys _ held _ hheld
    | grantRemoved h =>
      obtain ⟨held, hheld, rfl⟩ := Invokers.of_removeGrant_eq_ok h
      exact hkeys _ held _ hheld
    | onboarded _ | invokerUpdated _ | offboarded _ => cases hq
    | _ => rfl
  | removed h =>
    refine .still rfl ?_
    rw [Cascade.changes_deeds]
    simp only [List.mem_append, List.mem_map]
    rintro _ (⟨a, _, rfl⟩ | ⟨a, _, rfl⟩) <;> simp [Change.ofApi, Roll.invokers]
  | onboarded h =>
    obtain ⟨hnone, rfl, rfl⟩ := Invokers.of_onboardAs_eq_ok h
    exact .enters rfl rfl
      (Table.keys_insert_of_not_contains (Table.contains_eq_false_iff.mpr hnone))
  | invokerUpdated h =>
    obtain ⟨held, hheld, _, rfl⟩ := Invokers.of_update_eq_ok h
    refine .still (hkeys _ held _ hheld) ?_
    simp [Deed.changes, Deed.change?, Change.ofInvoker, Roll.invokers]
  | offboarded h =>
    obtain ⟨hheld, rfl⟩ := Invokers.of_deregister_eq_ok h
    exact .one rfl (Table.mem_keys_iff.mpr (by simp [hheld])) (Table.keys_erase_sublist _ _)
      fun k => Table.mem_keys_erase
  | accessRevoked _ _ _ hd =>
    refine .still rfl ?_
    rw [hd]
    split <;> simp [Deed.changes, Deed.change?, Change.accessRevoked, Roll.invokers]
  | _ =>
    refine .still rfl ?_
    simp [Deed.changes, Deed.change?, Change.ofApi, Change.accessRevoked, Roll.invokers]

end Sequel

namespace Roll

variable {κ : Type} [DecidableEq κ] {r : Roll κ} {log : List Change} {s u : System} {m : Move}

/-- Whatever takes effect is told by the deeds that follow. -/
def Tells (r : Roll κ) : Prop :=
  ∀ (o : Occasion) (command : Command) (report : Option Report) (c d : Core)
    (result : Outcome command.Result) (deeds : List Deed),
    Sequel o command report c result d deeds → c.store.WellFormed → r.Books o c d deeds

/-- The roll of the APIs is told by what the commands owe. -/
theorem tells_apis : apis.Tells := fun _ _ _ _ _ _ _ h hc => h.books_apis hc

/-- The roll of the invokers is told by what the commands owe. -/
theorem tells_invokers : invokers.Tells := fun _ _ _ _ _ _ _ h _ => h.books_invokers

namespace Kept

/-- A command that takes effect owes what it does not make known at once. -/
theorem settles (hr : r.Tells) (hk : r.Kept (r.held s.core) log s.owed) (hp : s.Planned)
    (hc : s.core.store.WellFormed) {j : Job} {result : Outcome j.command.Result}
    {deeds : List Deed} (h : s.Settles m u j result) (hdoes : j.flow.Does deeds)
    (hsequel : Sequel j.occasion j.command (s.report? m) s.core result u.core deeds)
    (honce : (r.entered (log ++ (u.change? m).toList)).Nodup) :
    r.Kept (r.held u.core) (log ++ (u.change? m).toList) u.owed := by
  obtain ⟨hbefore, hchanges⟩ := h.owed hp hdoes
  cases hr _ _ _ _ _ _ _ hsequel hc with
  | @enters change hdeeds he hheld =>
    subst hdeeds
    rw [h.change?_eq hdoes] at hchanges honce ⊢
    replace hchanges : [change] ++ [] = [change] ++ u.owed m.ticket := hchanges
    have howed : u.owed = s.owed := by
      have hafter : u.owed m.ticket = [] := (List.append_cancel_left hchanges).symm
      rw [System.owed_step h.step, hafter, ← hbefore, Function.update_eq_self]
    have hnew : r.generate (j.occasion.suffix 0) ∉ r.entered log := by
      rw [show ([Deed.announcement change].head?.bind Deed.change?).toList = [change] from rfl,
        entered_concat, he] at honce
      exact fun hid => List.disjoint_of_nodup_append honce hid (List.mem_singleton_self _)
    rw [hheld, howed]
    exact hk.enter he hnew
  | leaves he hleftOnce hleft hsub hmem =>
    have hdrop := hk.drop hbefore he hleftOnce hleft hsub hmem
    have hhand := hdrop.hand? ((Function.update_self ..).trans hchanges)
    rwa [Function.update_idem, ← System.owed_step h.step] at hhand

/-- A command that goes on makes known what it owes. -/
theorem proceeds (hk : r.Kept (r.held s.core) log s.owed) {d : Deed} {deeds : List Deed}
    (h : s.Proceeds m u d deeds) :
    r.Kept (r.held u.core) (log ++ (u.change? m).toList) u.owed := by
  have hhand := hk.hand? h.owed
  rwa [← System.owed_step h.step, ← h.core] at hhand

/-- As long as nobody is announced twice, every move keeps registry, announcements and debts
together. -/
theorem step (hr : r.Tells) (hk : r.Kept (r.held s.core) log s.owed) (hp : s.Planned)
    (hc : s.core.store.WellFormed) (h : s.step m = some u)
    (honce : (r.entered (log ++ (u.change? m).toList)).Nodup) :
    r.Kept (r.held u.core) (log ++ (u.change? m).toList) u.owed := by
  cases System.turn_of_step hp hc h with
  | waits hwaits =>
    obtain ⟨hnone, howed⟩ := hwaits.owed
    rwa [hnone, Option.toList_none, List.append_nil, hwaits.core, howed]
  | settles hsettles hdoes hsequel => exact hk.settles hr hp hc hsettles hdoes hsequel honce
  | proceeds hproceeds => exact hk.proceeds hproceeds

end Kept

/-- At the end of every run that announces nobody twice, the registry fits the announcements. -/
theorem kept_run (hr : r.Tells) (hempty : r.held .fresh = []) {ms : List Move}
    (h : System.fresh.run ms = some s) (honce : (r.entered (System.fresh.changes ms)).Nodup) :
    r.Kept (r.held s.core) (System.fresh.changes ms) s.owed := by
  refine System.run_induction
    (P := fun ms s => (r.entered (System.fresh.changes ms)).Nodup →
      r.Kept (r.held s.core) (System.fresh.changes ms) s.owed)
    (fun _ => hempty ▸ r.kept_nil) (fun ms m s u hs ih hm honce => ?_) h honce
  rw [System.changes_concat hs hm] at honce ⊢
  have hbefore : (r.entered (System.fresh.changes ms)).Nodup := by
    rw [entered_append] at honce
    exact honce.of_append_left
  exact (ih hbefore).step hr (System.planned_run hs) (System.wellFormed_run hs) hm honce

/-- By a move nobody is announced, or one whose identifier is that of the command settled. -/
theorem entered_of_step (hr : r.Tells) (hk : r.Kept (r.held s.core) log s.owed) (hp : s.Planned)
    (hc : s.core.store.WellFormed) (h : s.step m = some u) :
    r.entered (u.change? m).toList = [] ∨
      ∃ (j : Job) (result : Outcome j.command.Result), s.Settles m u j result ∧
        r.entered (u.change? m).toList = [r.generate (j.occasion.suffix 0)] := by
  cases System.turn_of_step hp hc h with
  | waits hwaits => exact .inl (by rw [hwaits.owed.1]; rfl)
  | @settles j result deeds hsettles hdoes hsequel =>
    cases hr _ _ _ _ _ _ _ hsequel hc with
    | @enters change hdeeds he =>
      refine .inr ⟨j, result, hsettles, ?_⟩
      subst hdeeds
      rw [hsettles.change?_eq hdoes]
      exact (List.flatMap_singleton ..).trans he
    | leaves he =>
      rw [(hsettles.owed hp hdoes).2, entered_append] at he
      exact .inl (List.append_eq_nil_iff.mp he).1
  | proceeds hproceeds =>
    have hnone := hk.owedNone m.ticket
    rw [hproceeds.owed, entered_append] at hnone
    exact .inl (List.append_eq_nil_iff.mp hnone).1

/-- A run with fresh identifiers announces nobody twice. -/
theorem nodup_entered_run (hr : r.Tells) (hempty : r.held .fresh = []) {ms : List Move}
    (hf : FreshIds ms) (h : System.fresh.run ms = some s) :
    (r.entered (System.fresh.changes ms)).Nodup := by
  refine (System.fresh_run_induction
    (P := fun ms s => (r.entered (System.fresh.changes ms)).Nodup ∧
      ∀ id ∈ r.entered (System.fresh.changes ms),
        ∃ suffix, s.Used suffix ∧ id = r.generate suffix)
    ⟨List.nodup_nil, fun _ hid => nomatch hid⟩ (fun ms m s u hs ho hm ih hstep => ?_) hf h).1
  obtain ⟨honce, hused⟩ := ih
  have hstill : ∀ id ∈ r.entered (System.fresh.changes ms),
      ∃ suffix, u.Used suffix ∧ id = r.generate suffix := by
    intro id hid
    obtain ⟨suffix, hsuffix, rfl⟩ := hused id hid
    exact ⟨suffix, hsuffix.step hstep, rfl⟩
  rw [System.changes_concat hs hstep, entered_append]
  rcases entered_of_step hr (kept_run hr hempty hs honce) (System.planned_run hs)
    (System.wellFormed_run hs) hstep with hnone | ⟨j, result, hsettles, hone⟩
  · rw [hnone, List.append_nil]
    exact ⟨honce, hstill⟩
  · rw [hone]
    refine ⟨honce.append (List.nodup_singleton _) ?_, fun id hid => ?_⟩
    · rw [List.disjoint_singleton]
      intro hid
      obtain ⟨suffix, hsuffix, heq⟩ := hused _ hid
      exact hsuffix.ne_of_settles (ho.step hm hstep) hsettles (r.injective heq)
    · rcases List.mem_append.mp hid with hid | hid
      · exact hstill id hid
      · exact ⟨_, hsettles.used, List.mem_singleton.mp hid⟩

end Roll

namespace System

/-- The announcements reconstruct the registries: along every run with fresh identifiers each API
and each invoker is announced at most once and withdrawn at most once, after it was announced;
and whenever no command is in progress the roll kept from the announcements is the list of
published APIs and that of onboarded invokers. -/
theorem announcements_reconstruct {ms : List Move} {s : System} (hf : FreshIds ms)
    (h : fresh.run ms = some s) :
    Roll.apis.Proper (fresh.changes ms) ∧ Roll.invokers.Proper (fresh.changes ms) ∧
      (s.Idle → Roll.apis.listed (fresh.changes ms) = s.core.store.apis.keys ∧
        Roll.invokers.listed (fresh.changes ms) = s.core.invokers.table.keys) := by
  have hapis := Roll.kept_run Roll.tells_apis rfl h
    (Roll.nodup_entered_run Roll.tells_apis rfl hf h)
  have hinvokers := Roll.kept_run Roll.tells_invokers rfl h
    (Roll.nodup_entered_run Roll.tells_invokers rfl hf h)
  refine ⟨hapis.toProper, hinvokers.toProper, fun hidle => ?_⟩
  have howed := hidle.owed (planned_run h)
  exact ⟨hapis.listed_eq howed, hinvokers.listed_eq howed⟩

/-- The sample API is withdrawn while its domain is removed, and the removal comes first. -/
def overlappingWithdrawals : List Move := sampleGranting ++ [
  .resume 1 .announced,
  .resume 2 .announced,
  .start 3 (.unpublish samplePublisher (.generate "b")) (.lettered 'd' default),
  .start 4 (.deregisterProvider (.generate "a")) (.lettered 'e' default),
  .resume 4 (.errand (.ok ())),
  .resume 4 .announced,
  .resume 3 (.errand (.ok ()))]

theorem freshIds_overlappingWithdrawals : FreshIds overlappingWithdrawals :=
  .of_letters ['a', 'b', 'c', 'd', 'e'] (by decide) rfl

/-- It is withdrawn once, and the invoker stays. -/
theorem announcements_reconstruct_sample :
    ∃ s, fresh.run overlappingWithdrawals = some s ∧ s.Idle ∧
      (fresh.changes overlappingWithdrawals).map (·.kind) =
        [.apiAvailable, .invokerOnboarded, .apiUnavailable] ∧
      Roll.apis.Proper (fresh.changes overlappingWithdrawals) ∧
      Roll.apis.listed (fresh.changes overlappingWithdrawals) = [] ∧
      Roll.invokers.listed (fresh.changes overlappingWithdrawals) = [.generate "c"] := by
  have hrun : (fresh.run overlappingWithdrawals).map (fun s =>
      ((overlappingWithdrawals.map Move.ticket).all (fun t =>
        (s.jobs t).all (·.flow.hasEnded)), s.core.store.apis.keys,
        s.core.invokers.table.keys)) = some (true, [], [.generate "c"]) := rfl
  obtain ⟨s, hs, hrun⟩ := Option.map_eq_some_iff.mp hrun
  simp only [Prod.mk.injEq] at hrun
  obtain ⟨hended, hpublished, honboarded⟩ := hrun
  have hidle : s.Idle := idle_of_run hs hended
  obtain ⟨hproper, _, hlisted⟩ := announcements_reconstruct freshIds_overlappingWithdrawals hs
  obtain ⟨hapis, hinvokers⟩ := hlisted hidle
  exact ⟨s, hs, hidle, rfl, hproper, hapis.trans hpublished, hinvokers.trans honboarded⟩

end System

end ApiExposure
