import ApiExposure.Proofs.Publications.Removal
import ApiExposure.Proofs.System.Turn

/-!
# Endpoints of published APIs

The endpoint of an API is set up before the API is recorded, and taken down before
it is dropped, after it is dropped, or when it is refused after all. So endpoints
and records are not in step at every moment. But no endpoint of a recorded API is
ever taken down: whoever still has one to take down has dropped or refused the API,
and with fresh identifiers it does not come back. In the other direction an
endpoint without record has somebody left to take it down, as long as every attempt
to do so succeeds. Nothing is said of an endpoint after an attempt that failed.
-/

namespace ApiExposure

/-- The endpoint of an API is set up: it was provisioned, and no later deprovisioning was done. -/
def EndpointLive (log : List Report) (id : ApiId) : Prop :=
  ∃ before publisher description after,
    log = before ++ ⟨.provision id publisher description, true⟩ :: after ∧
      ∀ p, ⟨.deprovision id p, true⟩ ∉ after

namespace EndpointLive

variable {log : List Report} {id : ApiId} {report : Report}

theorem not_nil (id : ApiId) : ¬ EndpointLive [] id := by
  rintro ⟨before, _, _, after, h, _⟩
  simp at h

/-- With one more report an endpoint is live if it is being provisioned, or if it was live and is
not being deprovisioned. -/
theorem concat_iff :
    EndpointLive (log ++ [report]) id ↔
      (∃ publisher description, report = ⟨.provision id publisher description, true⟩) ∨
        EndpointLive log id ∧ ∀ p, report ≠ ⟨.deprovision id p, true⟩ := by
  constructor
  · rintro ⟨before, publisher, description, after, hlog, hafter⟩
    rcases concat_eq_split_iff.mp hlog with ⟨_, hlast, _⟩ | ⟨rest, rfl, rfl⟩
    · exact .inl ⟨publisher, description, hlast⟩
    · refine .inr ⟨⟨before, publisher, description, rest, rfl, fun p hp => ?_⟩, fun p hp => ?_⟩
      · exact hafter p (by simp [hp])
      · exact hafter p (by simp [hp])
  · rintro (⟨publisher, description, rfl⟩ | ⟨hlive, hr⟩)
    · exact ⟨log, publisher, description, [], rfl, by simp⟩
    · obtain ⟨before, publisher, description, after, rfl, hafter⟩ := hlive
      refine ⟨before, publisher, description, after ++ [report], by simp, fun p hp => ?_⟩
      rcases List.mem_append.mp hp with hp | hp
      · exact hafter p hp
      · exact hr p (List.mem_singleton.mp hp).symm

/-- The same for a report that a move may bring. -/
theorem append_iff {report : Option Report} :
    EndpointLive (log ++ report.toList) id ↔
      (∃ publisher description, report = some ⟨.provision id publisher description, true⟩) ∨
        EndpointLive log id ∧ ∀ p, report ≠ some ⟨.deprovision id p, true⟩ := by
  cases report with
  | none => simp
  | some report => simp [concat_iff]

end EndpointLive

/-- What a sequel says of records and endpoints. -/
structure Balances (o : Occasion) (report : Option Report) (c d : Core) (deeds : List Deed) :
    Prop where
  /-- What is recorded was just provisioned, or was recorded and was not deprovisioned. -/
  recorded : ∀ id, d.store.apis.get? id ≠ none →
    (∃ publisher description, report = some ⟨.provision id publisher description, true⟩) ∨
      c.store.apis.get? id ≠ none ∧ ∀ p, report ≠ some ⟨.deprovision id p, true⟩
  /-- What is provisioned is recorded, or it is to be deprovisioned. -/
  provisioned : ∀ id publisher description,
    report = some ⟨.provision id publisher description, true⟩ →
      d.store.apis.get? id ≠ none ∨ ∃ p, .errand (.deprovision id p) ∈ deeds
  /-- What is dropped has just been deprovisioned, or it is to be. -/
  dropped : ∀ id, c.store.apis.get? id ≠ none → d.store.apis.get? id = none →
    (∃ p, report = some ⟨.deprovision id p, true⟩) ∨ ∃ p, .errand (.deprovision id p) ∈ deeds
  /-- What is to be deprovisioned has been dropped or refused; all else concerns clients. -/
  errands : ∀ e, .errand e ∈ deeds →
    (∃ id p, e = .deprovision id p ∧
      (c.store.apis.get? id ≠ none ∧ d.store.apis.get? id = none ∨
        id = .generate (o.suffix 0) ∧ d.store = c.store)) ∨
      ∃ i, e = .removeClient i

namespace Sequel

variable {o : Occasion} {command : Command} {report : Option Report} {c d : Core}
  {r : Outcome command.Result} {deeds : List Deed}

/-- A sequel that leaves the store as it is and has to do with no endpoint. -/
theorem balances_of_store_eq (hstore : d.store = c.store)
    (hp : ∀ id publisher description,
      report ≠ some ⟨.provision id publisher description, true⟩)
    (hd : ∀ id p, report = some ⟨.deprovision id p, true⟩ → c.store.apis.get? id = none)
    (he : ∀ e, .errand e ∈ deeds → ∃ i, e = .removeClient i) :
    Balances o report c d deeds where
  recorded id hid := by
    rw [hstore] at hid
    exact .inr ⟨hid, fun p hreport => hid (hd id p hreport)⟩
  provisioned id publisher description hreport := absurd hreport (hp id publisher description)
  dropped id hid hnone := absurd (hstore ▸ hnone) hid
  errands e hdeed := .inr (he e hdeed)

/-- Every sequel keeps the balance. -/
theorem balances (h : Sequel o command report c r d deeds) (hc : c.store.WellFormed) :
    Balances o report c d deeds := by
  cases h with
  | quiet hq h =>
    exact balances_of_store_eq (h.store_eq_of_isQuiet hq) (by simp) (by simp) (by simp)
  | @removed c id functions providers h =>
    have hids := (hc.removed_invalidate functions o.now).2
    refine ⟨fun id hid => .inr ⟨?_, by simp⟩, by simp, fun id hid hnone => .inr ?_,
      fun e he => .inl ?_⟩
    · rw [hc.get?_invalidate] at hid
      intro hnone
      rw [hnone] at hid
      exact hid rfl
    · obtain ⟨a, ha, rfl⟩ := List.mem_map.mp ((hids id).mpr ⟨hid, hnone⟩)
      exact ⟨a.publisher, Cascade.errand_mem_deeds.mpr ⟨a, ha, rfl⟩⟩
    · obtain ⟨a, ha, rfl⟩ := Cascade.errand_mem_deeds.mp he
      exact ⟨a.id, a.publisher, rfl, .inl ((hids a.id).mp (List.mem_map.mpr ⟨a, ha, rfl⟩))⟩
  | published h =>
    obtain ⟨_, hfree, rfl, rfl⟩ := Publications.publishAs_eq_ok_iff.mp h
    have hget := Publications.get?_add (s := c.store)
    refine ⟨fun id hid => ?_, fun id publisher description hreport => .inl ?_,
      fun id hid hnone => ?_, by simp⟩
    · dsimp only at hid
      rw [hget] at hid
      split at hid
      · next he => exact .inl ⟨_, _, by rw [he]⟩
      · exact .inr ⟨hid, by simp⟩
    · cases hreport
      dsimp only
      rw [hget, if_pos rfl]
      exact Option.some_ne_none _
    · dsimp only at hnone
      rw [hget] at hnone
      split at hnone
      · cases hnone
      · exact absurd hnone hid
  | takenBack f =>
    refine ⟨fun id hid => .inr ⟨hid, by simp⟩, fun id publisher description hreport => .inr ?_,
      fun id hid hnone => absurd hnone hid, fun e he => .inl ?_⟩
    · cases hreport
      exact ⟨_, List.mem_singleton_self _⟩
    · cases List.mem_singleton.mp he
      exact ⟨_, _, rfl, .inr ⟨rfl, rfl⟩⟩
  | @patched c publisher id p a store h =>
    obtain ⟨held, hheld, _, _, _, rfl, rfl⟩ := Publications.of_updateFor_eq_ok h
    have hid : (held.apply p o.now).id = id := hc.keyed id held hheld
    have hstored : ∀ k, (c.store.replace (held.apply p o.now)).apis.get? k ≠ none ↔
        c.store.apis.get? k ≠ none := by
      intro k
      rw [Publications.get?_replace, hid]
      split
      · next he => simp [he, hheld]
      · rfl
    refine ⟨fun k hk => .inr ⟨(hstored k).mp hk, by simp⟩, by simp, fun k hk hnone => ?_, by simp⟩
    exact absurd hnone ((hstored k).mpr hk)
  | @withdrawn c publisher id a store h =>
    obtain ⟨hheld, hstore⟩ := Publications.of_unpublish_eq_ok h
    refine ⟨fun k hk => .inr ?_, by simp, fun k hk hnone => .inl ?_, by simp⟩
    · dsimp only at hk
      rw [hstore, Table.get?_erase] at hk
      split at hk
      · exact absurd rfl hk
      · next hne => exact ⟨hk, by simp [Ne.symm hne]⟩
    · dsimp only at hnone
      rw [hstore, Table.get?_erase] at hnone
      split at hnone
      · next he => exact ⟨publisher, by rw [he]⟩
      · exact absurd hnone hk
  | alreadyWithdrawn h =>
    refine balances_of_store_eq rfl (by simp) (fun id p hreport => ?_) (by simp)
    cases hreport
    exact h
  | accessRevoked _ _ _ hd =>
    refine balances_of_store_eq rfl (by simp) (by simp) fun e he => ?_
    rw [hd] at he
    split at he <;> simp at he
  | _ => exact balances_of_store_eq rfl (by simp) (by simp) (by simp)

end Sequel

namespace System

variable {s u : System} {m : Move} {log : List Report} {id : ApiId}

/-- A command that has taken effect still has to take down an endpoint. -/
def OwesRemoval (s : System) (id : ApiId) : Prop :=
  ∃ t j p, s.jobs t = some j ∧ j.IsSettled ∧ .errand (.deprovision id p) ∈ j.flow.rest

/-- How records and endpoints stand to each other after some reports. -/
structure Balanced (s : System) (log : List Report) : Prop where
  /-- Recorded APIs have their endpoints. -/
  recorded : ∀ id, s.core.store.apis.get? id ≠ none → EndpointLive log id
  /-- What is still to be deprovisioned is gone; all else concerns clients. -/
  errands : ∀ t j e, s.jobs t = some j → j.IsSettled → .errand e ∈ j.flow.rest →
    (∃ id p, e = .deprovision id p ∧ s.Gone id) ∨ ∃ i, e = .removeClient i
  /-- As long as nothing has failed, an endpoint without record is to be taken down. -/
  live : (∀ id p, ⟨.deprovision id p, false⟩ ∉ log) → ∀ id, EndpointLive log id →
    s.core.store.apis.get? id ≠ none ∨ s.OwesRemoval id

theorem balanced_fresh : fresh.Balanced [] where
  recorded _ h := absurd rfl h
  errands _ _ _ h := nomatch h
  live _ id h := absurd h (EndpointLive.not_nil id)

/-- A move leaves it to the commands of other tickets what they owe. -/
theorem OwesRemoval.step (hs : s.OwesRemoval id) (h : s.step m = some u) :
    u.OwesRemoval id ∨ ∃ j p, s.jobs m.ticket = some j ∧ j.IsSettled ∧
      .errand (.deprovision id p) ∈ j.flow.rest := by
  obtain ⟨t, j, p, hj, hsettled, he⟩ := hs
  by_cases ht : t = m.ticket
  · exact .inr ⟨j, p, ht ▸ hj, hsettled, he⟩
  · exact .inl ⟨t, j, p, (jobs_step_of_ne h ht).trans hj, hsettled, he⟩

namespace Balanced

/-- What is to be done stays in order when the job that moves is in order. -/
theorem errands_step (hs : s.Balanced log) (h : s.step m = some u)
    (hgone : ∀ id, s.Gone id → u.Gone id)
    (hjob : ∀ j e, u.jobs m.ticket = some j → j.IsSettled → .errand e ∈ j.flow.rest →
      (∃ id p, e = .deprovision id p ∧ u.Gone id) ∨ ∃ i, e = .removeClient i) :
    ∀ t j e, u.jobs t = some j → j.IsSettled → .errand e ∈ j.flow.rest →
      (∃ id p, e = .deprovision id p ∧ u.Gone id) ∨ ∃ i, e = .removeClient i := by
  intro t j e hj hsettled he
  by_cases ht : t = m.ticket
  · exact hjob j e (ht ▸ hj) hsettled he
  · rcases hs.errands t j e ((jobs_step_of_ne h ht).symm.trans hj) hsettled he with
      ⟨id, p, rfl, hid⟩ | hclient
    · exact .inl ⟨id, p, rfl, hgone id hid⟩
    · exact .inr hclient

/-- A command that starts and waits changes nothing. -/
theorem waits (hs : s.Balanced log) {j : Job} (h : s.Waits m u j)
    (hgone : ∀ id, s.Gone id → u.Gone id) : u.Balanced log where
  recorded := h.core ▸ hs.recorded
  errands := hs.errands_step h.step hgone fun i e hi hsettled _ => by
    obtain rfl := Option.some.inj (h.after.symm.trans hi)
    exact absurd hsettled h.pends.unsettled
  live hdone id hlive := by
    rw [h.core]
    refine (hs.live hdone id hlive).imp_right fun howes => ?_
    refine (howes.step h.step).resolve_right ?_
    rintro ⟨i, _, hi, _⟩
    cases h.before.symm.trans hi

/-- A command that takes effect keeps the balance of its sequel. -/
theorem settles (hs : s.Balanced log) (hu : u.Orderly) (hspent : s.StoreSpent)
    {j : Job} {r : Outcome j.command.Result} {deeds : List Deed} {report : Option Report}
    (h : s.Settles m u j r) (hdoes : j.flow.Does deeds)
    (hb : Balances j.occasion report s.core u.core deeds)
    (hgone : ∀ id, s.Gone id → u.Gone id) : u.Balanced (log ++ report.toList) where
  recorded id hid := EndpointLive.append_iff.mpr <|
    (hb.recorded id hid).imp_right fun hheld => ⟨hs.recorded id hheld.1, hheld.2⟩
  errands := hs.errands_step h.step hgone fun i e hi _ he => by
    obtain rfl := Option.some.inj (h.job.symm.trans hi)
    rw [hdoes.rest_eq] at he
    rcases hb.errands e he with ⟨id, p, rfl, ⟨hheld, hnone⟩ | ⟨hown, hstore⟩⟩ | hclient
    · obtain ⟨a, ha⟩ := Option.ne_none_iff_exists'.mp hheld
      exact .inl ⟨id, p, rfl, (hspent id a ha).step h.step, hnone⟩
    · refine .inl ⟨id, p, rfl, ⟨m.ticket, j, h.job, ⟨r, h.settled⟩, hown⟩, ?_⟩
      rw [hstore]
      by_contra hheld
      obtain ⟨a, ha⟩ := Option.ne_none_iff_exists'.mp hheld
      exact (hspent id a ha).ne_of_settles hu h hown
    · exact .inr hclient
  live hdone id hlive := by
    have howes : (∃ p, .errand (.deprovision id p) ∈ deeds) → u.OwesRemoval id := fun ⟨p, hp⟩ =>
      ⟨m.ticket, j, p, h.job, ⟨r, h.settled⟩, by rwa [hdoes.rest_eq]⟩
    rcases EndpointLive.append_iff.mp hlive with ⟨publisher, description, hr⟩ | ⟨hlive, hr⟩
    · exact (hb.provisioned id publisher description hr).imp_right howes
    · rcases hs.live (fun k p hk => hdone k p (List.mem_append_left _ hk)) id hlive with
        hheld | hother
      · refine or_iff_not_imp_left.mpr fun hnone => howes ?_
        refine (hb.dropped id hheld (not_not.mp hnone)).resolve_left ?_
        exact fun ⟨p, hp⟩ => hr p hp
      · refine .inr ((hother.step h.step).resolve_right ?_)
        rintro ⟨i, _, hi, hsettled, _⟩
        exact h.unsettled i hi hsettled

/-- A command that does its next deed does what it owes. -/
theorem proceeds (hs : s.Balanced log) {d : Deed} {deeds : List Deed}
    (h : s.Proceeds m u d deeds) (hgone : ∀ id, s.Gone id → u.Gone id) :
    u.Balanced (log ++ (s.report? m).toList) := by
  obtain ⟨i, hi, hsettled, hdoes⟩ := h.before
  obtain ⟨j, hj, hsettled', hdoes'⟩ := h.after
  obtain ⟨done, hreport⟩ := h.report
  have howed : ∀ e, .errand e ∈ d :: deeds →
      (∃ id p, e = .deprovision id p ∧ s.Gone id) ∨ ∃ i, e = .removeClient i := fun e he =>
    hs.errands _ i e hi hsettled (hdoes.rest_eq ▸ he)
  have hfirst : ∀ e done', s.report? m = some ⟨e, done'⟩ →
      d = .errand e ∧ .errand e ∈ d :: deeds := by
    intro e done' he
    rw [hreport] at he
    cases d with
    | errand e' =>
      cases he
      exact ⟨rfl, List.mem_cons_self⟩
    | announcement _ => cases he
  refine ⟨fun id hid => ?_, hs.errands_step h.step hgone fun k e hk _ he => ?_,
    fun hdone id hlive => ?_⟩
  · rw [h.core] at hid
    refine EndpointLive.append_iff.mpr (.inr ⟨hs.recorded id hid, fun p hp => ?_⟩)
    rcases howed _ (hfirst _ _ hp).2 with ⟨_, _, hk, hid'⟩ | ⟨_, hk⟩
    · cases hk
      exact hid hid'.2
    · cases hk
  · obtain rfl := Option.some.inj (hj.symm.trans hk)
    rw [hdoes'.rest_eq] at he
    exact (howed e (List.mem_cons_of_mem _ he)).imp_left
      fun ⟨id, p, hp, hid⟩ => ⟨id, p, hp, hgone id hid⟩
  · rcases EndpointLive.append_iff.mp hlive with ⟨publisher, description, hr⟩ | ⟨hlive, hr⟩
    · rcases howed _ (hfirst _ _ hr).2 with ⟨_, _, hk, _⟩ | ⟨_, hk⟩ <;> cases hk
    · rw [h.core]
      refine (hs.live (fun k p hk => hdone k p (List.mem_append_left _ hk)) id hlive).imp_right
        fun howes => ?_
      rcases howes.step h.step with hother | ⟨k, p, hk, _, he⟩
      · exact hother
      · obtain rfl := Option.some.inj (hi.symm.trans hk)
        rw [hdoes.rest_eq] at he
        rcases List.mem_cons.mp he with rfl | he
        · cases done with
          | true => exact absurd hreport (hr p)
          | false =>
            have hfailed : ⟨.deprovision id p, false⟩ ∈ (s.report? m).toList := by
              simp [hreport, Deed.errand?]
            exact absurd (List.mem_append_right _ hfailed) (hdone id p)
        · exact ⟨m.ticket, j, p, hj, hsettled', by rwa [hdoes'.rest_eq]⟩

/-- Every admitted move keeps the balance. -/
theorem step (hs : s.Balanced log) (hseen : s.Seen) (ho : s.Orderly) (hm : s.Admits m)
    (hp : s.Planned) (hspent : s.StoreSpent) (h : s.step m = some u) :
    u.Balanced (log ++ (s.report? m).toList) := by
  have hc := hseen.tracked_and_wellFormed.2
  have hgone : ∀ id, s.Gone id → u.Gone id := fun id hid =>
    hid.pass hseen ho (fun _ hn => Option.mem_some.mp hn ▸ hm) (.move h)
  cases turn_of_step hp hc h with
  | waits hwaits =>
    rw [hwaits.report, Option.toList_none, List.append_nil]
    exact hs.waits hwaits hgone
  | settles hsettles hdoes hsequel =>
    exact hs.settles (ho.step hm h) hspent hsettles hdoes (hsequel.balances hc) hgone
  | proceeds hproceeds => exact hs.proceeds hproceeds hgone

end Balanced

/-- Records and endpoints are balanced at the end of every run with fresh identifiers. -/
theorem balanced_run {ms : List Move} (hf : FreshIds ms) (h : fresh.run ms = some s) :
    s.Balanced (fresh.reports ms) := by
  refine fresh_run_induction (P := fun ms s => s.Balanced (fresh.reports ms)) balanced_fresh
    (fun ms m s u hs ho hm ih hstep => ?_) hf h
  rw [reports, record_concat hs hstep]
  exact ih.step (seen_run hs) ho hm (planned_run hs) (storeSpent_run hs) hstep

/-- Endpoints match publications: after a run with fresh identifiers every published API has a live
endpoint, and when no command is in progress and no endpoint failed to be taken down, the live
endpoints are exactly those of the published APIs. -/
theorem endpoints_match {ms : List Move} (hf : FreshIds ms) (h : fresh.run ms = some s) :
    (∀ id, s.core.store.contains id = true → EndpointLive (fresh.reports ms) id) ∧
      (s.Idle → (∀ id p, ⟨.deprovision id p, false⟩ ∉ fresh.reports ms) →
        ∀ id, EndpointLive (fresh.reports ms) id ↔ s.core.store.contains id = true) := by
  have hbalanced := balanced_run hf h
  have hcontains : ∀ id, s.core.store.contains id = true ↔ s.core.store.apis.get? id ≠ none :=
    fun _ => Option.isSome_iff_ne_none
  simp only [hcontains]
  refine ⟨hbalanced.recorded, fun hidle hdone id => ⟨fun hlive => ?_, hbalanced.recorded id⟩⟩
  refine (hbalanced.live hdone id hlive).resolve_right ?_
  rintro ⟨t, j, p, hj, hsettled, he⟩
  rcases planned_run h t j hj with ⟨_, deeds, hdoes⟩ | hpends
  · rw [hdoes.rest_eq, hdoes.eq_nil (hidle t j hj)] at he
    cases he
  · exact hpends.unsettled hsettled

/-- The sample API is published twice at a time. One publication is refused when its endpoint is
set up already. -/
def overlappingPublications : List Move := [
  .start 0 (.registerProvider sampleDomain) (.lettered 'a' default),
  .start 1 (.publish samplePublisher sampleApi) (.lettered 'b' default),
  .start 2 (.publish samplePublisher sampleApi) (.lettered 'c' default),
  .resume 1 (.errand (.ok ())),
  .resume 2 (.errand (.ok ())),
  .resume 1 .announced,
  .resume 2 (.errand (.ok ()))]

theorem freshIds_overlappingPublications : FreshIds overlappingPublications :=
  .of_letters ['a', 'b', 'c'] (by decide) rfl

/-- The endpoint of the publication that was refused is not live any more. -/
theorem endpoints_match_sample :
    ∃ s, fresh.run overlappingPublications = some s ∧ s.Idle ∧
      fresh.reports overlappingPublications = [
        ⟨.provision (.generate "b") samplePublisher sampleApi, true⟩,
        ⟨.provision (.generate "c") samplePublisher sampleApi, true⟩,
        ⟨.deprovision (.generate "c") samplePublisher, true⟩] ∧
      EndpointLive (fresh.reports overlappingPublications) (.generate "b") ∧
      ¬ EndpointLive (fresh.reports overlappingPublications) (.generate "c") := by
  have hrun : (fresh.run overlappingPublications).map (fun s =>
      ((overlappingPublications.map Move.ticket).all (fun t =>
        (s.jobs t).all (·.flow.hasEnded)), s.core.store.contains (.generate "b"),
        s.core.store.contains (.generate "c"))) = some (true, true, false) := rfl
  have hreports : fresh.reports overlappingPublications = [
      ⟨.provision (.generate "b") samplePublisher sampleApi, true⟩,
      ⟨.provision (.generate "c") samplePublisher sampleApi, true⟩,
      ⟨.deprovision (.generate "c") samplePublisher, true⟩] := rfl
  obtain ⟨s, hs, hrun⟩ := Option.map_eq_some_iff.mp hrun
  simp only [Prod.mk.injEq] at hrun
  obtain ⟨hended, hrecorded, hrefused⟩ := hrun
  have hidle : s.Idle := idle_of_run hs hended
  have hdone : ∀ id p, ⟨.deprovision id p, false⟩ ∉ fresh.reports overlappingPublications := by
    simp [hreports]
  obtain ⟨hlive, hexact⟩ := endpoints_match freshIds_overlappingPublications hs
  refine ⟨s, hs, hidle, hreports, hlive _ hrecorded, ?_⟩
  rw [hexact hidle hdone, hrefused]
  exact Bool.false_ne_true

end System

end ApiExposure
