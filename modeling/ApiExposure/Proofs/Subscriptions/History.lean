import ApiExposure.Proofs.Subscriptions.Naming
import ApiExposure.Proofs.System.Freshness

/-!
# The history of subscriptions

Which subscriptions are in force is told by what succeeded along a run: those
entered and not ended later by their own subscriber under their own identifier.
The registry holds just these as long as no two subscriptions have been given one
name; a name given again takes the place of the earlier subscription, whoever
holds it. So nothing is lost exactly when the subscribers are told apart. The
induction is on the last move: it is an act on the registry or leaves it alone.
-/

namespace ApiExposure

/-- What a success does to the subscriptions. -/
inductive SubscriptionAct where
  /-- A subscription was entered under the identifier returned. -/
  | entered (id : SubscriptionId) (entry : SubscriptionEntry)
  /-- A subscriber ended a subscription. -/
  | ended (id : SubscriptionId) (subscriber : String)
  deriving DecidableEq

namespace SubscriptionAct

/-- The subscription that is entered. -/
def entry? : SubscriptionAct → Option (SubscriptionId × SubscriptionEntry)
  | entered id entry => some (id, entry)
  | ended _ _ => none

/-- All subscriptions entered, in order. -/
def entries (acts : List SubscriptionAct) : List (SubscriptionId × SubscriptionEntry) :=
  acts.filterMap entry?

/-- Those not ended later by their own subscriber under their own identifier, in order. -/
def inForce : List SubscriptionAct → List (SubscriptionId × SubscriptionEntry)
  | [] => []
  | entered id entry :: later =>
    if ended id entry.subscriber ∈ later then inForce later else (id, entry) :: inForce later
  | ended _ _ :: later => inForce later

variable {acts : List SubscriptionAct} {id : SubscriptionId}

theorem entries_append (acts later : List SubscriptionAct) :
    entries (acts ++ later) = entries acts ++ entries later := List.filterMap_append

/-- A subscription that is entered is in force, behind the others. -/
theorem inForce_concat_entered (entry : SubscriptionEntry) :
    inForce (acts ++ [entered id entry]) = inForce acts ++ [(id, entry)] := by
  induction acts with
  | nil => rfl
  | cons act acts ih =>
    cases act with
    | ended _ _ => exact ih
    | entered other held =>
      simp only [List.cons_append, inForce, ih, List.mem_append, List.mem_singleton,
        reduceCtorEq, or_false]
      split <;> rfl

/-- What ends is in force no more, if it is the subscriber's. -/
theorem inForce_concat_ended (subscriber : String) :
    inForce (acts ++ [ended id subscriber]) =
      (inForce acts).filter (fun e => ¬ (e.1 = id ∧ e.2.subscriber = subscriber)) := by
  induction acts with
  | nil => rfl
  | cons act acts ih =>
    cases act with
    | ended _ _ => exact ih
    | entered other held =>
      simp only [List.cons_append, inForce, ih, List.mem_append, List.mem_singleton, ended.injEq]
      by_cases hlater : ended other held.subscriber ∈ acts
      · simp only [hlater, true_or, if_true]
      · by_cases hnow : other = id ∧ held.subscriber = subscriber
        · rw [if_pos (.inr hnow), if_neg hlater, List.filter_cons_of_neg (by simpa using hnow)]
        · rw [if_neg (not_or.mpr ⟨hlater, hnow⟩), if_neg hlater, List.filter_cons,
            if_pos (decide_eq_true hnow)]

/-- What is in force was entered. -/
theorem mem_entries_of_mem_inForce {e : SubscriptionId × SubscriptionEntry}
    (h : e ∈ inForce acts) : e ∈ entries acts := by
  induction acts with
  | nil => exact h
  | cons act acts ih =>
    cases act with
    | ended _ _ => exact ih h
    | entered other held =>
      simp only [inForce] at h
      split at h
      · exact List.mem_cons_of_mem _ (ih h)
      · exact (List.mem_cons.mp h).elim (fun he => he ▸ List.mem_cons_self)
          fun he => List.mem_cons_of_mem _ (ih he)

end SubscriptionAct

open SubscriptionAct

namespace Subscriptions

/-- How the registry takes an act, or none. -/
inductive Takes : Subscriptions → Option SubscriptionAct → Subscriptions → Prop
  /-- It is left alone. -/
  | nothing (r : Subscriptions) : Takes r none r
  /-- A subscription is entered. -/
  | entered {r r' : Subscriptions} {id : SubscriptionId} {subscriber : String}
      {s : EventSubscription} (h : r.subscribe subscriber s = .ok (id, r')) :
      Takes r (some (.entered id ⟨subscriber, s⟩)) r'
  /-- A subscription ends. -/
  | ended {r r' : Subscriptions} {id : SubscriptionId} {subscriber : String}
      (h : r.unsubscribe subscriber id = .ok r') : Takes r (some (.ended id subscriber)) r'

/-- What the registry holds after acts: it has numbered all subscriptions entered, in 64 bits,
and it keeps those in force if their names differ. -/
structure Follows (r : Subscriptions) (acts : List SubscriptionAct) : Prop where
  /-- The number of the last one. -/
  sequence : r.sequence = .ofNat (entries acts).length
  /-- Each is named by its subscriber and number. -/
  named : (entries acts).map (·.1) = (entries acts).mapIdx (fun i e =>
    .forSubscriber e.2.subscriber (UInt64.ofNat (i + 1)).toNat)
  /-- No other subscription has the place of one in force. -/
  table : ((entries acts).map (·.1)).Nodup → r.table.entries = inForce acts

theorem follows_empty : empty.Follows [] := ⟨rfl, rfl, fun _ => rfl⟩

/-- A subscription is stored under its subscriber with the next number. -/
theorem of_subscribe_eq_ok {r r' : Subscriptions} {subscriber : String} {s : EventSubscription}
    {id : SubscriptionId} (h : r.subscribe subscriber s = .ok (id, r')) :
    id = .forSubscriber subscriber (r.sequence + 1).toNat ∧
      r' = ⟨r.table.insert id ⟨subscriber, s⟩, r.sequence + 1⟩ := by
  obtain ⟨_, h⟩ := Outcome.andThen_eq_ok_iff.mp h
  obtain ⟨_, h⟩ := Outcome.andThen_eq_ok_iff.mp h
  cases h
  exact ⟨rfl, rfl⟩

/-- What ends is the subscription of that subscriber under that identifier, and nothing else. -/
theorem entries_of_unsubscribe_eq_ok {r r' : Subscriptions} {subscriber : String}
    {id : SubscriptionId} (h : r.unsubscribe subscriber id = .ok r') :
    r'.sequence = r.sequence ∧ r'.table.entries =
      r.table.entries.filter (fun e => ¬ (e.1 = id ∧ e.2.subscriber = subscriber)) := by
  rw [unsubscribe] at h
  split at h
  · next howned =>
    cases h
    refine ⟨rfl, List.filter_congr fun e he => ?_⟩
    have hown : e.1 = id → e.2.subscriber = subscriber := by
      intro hkey
      have hget : r.table.get? id = some e.2 := Table.get?_eq_some_iff.mpr (hkey ▸ he)
      simpa [hget] using howned
    simp only [ne_eq, decide_eq_decide, not_and]
    exact ⟨fun hne hkey => absurd hkey hne, fun hne hkey => hne hkey (hown hkey)⟩
  · cases h

namespace Follows

variable {r r' : Subscriptions} {acts : List SubscriptionAct} {subscriber : String}
  {id : SubscriptionId}

/-- A subscription more is numbered next. It goes to the end if its name is new. -/
theorem subscribe (hr : r.Follows acts) {s : EventSubscription}
    (h : r.subscribe subscriber s = .ok (id, r')) :
    r'.Follows (acts ++ [.entered id ⟨subscriber, s⟩]) := by
  obtain ⟨hid, rfl⟩ := of_subscribe_eq_ok h
  have hnumber : r.sequence + 1 = .ofNat ((entries acts).length + 1) := by
    rw [hr.sequence, UInt64.ofNat_add]
    rfl
  have hentries : entries (acts ++ [.entered id ⟨subscriber, s⟩]) =
      entries acts ++ [(id, ⟨subscriber, s⟩)] := entries_append _ _
  refine ⟨?_, ?_, fun hnodup => ?_⟩
  · rw [hentries, List.length_append]
    exact hnumber
  · rw [hentries, List.map_append, List.mapIdx_concat, hr.named, hid, hnumber]
    rfl
  · rw [hentries, List.map_append, List.nodup_append] at hnodup
    obtain ⟨hnodup, _, hfresh⟩ := hnodup
    have hnew : r.table.contains id = false := by
      rw [Bool.eq_false_iff, Ne, Table.contains_eq_true_iff, Table.keys, hr.table hnodup]
      intro hmem
      obtain ⟨e, he, hkey⟩ := List.mem_map.mp hmem
      exact hfresh id (List.mem_map.mpr ⟨e, mem_entries_of_mem_inForce he, hkey⟩) id
        (List.mem_singleton_self id) rfl
    rw [inForce_concat_entered, ← hr.table hnodup]
    exact Table.entries_insert_of_not_contains hnew

/-- A subscription less is in force. -/
theorem unsubscribe (hr : r.Follows acts) (h : r.unsubscribe subscriber id = .ok r') :
    r'.Follows (acts ++ [.ended id subscriber]) := by
  obtain ⟨hsequence, htable⟩ := entries_of_unsubscribe_eq_ok h
  have hentries : entries (acts ++ [.ended id subscriber]) = entries acts :=
    (entries_append _ _).trans (List.append_nil _)
  refine ⟨?_, ?_, fun hnodup => ?_⟩
  · rw [hentries, hsequence, hr.sequence]
  · rw [hentries, hr.named]
  · rw [hentries] at hnodup
    rw [htable, inForce_concat_ended, hr.table hnodup]

/-- So one act more and the registry still holds what it should. -/
theorem takes {act : Option SubscriptionAct} (hr : r.Follows acts) (h : r.Takes act r') :
    r'.Follows (acts ++ act.toList) := by
  cases h with
  | nothing =>
    rw [Option.toList_none, List.append_nil]
    exact hr
  | entered h => exact hr.subscribe h
  | ended h => exact hr.unsubscribe h

end Follows

/-- Nothing is lost: names differ, the subscriptions in force are kept in order, and for every
event just those that are for it are owed a notification, at their destinations. -/
structure Keeps (r : Subscriptions) (acts : List SubscriptionAct) : Prop where
  /-- No identifier is returned twice. -/
  distinct : ((entries acts).map (·.1)).Nodup
  /-- The registry holds what is in force. -/
  inForce : r.table.entries = inForce acts
  /-- One notification for each subscription in force that is for the event. -/
  notifications : ∀ e : Event, r.notificationsFor e =
    ((SubscriptionAct.inForce acts).filter (fun s => e.kind ∈ s.2.subscription.events ∧
      ∀ f ∈ s.2.subscription.filters, f.accepts e.detail = true)).map
      (fun s => (s.2.subscription.destination, ⟨s.1, e.kind, e.detail, e.id, e.timestamp⟩))

/-- Up to the last number of 64 bits, nothing is lost exactly when the subscribers are told
apart. -/
theorem Follows.keeps_iff {r : Subscriptions} {acts : List SubscriptionAct} (hr : r.Follows acts)
    (h : (entries acts).length < UInt64.size) :
    r.Keeps acts ↔ SubscriptionId.ToldApart ((entries acts).map (·.2.subscriber)) := by
  have hnamed : (entries acts).map (·.1) =
      ((entries acts).map (·.2.subscriber)).mapIdx (fun i s => .forSubscriber s (i + 1)) := by
    rw [hr.named]
    refine List.ext_getElem (by simp) fun i hi _ => ?_
    rw [List.length_mapIdx] at hi
    have hsize : i + 1 < UInt64.size := Nat.lt_of_le_of_lt hi h
    simp only [List.getElem_mapIdx, List.getElem_map, UInt64.toNat_ofNat_of_lt' hsize]
  rw [← SubscriptionId.nodup_iff_toldApart, ← hnamed]
  refine ⟨Keeps.distinct, fun hnodup => ⟨hnodup, hr.table hnodup, fun e => ?_⟩⟩
  have hmatches : ∀ s : EventSubscription, s.matchesEvent e =
      decide (e.kind ∈ s.events ∧ ∀ f ∈ s.filters, f.accepts e.detail = true) := by
    intro s
    rw [Bool.eq_iff_iff]
    simp [EventSubscription.matchesEvent]
  simp only [notificationsFor, hr.table hnodup, hmatches]
  rfl

end Subscriptions

/-- An operation without collaborators has ended once it is settled. -/
theorem Flow.Settled.eq_done {α : Type} {c : Core} {x : Outcome (α × Core)} {r : Outcome α}
    (h : (ofOutcome c x).Settled r) : ∃ d, ofOutcome c x = .done d r := by
  cases x with
  | error f => exact ⟨c, congrArg (done c) h⟩
  | ok a => exact ⟨a.2, congrArg (done a.2) h⟩

namespace Command

/-- What a command does to the subscriptions by its outcome. -/
def act? : (command : Command) → Outcome command.Result → Option SubscriptionAct
  | subscribe subscriber s, .ok id => some (.entered id ⟨subscriber, s⟩)
  | unsubscribe subscriber id, .ok _ => some (.ended id subscriber)
  | _, _ => none

/-- The commands that ask a collaborator first do not concern the subscriptions. -/
theorem act?_of_asksFirst {command : Command} (h : command.asksFirst = true)
    (r : Outcome command.Result) : command.act? r = none := by
  cases command with
  | publish _ _ | unpublish _ _ | onboard _ | offboard _ => rfl
  | _ => cases h

end Command

/-- An effect changes the subscriptions by the act of its command, if any. -/
theorem Effect.takes {o : Occasion} {command : Command} {c d : Core}
    {r : Outcome command.Result} (h : Effect o command c r d) :
    c.subscriptions.Takes (command.act? r) d.subscriptions := by
  cases h with
  | subscribed h => exact .entered h
  | unsubscribed h => exact .ended h
  | failed f => cases command <;> exact .nothing _
  | _ => exact .nothing _

namespace Move

/-- Whether a move is a call to subscribe. -/
def subscribes : Move → Bool
  | start _ (.subscribe _ _) _ => true
  | _ => false

end Move

namespace System

/-- What a move does to the subscriptions: the commands that concern them end where they
start. -/
def act? (s : System) : Move → Option SubscriptionAct
  | .start _ command o =>
    match command.start o s.core with
    | .done _ r => command.act? r
    | _ => none
  | .resume _ _ => none

/-- What the moves of a run do to the subscriptions, in order. -/
def acts (s : System) : List Move → List SubscriptionAct
  | [] => []
  | m :: ms =>
    match s.step m with
    | some u => (s.act? m).toList ++ u.acts ms
    | none => []

variable {s u : System} {m : Move}

/-- The act of a move is that of the command which it settles. -/
theorem act?_of_settles (ht : s.Tracked) {j : Job} {r : Outcome j.command.Result}
    (h : s.Settles m u j r) : s.act? m = j.command.act? r := by
  cases m with
  | start t command o =>
    obtain ⟨_, rfl⟩ := step_start.mp h.step
    obtain rfl := Option.some.inj ((jobs_advance_self _ _ _).symm.trans h.job)
    cases command with
    | subscribe _ _ | unsubscribe _ _ =>
      obtain ⟨d, hd⟩ := h.settled.eq_done
      simp only [act?, Command.start, hd]
    | _ =>
      simp only [act?]
      split <;> rfl
  | resume t reply =>
    rcases (step_cases ht h.step).2 with ⟨i, q, hi, _, hwaits⟩ | ⟨_, hnone⟩
    · obtain rfl := Option.some.inj (hi.job.symm.trans h.job)
      rcases hwaits with hstart | ⟨hasks, _⟩
      · cases hstart
      · exact (Command.act?_of_asksFirst hasks r).symm
    · exact absurd h (hnone j r)

/-- Every move takes its act to the subscriptions and nothing else. -/
theorem subscriptions_step (ht : s.Tracked) (h : s.step m = some u) :
    s.core.subscriptions.Takes (s.act? m) u.core.subscriptions := by
  rcases (step_cases ht h).2 with ⟨j, r, hj, he, _⟩ | ⟨hcore, hnone⟩
  · rw [act?_of_settles ht hj]
    exact he.takes
  · have hact : s.act? m = none := by
      cases m with
      | resume t reply => rfl
      | start t command o =>
        obtain ⟨hunused, rfl⟩ := step_start.mp h
        simp only [act?]
        split
        · next c r hdone =>
          refine absurd ⟨h, jobs_advance_self _ _ _, ?_, fun i hi => ?_⟩
            (hnone ⟨command, o, command.start o s.core⟩ r)
          · rw [hdone]
            rfl
          · cases hunused.symm.trans hi
        · rfl
    rw [hact, hcore]
    exact .nothing _

/-- One more move adds what it does. -/
theorem acts_concat {ms : List Move} {v : System} (hs : s.run ms = some u)
    (hm : u.step m = some v) : s.acts (ms ++ [m]) = s.acts ms ++ (u.act? m).toList := by
  induction ms generalizing s with
  | nil =>
    cases hs
    simp [acts, hm]
  | cons n ms ih =>
    obtain ⟨w, hw, hrest⟩ := run_cons_eq_some.mp hs
    simp only [List.cons_append, acts, hw, ih hrest, List.append_assoc]

/-- At the end of every run the registry holds what the acts left. -/
theorem follows_run {ms : List Move} (h : fresh.run ms = some s) :
    s.core.subscriptions.Follows (fresh.acts ms) := by
  refine run_induction (P := fun ms s => s.core.subscriptions.Follows (fresh.acts ms))
    Subscriptions.follows_empty (fun ms m s u hs ih hm => ?_) h
  rw [acts_concat hs hm]
  exact ih.takes (subscriptions_step (tracked_run hs) hm)

/-- A move enters a subscription only if it is a call to do so. -/
theorem length_entries_act?_le (s : System) (m : Move) :
    (entries (s.act? m).toList).length ≤ if m.subscribes then 1 else 0 := by
  cases m with
  | resume t reply => exact Nat.zero_le _
  | start t command o =>
    cases command with
    | subscribe subscriber subscription =>
      calc _ ≤ (s.act? (.start t (.subscribe subscriber subscription) o)).toList.length :=
            List.length_filterMap_le _ _
        _ ≤ 1 := Option.length_toList_le
    | unsubscribe subscriber id =>
      simp only [act?, Command.start]
      cases s.core.unsubscribe subscriber id <;> exact Nat.zero_le _
    | _ =>
      simp only [act?]
      split <;> exact Nat.zero_le _

/-- No more subscriptions are entered than calls are made. -/
theorem length_entries_acts_le (s : System) (ms : List Move) :
    (entries (s.acts ms)).length ≤ ms.countP Move.subscribes := by
  induction ms generalizing s with
  | nil => exact Nat.le_refl 0
  | cons m ms ih =>
    have hone := length_entries_act?_le s m
    rw [List.countP_cons, acts]
    split
    · next u _ =>
      have hrest := ih u
      rw [entries_append, List.length_append]
      omega
    · exact Nat.zero_le _

/-- On a run with fewer than 2 ^ 64 calls to subscribe, nothing is lost exactly when the subscribers
are told apart. -/
theorem subscriptions_kept_iff {ms : List Move} (h : fresh.run ms = some s)
    (hcalls : ms.countP Move.subscribes < UInt64.size) :
    s.core.subscriptions.Keeps (fresh.acts ms) ↔
      SubscriptionId.ToldApart ((entries (fresh.acts ms)).map (·.2.subscriber)) :=
  (follows_run h).keeps_iff (Nat.lt_of_le_of_lt (length_entries_acts_le fresh ms) hcalls)

/-- A subscription to what happens to invokers. -/
def sampleSubscription : EventSubscription := ⟨[.invokerOnboarded], "http://a", [], none⟩

/-- Calls to subscribe, one for each subscriber, in order. -/
def subscribing (subscribers : List String) : List Move :=
  subscribers.mapIdx (fun i s =>
    .start i (.subscribe s sampleSubscription) (.lettered 'a' default))

/-- One subscriber twice, who ends the first subscription. -/
def sampleSubscribing : List Move := subscribing ["sub", "sub"] ++ [
  .start 2 (.unsubscribe "sub" ⟨"sub1"⟩) (.lettered 'a' default)]

/-- Of the two subscriptions the second is in force at the end, and it is kept. -/
theorem subscriptions_kept_sample :
    ∃ s, fresh.run sampleSubscribing = some s ∧
      sampleSubscribing.countP Move.subscribes < UInt64.size ∧
      SubscriptionAct.inForce (fresh.acts sampleSubscribing) =
        [(⟨"sub2"⟩, ⟨"sub", sampleSubscription⟩)] ∧
      s.core.subscriptions.Keeps (fresh.acts sampleSubscribing) := by
  have hrun : (fresh.run sampleSubscribing).isSome = true := by decide +kernel
  have hacts : fresh.acts sampleSubscribing = [
      .entered ⟨"sub1"⟩ ⟨"sub", sampleSubscription⟩,
      .entered ⟨"sub2"⟩ ⟨"sub", sampleSubscription⟩, .ended ⟨"sub1"⟩ "sub"] := by
    decide +kernel
  have hcalls : sampleSubscribing.countP Move.subscribes < UInt64.size := by decide
  obtain ⟨s, hs⟩ := Option.isSome_iff_exists.mp hrun
  refine ⟨s, hs, hcalls, by rw [hacts]; rfl, (subscriptions_kept_iff hs hcalls).mpr ?_⟩
  rw [hacts]
  refine SubscriptionId.toldApart_of_no_digits fun s hs t ht lead he _ => ?_
  have hsub : ∀ x ∈ ["sub", "sub"], x = "sub" := by decide
  rw [hsub s hs, hsub t ht] at he
  simpa using he.symm

/-- The eleventh subscriber gets the name of the first subscription. -/
def collidingSubscribing : List Move :=
  subscribing ["a1", "b", "b", "b", "b", "b", "b", "b", "b", "b", "a"]

/-- The first subscription is lost although nobody ended it. -/
theorem subscription_lost :
    ∃ s, fresh.run collidingSubscribing = some s ∧
      collidingSubscribing.countP Move.subscribes < UInt64.size ∧
      ¬ s.core.subscriptions.Keeps (fresh.acts collidingSubscribing) := by
  have hrun : (fresh.run collidingSubscribing).isSome = true := by decide +kernel
  have hnames : ¬ ((entries (fresh.acts collidingSubscribing)).map (·.1)).Nodup := by
    decide +kernel
  obtain ⟨s, hs⟩ := Option.isSome_iff_exists.mp hrun
  exact ⟨s, hs, by decide, fun hkeeps => hnames hkeeps.distinct⟩

end System

end ApiExposure
