import ApiExposure.Proofs.Discovery.Exact
import ApiExposure.Proofs.Invokers.Grants
import ApiExposure.Proofs.Publications.Ownership

/-!
# Removed APIs

An identifier that was in the store and is not any more is gone for good: the
command that generated it has taken effect, and no later one generates it again.
Grants for it are left with their invokers on purpose. They do no harm, for
whatever reads a grant looks for its API in the store, and nobody gets a new one.
Another API of the same publisher, name, exposer and version has an identifier of
its own, which the old grants do not name.

Removal is not told apart by its cause: a withdrawal, the removal of the
publisher's domain and that of the last exposer are all of this kind, also when
they are seen half done.
-/

namespace ApiExposure

namespace Core

variable {c : Core} {id : ApiId}

/-- An identifier stands for no API: none is shown under it, and none is granted. -/
structure Lacks (c : Core) (id : ApiId) : Prop where
  /-- It is not found. -/
  get : c.store.get id = .error (.notFound (.api id))
  /-- It is not found for any publisher either. -/
  getFor : ∀ publisher, c.store.getFor publisher id = .error (.notFound (.api id))
  /-- It is in no list. -/
  list : ∀ publisher apis, c.listApis publisher = .ok apis → ∀ a ∈ apis, a.id ≠ id
  /-- It is not discovered. -/
  discover : ∀ invoker criteria found, c.discover invoker criteria = .ok found →
    ∀ a ∈ found, a.id ≠ id
  /-- No grant for it is accepted. -/
  grant : ∀ invoker g now, g.api = id → c.grant invoker g now =
    .error (if g.hasBlank then .invalid .incompleteGrant else .notFound (.api id))

/-- What is not in the store stands for no API. -/
theorem lacks_of_not_stored (hc : c.store.WellFormed) (h : c.store.apis.get? id = none) :
    c.Lacks id := by
  have hother : ∀ key a, c.store.apis.get? key = some a → a.id ≠ id := by
    rintro key a ha rfl
    rw [(hc key a ha).own, ha] at h
    cases h
  have hget : c.store.get id = .error (.notFound (.api id)) := by rw [Publications.get, h]
  refine ⟨hget, fun publisher => by rw [Publications.getFor, h], ?_, ?_, ?_⟩
  · intro publisher apis hlist a ha
    obtain ⟨_, hlist⟩ := Outcome.andThen_eq_ok_iff.mp hlist
    cases hlist
    obtain ⟨key, hkey⟩ := Table.mem_values_iff.mp (List.mem_of_mem_filter ha)
    exact hother key a hkey
  · intro invoker criteria found hfound a ha
    cases hi : c.invokers.table.get? invoker with
    | none =>
      rw [discover_eq_error_iff.mpr ⟨hi, rfl⟩] at hfound
      cases hfound
    | some i =>
      rw [discover_eq_found hi] at hfound
      cases hfound
      obtain ⟨key, b, hdiscloses, rfl⟩ := (mem_found_iff hc).mp ha
      exact hother key b hdiscloses.stored
  · rintro invoker g now rfl
    cases hb : g.hasBlank with
    | true => simp [Core.grant, Grant.validate, require, hb, bind, Except.bind]
    | false => simp [Core.grant, Grant.validate, require, hb, hget, bind, Except.bind]

end Core

namespace System

/-- An identifier was in the store, was not at a later point, and the system comes after both. -/
def Removed (u : System) (id : ApiId) : Prop :=
  ∃ s t, fresh.Precedes s ∧ s.core.store.apis.get? id ≠ none ∧ s.Precedes t ∧
    t.core.store.apis.get? id = none ∧ t.Precedes u

/-- An identifier is spent and not in the store. -/
def Gone (s : System) (id : ApiId) : Prop := s.Spent id ∧ s.core.store.apis.get? id = none

variable {s u : System} {m : Option Move} {id : ApiId}

theorem Spent.pass (hs : s.Spent id) (h : s.Passes m u) : u.Spent id := by
  cases h with
  | move h => exact hs.step h
  | deregistered _ => exact hs
  | invalidated _ _ => exact hs

/-- What enters the store along a passage has the identifier of the command that takes effect. -/
theorem StoreSpent.pass (hseen : s.Seen) (hs : s.StoreSpent) (h : s.Passes m u) :
    u.StoreSpent := by
  obtain ⟨htracked, hc⟩ := hseen.tracked_and_wellFormed
  cases h with
  | move h => exact hs.step htracked hc h
  | deregistered _ => exact hs
  | invalidated functions now =>
    intro id b hb
    dsimp only at hb
    rw [hc.get?_invalidate] at hb
    obtain ⟨a, ha, _⟩ := Option.bind_eq_some_iff.mp hb
    exact hs id a ha

/-- What is stored has a spent identifier in every state that may be seen. -/
theorem Precedes.storeSpent (h : fresh.Precedes s) : s.StoreSpent :=
  h.invariant (P := StoreSpent) .fresh orderly_fresh (fun _ _ ha => nomatch ha)
    fun _ _ _ hv _ hspent _ hpass => hspent.pass hv hpass

/-- With fresh identifiers, what is stored under a spent identifier was stored before, by the same
publisher. -/
theorem Spent.stored_of_pass (hseen : s.Seen) (ho : s.Orderly) (hs : s.Spent id)
    (hfresh : ∀ n ∈ m, s.Admits n) (h : s.Passes m u) {b : PublishedApi}
    (hb : u.core.store.apis.get? id = some b) :
    ∃ a, s.core.store.apis.get? id = some a ∧ a.publisher = b.publisher := by
  obtain ⟨htracked, hc⟩ := hseen.tracked_and_wellFormed
  cases h with
  | move h =>
    rcases (step_cases htracked h).2 with ⟨j, r, hj, he, _⟩ | ⟨hcore, _⟩
    · refine (he.stored_cases hc hb).resolve_right fun hid => ?_
      exact hs.ne_of_settles (ho.step (hfresh _ rfl) h) hj hid
    · exact ⟨b, hcore ▸ hb, rfl⟩
  | deregistered _ => exact ⟨b, hb, rfl⟩
  | invalidated functions now =>
    dsimp only at hb
    rw [hc.get?_invalidate] at hb
    obtain ⟨a, ha, hsurvivor⟩ := Option.bind_eq_some_iff.mp hb
    obtain ⟨_, _, rfl⟩ := PublishedApi.survivor_eq_some_iff.mp hsurvivor
    exact ⟨a, ha, rfl⟩

/-- So what is gone stays gone. -/
theorem Gone.pass (hseen : s.Seen) (ho : s.Orderly) (hs : s.Gone id)
    (hfresh : ∀ n ∈ m, s.Admits n) (h : s.Passes m u) : u.Gone id := by
  obtain ⟨hspent, hnone⟩ := hs
  refine ⟨hspent.pass h, Option.eq_none_iff_forall_ne_some.mpr fun b hb => ?_⟩
  obtain ⟨a, ha, _⟩ := hspent.stored_of_pass hseen ho hfresh h hb
  rw [hnone] at ha
  cases ha

/-- What is removed is gone. -/
theorem Removed.gone (h : u.Removed id) : u.Gone id := by
  obtain ⟨s, t, hs, hstored, hst, hnone, htu⟩ := h
  have hsSeen := hs.seen .fresh
  have hsOrderly := hs.orderly orderly_fresh
  obtain ⟨a, ha⟩ := Option.ne_none_iff_exists'.mp hstored
  have hspent : t.Spent id := hst.invariant (P := fun v => v.Spent id) hsSeen hsOrderly
    (hs.storeSpent id a ha) fun _ _ _ _ _ hspent _ hpass => hspent.pass hpass
  exact htu.invariant (P := fun v => v.Gone id) (hst.seen hsSeen) (hst.orderly hsOrderly)
    ⟨hspent, hnone⟩ fun _ _ _ hv ho hgone hfresh hpass => hgone.pass hv ho hfresh hpass

/-- Nothing that may be seen to happen gives an invoker a grant for what is not stored. -/
theorem Passes.holds (hs : s.Seen) (h : s.Passes m u) {invoker : InvokerId} {g : Grant}
    (hg : u.core.invokers.Holds invoker g) (hnone : s.core.store.apis.get? g.api = none) :
    s.core.invokers.Holds invoker g := by
  obtain ⟨htracked, hc⟩ := hs.tracked_and_wellFormed
  cases h with
  | move h =>
    rcases (step_cases htracked h).2 with ⟨j, r, hj, he, _⟩ | ⟨hcore, _⟩
    · exact (he.gainsOnly hc invoker g hg).resolve_right fun hstored => hstored hnone
    · exact hcore ▸ hg
  | deregistered _ => exact hg
  | invalidated _ _ => exact hg

/-- In every state that fresh identifiers lead to, a removed API is neither shown nor granted,
no passage adds a grant for it, and a call all of whose covering grants are for removed APIs is
not granted. -/
theorem removed_never_returns (hu : fresh.Precedes u) :
    (∀ id, u.Removed id → u.core.Lacks id ∧
        ∀ m v invoker g, u.Passes m v → v.core.invokers.Holds invoker g → g.api = id →
          u.core.invokers.Holds invoker g) ∧
      ∀ (call : Call) (i : InvokerIdentity),
        u.core.invokers.table.get? call.invoker = some i → call.hasBlank = false →
        (∀ g ∈ i.grants, g.covers call = true → u.Removed g.api) →
        ∀ now, u.core.check call now = .ok (.deny .notGranted) := by
  have hseen := hu.seen .fresh
  have hc := hseen.tracked_and_wellFormed.2
  refine ⟨fun id hid => ⟨Core.lacks_of_not_stored hc hid.gone.2, ?_⟩, ?_⟩
  · rintro m v invoker g hpass hg rfl
    exact hpass.holds hseen hg hid.gone.2
  · intro call i hi hb hremoved now
    refine (Core.Due.notGranted hi fun g hg => ?_).check hc hb
    rintro ⟨a, v, hlive⟩
    obtain ⟨hexposer, hname, hversion⟩ := hlive.covers
    have hcovers : g.covers call = true := by simp [Grant.covers, hexposer, hname, hversion]
    have hnone := (hremoved g hg hcovers).gone.2
    rw [hlive.stored] at hnone
    cases hnone

/-- The sample API is withdrawn. -/
def withdrawal : List Move := [
  .start 3 (.unpublish samplePublisher (.generate "b")) (.lettered 'd' default),
  .resume 3 (.errand (.ok ()))]

/-- Its publisher publishes the same again. -/
def republication : List Move := [
  .start 4 (.publish samplePublisher sampleApi) (.lettered 'e' default),
  .resume 4 (.errand (.ok ()))]

theorem freshIds_republication : FreshIds ((sampleGranting ++ withdrawal) ++ republication) :=
  .of_letters ['a', 'b', 'c', 'd', 'e'] (by decide) rfl

/-- The new API is there, but the grant for the old one does not reach it. -/
theorem removed_never_returns_sample :
    ∃ u i, fresh.Precedes u ∧ u.Removed (.generate "b") ∧ u.core.Lacks (.generate "b") ∧
      u.core.invokers.table.get? (.generate "c") = some i ∧
      i.grants = [⟨.generate "b", .generate .exposer "aaa", "maps", "v1"⟩] ∧
      (u.core.listApis samplePublisher).map (·.map (fun a => (a.id, a.name))) =
        .ok [(.generate "e", "maps")] ∧
      u.core.check sampleCall default = .ok (.deny .notGranted) := by
  have hrun : (fresh.run sampleGranting).bind (fun s => (s.run withdrawal).bind (fun t =>
      (t.run republication).bind (fun u =>
        (u.core.invokers.table.get? (.generate "c")).map (fun i =>
          ((s.core.store.apis.get? (.generate "b")).isSome,
            (t.core.store.apis.get? (.generate "b")).isNone, i.grants,
            (u.core.listApis samplePublisher).map (·.map (fun a => (a.id, a.name)))))))) =
      some (true, true, [⟨.generate "b", .generate .exposer "aaa", "maps", "v1"⟩],
        .ok [(.generate "e", "maps")]) := rfl
  obtain ⟨s, hs, hrun⟩ := Option.bind_eq_some_iff.mp hrun
  obtain ⟨t, ht, hrun⟩ := Option.bind_eq_some_iff.mp hrun
  obtain ⟨u, hu, hrun⟩ := Option.bind_eq_some_iff.mp hrun
  obtain ⟨i, hi, hrun⟩ := Option.map_eq_some_iff.mp hrun
  simp only [Prod.mk.injEq] at hrun
  obtain ⟨hstored, hnone, hgrants, hlist⟩ := hrun
  have hfresh := freshIds_republication
  have hstart : fresh.Precedes s :=
    precedes_of_run (show FreshIds ([] ++ sampleGranting) from hfresh.left.left) rfl hs
  have hst : s.Precedes t := precedes_of_run hfresh.left hs ht
  have htu : t.Precedes u :=
    precedes_of_run hfresh (run_append_eq_some.mpr ⟨s, hs, ht⟩) hu
  have hremoved : u.Removed (.generate "b") :=
    ⟨s, t, hstart, Option.isSome_iff_ne_none.mp hstored, hst, Option.isNone_iff_eq_none.mp hnone,
      htu⟩
  have hfu : fresh.Precedes u := (hstart.trans hst).trans htu
  obtain ⟨hgone, hdenied⟩ := removed_never_returns hfu
  refine ⟨u, i, hfu, hremoved, (hgone _ hremoved).1, hi, hgrants, hlist,
    hdenied sampleCall i hi (by decide) (fun g hg _ => ?_) default⟩
  rw [hgrants, List.mem_singleton] at hg
  rw [hg]
  exact hremoved

end System

end ApiExposure
