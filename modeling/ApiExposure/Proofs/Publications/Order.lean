import ApiExposure.Proofs.System.Passage

/-!
# The order of publication

The store lists its APIs in the order in which they were published. A patch puts
an API back in its own place, and what a withdrawal or a cascade leaves keeps its
order; only a publication adds to the end. So the identifiers in the store are
among those published, in that order. Nothing is assumed of identifiers here: one
that is published again counts from then on.
-/

namespace ApiExposure

namespace Publications

variable {s : Publications}

/-- A published API goes to the end. -/
theorem keys_add {a : PublishedApi} (h : s.apis.get? a.id = none) :
    (s.add a).apis.keys = s.apis.keys ++ [a.id] :=
  Table.keys_insert_of_not_contains (Table.contains_eq_false_iff.mpr h)

/-- A changed API stays in its place. -/
theorem keys_replace {a b : PublishedApi} (h : s.apis.get? b.id = some a) :
    (s.replace b).apis.keys = s.apis.keys := by
  have hheld : s.apis.contains b.id = true := by rw [Table.contains, h]; rfl
  exact Table.keys_insert_of_contains hheld

/-- A cascade keeps the order of what it leaves. -/
theorem keys_invalidate_sublist (hs : s.Keyed) (removed : List FunctionId) (now : Instant) :
    (s.invalidate removed now).1.apis.keys.Sublist s.apis.keys := by
  refine invalidate_induction (P := fun t => t.keys.Sublist s.apis.keys) hs
    (List.Sublist.refl _) (fun t a _ _ ht => ?_) fun t a b _ _ hheld ht => ?_
  · exact (Table.keys_erase_sublist t a.id).trans ht
  · rwa [Table.keys_insert_of_contains hheld]

end Publications

/-- The API that a command publishes by its outcome. -/
def Command.published? : (command : Command) → Outcome command.Result → Option ApiId
  | .publish _ _, .ok a => some a.id
  | _, _ => none

namespace Effect

variable {o : Occasion} {command : Command} {c d : Core} {r : Outcome command.Result}

/-- What is published was not in the store and is the last in it afterwards. -/
theorem keys_of_published (h : Effect o command c r d) {id : ApiId}
    (hp : command.published? r = some id) :
    id ∉ c.store.apis.keys ∧ d.store.apis.keys = c.store.apis.keys ++ [id] := by
  cases h with
  | published h =>
    obtain ⟨_, hfree, rfl, rfl⟩ := Publications.publishAs_eq_ok_iff.mp h
    cases hp
    exact ⟨Table.lookup_eq_none_iff.mp hfree, Publications.keys_add hfree⟩
  | failed f => cases command <;> cases hp
  | _ => cases hp

/-- Where nothing is published, what is left in the store keeps its order. -/
theorem keys_sublist (h : Effect o command c r d) (hc : c.store.WellFormed)
    (hp : command.published? r = none) : d.store.apis.keys.Sublist c.store.apis.keys := by
  cases h with
  | removed h => exact Publications.keys_invalidate_sublist hc.keyed _ _
  | published h => cases hp
  | @patched c publisher id p b store h =>
    obtain ⟨a, ha, _, _, _, rfl, rfl⟩ := Publications.of_updateFor_eq_ok h
    have hid : (a.apply p o.now).id = id := (hc id a ha).own
    exact Publications.keys_replace (a := a) (by rw [hid, ha]) ▸ List.Sublist.refl _
  | withdrawn h =>
    dsimp only
    rw [(Publications.of_unpublish_eq_ok h).2]
    exact Table.keys_erase_sublist _ _
  | _ => exact List.Sublist.refl _

end Effect

namespace System

/-- By a move a command succeeds that publishes an API. -/
def Publishes (s : System) (m : Move) (u : System) (id : ApiId) : Prop :=
  ∃ j r, s.Settles m u j r ∧ j.command.published? r = some id

/-- A system that may be seen, with the APIs published up to then in the order of publication. -/
inductive SeenAfter : System → List ApiId → Prop
  /-- At first nothing was published. -/
  | fresh : SeenAfter fresh []
  /-- What a move publishes is the last from then on. -/
  | published {s u : System} {m : Move} {id : ApiId} {order : List ApiId}
      (hs : SeenAfter s order) (h : s.Publishes m u id) :
      SeenAfter u (order.filter (· ≠ id) ++ [id])
  /-- Every other passage leaves the order. -/
  | passed {s u : System} {m : Option Move} {order : List ApiId} (hs : SeenAfter s order)
      (h : s.Passes m u) (hnone : ∀ n ∈ m, ∀ id, ¬ s.Publishes n u id) : SeenAfter u order

variable {s u : System} {m : Move} {order : List ApiId}

theorem Publishes.step {id : ApiId} (h : s.Publishes m u id) : s.step m = some u :=
  let ⟨_, _, hj, _⟩ := h
  hj.step

/-- What a move publishes was not in the store and is the last in it afterwards. -/
theorem Publishes.keys {id : ApiId} (ht : s.Tracked) (h : s.Publishes m u id) :
    id ∉ s.core.store.apis.keys ∧
      u.core.store.apis.keys = s.core.store.apis.keys ++ [id] := by
  obtain ⟨j, r, hj, hp⟩ := h
  rcases (step_cases ht hj.step).2 with ⟨i, q, hi, he, _⟩ | ⟨_, hnone⟩
  · obtain rfl : i = j := Option.some.inj (hi.job.symm.trans hj.job)
    obtain rfl : q = r := hi.settled.unique hj.settled
    exact he.keys_of_published hp
  · exact absurd hj (hnone j r)

/-- A move that publishes nothing keeps the order of what is left. -/
theorem keys_sublist_of_step (ht : s.Tracked) (hc : s.core.store.WellFormed)
    (h : s.step m = some u) (hnone : ∀ id, ¬ s.Publishes m u id) :
    u.core.store.apis.keys.Sublist s.core.store.apis.keys := by
  rcases (step_cases ht h).2 with ⟨j, r, hj, he, _⟩ | ⟨hcore, _⟩
  · refine he.keys_sublist hc (Option.eq_none_iff_forall_ne_some.mpr fun id hp => ?_)
    exact hnone id ⟨j, r, hj, hp⟩
  · rw [hcore]

/-- So does every other passage. -/
theorem Passes.keys_sublist {m : Option Move} (hs : s.Seen) (h : s.Passes m u)
    (hnone : ∀ n ∈ m, ∀ id, ¬ s.Publishes n u id) :
    u.core.store.apis.keys.Sublist s.core.store.apis.keys := by
  obtain ⟨htracked, hwell⟩ := hs.tracked_and_wellFormed
  cases h with
  | move h => exact keys_sublist_of_step htracked hwell h (hnone _ rfl)
  | deregistered _ => exact List.Sublist.refl _
  | invalidated functions now =>
    exact Publications.keys_invalidate_sublist hwell.keyed functions now

namespace SeenAfter

theorem seen (h : s.SeenAfter order) : s.Seen := by
  induction h with
  | fresh => exact .fresh
  | published _ h ih => exact ih.step h.step
  | passed _ h _ ih => exact ih.pass h

/-- The APIs in the store are among those published, in the order of publication. -/
theorem keys_sublist (h : s.SeenAfter order) :
    order.Nodup ∧ s.core.store.apis.keys.Sublist order := by
  induction h with
  | fresh => exact ⟨List.nodup_nil, List.Sublist.refl _⟩
  | @published s u m id order hs h ih =>
    obtain ⟨hnew, hkeys⟩ := h.keys hs.seen.tracked_and_wellFormed.1
    obtain ⟨hnodup, hsublist⟩ := ih
    refine ⟨?_, ?_⟩
    · refine List.nodup_append.mpr ⟨hnodup.filter _, List.nodup_singleton id, ?_⟩
      intro k hk l hl
      rw [List.mem_singleton.mp hl]
      simpa using (List.mem_filter.mp hk).2
    · have hheld : s.core.store.apis.keys.filter (· ≠ id) = s.core.store.apis.keys := by
        refine List.filter_eq_self.mpr fun k hk => ?_
        simpa using fun he : k = id => hnew (he ▸ hk)
      rw [hkeys, ← hheld]
      exact (hsublist.filter _).append (List.Sublist.refl _)
  | passed hs h hnone ih =>
    exact ⟨ih.1, (h.keys_sublist hs.seen hnone).trans ih.2⟩

end SeenAfter

/-- Whatever may be seen has an order of publication. -/
theorem Seen.exists_order (hs : s.Seen) : ∃ order, s.SeenAfter order := by
  induction hs with
  | fresh => exact ⟨[], .fresh⟩
  | @step s u m _ h ih =>
    obtain ⟨order, horder⟩ := ih
    by_cases hp : ∃ id, s.Publishes m u id
    · obtain ⟨id, hid⟩ := hp
      exact ⟨_, horder.published hid⟩
    · refine ⟨order, horder.passed (.move h) fun n hn id hid => hp ⟨id, ?_⟩⟩
      rwa [Option.mem_some.mp hn]
  | deregistered _ h ih =>
    obtain ⟨order, horder⟩ := ih
    exact ⟨order, horder.passed (.deregistered h) fun _ hn => nomatch hn⟩
  | invalidated _ functions now ih =>
    obtain ⟨order, horder⟩ := ih
    exact ⟨order, horder.passed (.invalidated functions now) fun _ hn => nomatch hn⟩

end System

end ApiExposure
