import ApiExposure.Proofs.Publications.Integrity

/-!
# Ownership of identifiers

An API never changes hands: along a run with fresh identifiers an identifier that
stands for an API of one publisher never stands for an API of another, not even
after a withdrawal. For an identifier gets into the store only by the command
that generated it, and a command takes effect once.
-/

namespace ApiExposure

/-- Under an identifier is an API of its former publisher, or the one just published. -/
theorem Effect.stored_cases {o : Occasion} {command : Command} {c d : Core}
    {r : Outcome command.Result} (h : Effect o command c r d) (hc : c.store.WellFormed)
    {id : ApiId} {b : PublishedApi} (hb : d.store.apis.get? id = some b) :
    (∃ a, c.store.apis.get? id = some a ∧ a.publisher = b.publisher) ∨
      id = .generate (o.suffix 0) := by
  cases h with
  | removed h =>
    rw [hc.get?_invalidate] at hb
    obtain ⟨a, ha, hsurvivor⟩ := Option.bind_eq_some_iff.mp hb
    obtain ⟨_, _, rfl⟩ := PublishedApi.survivor_eq_some_iff.mp hsurvivor
    exact .inl ⟨a, ha, rfl⟩
  | published h =>
    obtain ⟨_, _, rfl, rfl⟩ := Publications.publishAs_eq_ok_iff.mp h
    rw [Publications.get?_add] at hb
    split at hb
    · next hid => exact .inr hid
    · exact .inl ⟨b, hb, rfl⟩
  | @patched c publisher key p a store h =>
    obtain ⟨held, hheld, _, _, _, rfl, rfl⟩ := Publications.of_updateFor_eq_ok h
    rw [Publications.get?_replace] at hb
    split at hb
    · next hid =>
      cases hb
      have hkey : id = key := hid.trans (hc key held hheld).own
      exact .inl ⟨held, hkey ▸ hheld, rfl⟩
    · exact .inl ⟨b, hb, rfl⟩
  | withdrawn h =>
    rw [(Publications.of_unpublish_eq_ok h).2, Table.get?_erase] at hb
    split at hb
    · cases hb
    · exact .inl ⟨b, hb, rfl⟩
  | _ => exact .inl ⟨b, hb, rfl⟩

namespace System

/-- A command that has taken effect generated the identifier. -/
def Spent (s : System) (id : ApiId) : Prop :=
  ∃ t j, s.jobs t = some j ∧ j.IsSettled ∧ id = .generate (j.occasion.suffix 0)

/-- An identifier is spent when its suffix is used. -/
theorem spent_iff {s : System} {id : ApiId} :
    s.Spent id ↔ ∃ suffix, s.Used suffix ∧ id = .generate suffix := by
  constructor
  · rintro ⟨t, j, hj, hsettled, rfl⟩
    exact ⟨_, ⟨t, j, hj, hsettled, rfl⟩, rfl⟩
  · rintro ⟨_, ⟨t, j, hj, hsettled, rfl⟩, rfl⟩
    exact ⟨t, j, hj, hsettled, rfl⟩

theorem Spent.step {s u : System} {m : Move} {id : ApiId} (hs : s.Spent id)
    (h : s.step m = some u) : u.Spent id := by
  obtain ⟨suffix, hused, rfl⟩ := spent_iff.mp hs
  exact spent_iff.mpr ⟨suffix, hused.step h, rfl⟩

/-- No command takes effect with an identifier that is spent. -/
theorem Spent.ne_of_settles {s u : System} {m : Move} {j : Job} {r : Outcome j.command.Result}
    {id : ApiId} (hs : s.Spent id) (hu : u.Orderly) (h : s.Settles m u j r) :
    id ≠ .generate (j.occasion.suffix 0) := by
  obtain ⟨suffix, hused, rfl⟩ := spent_iff.mp hs
  exact fun he => hused.ne_of_settles hu h (ApiId.generate_injective he).symm

/-- Every identifier in the store is spent. -/
def StoreSpent (s : System) : Prop := ∀ id a, s.core.store.apis.get? id = some a → s.Spent id

/-- What enters the store has the identifier of the command that takes effect. -/
theorem StoreSpent.step {s u : System} {m : Move} (ht : s.Tracked) (hc : s.core.store.WellFormed)
    (hs : s.StoreSpent) (h : s.step m = some u) : u.StoreSpent := by
  intro id b hb
  rcases (step_cases ht h).2 with ⟨j, r, hj, he, _⟩ | ⟨hcore, _⟩
  · rcases he.stored_cases hc hb with ⟨a, ha, _⟩ | hid
    · exact (hs id a ha).step h
    · exact ⟨m.ticket, j, hj.job, ⟨r, hj.settled⟩, hid⟩
  · rw [hcore] at hb
    exact (hs id b hb).step h

/-- In every run the stored APIs have spent identifiers. -/
theorem storeSpent_run {ms : List Move} {s : System} (h : fresh.run ms = some s) :
    s.StoreSpent :=
  run_induction (P := fun _ s => s.StoreSpent) (fun _ _ ha => nomatch ha)
    (fun _ _ _ _ hs ih hm => ih.step (tracked_run hs) (wellFormed_run hs) hm) h

/-- Along a run with fresh identifiers no API changes hands. -/
theorem publisher_eq_of_run {past ms : List Move} {s u : System} (hf : FreshIds (past ++ ms))
    (hpast : fresh.run past = some s) (h : s.run ms = some u) {id : ApiId} {a b : PublishedApi}
    (ha : s.core.store.apis.get? id = some a) (hb : u.core.store.apis.get? id = some b) :
    b.publisher = a.publisher := by
  let P : System → Prop := fun v => v.core.store.WellFormed ∧ v.Spent id ∧
    ∀ b, v.core.store.apis.get? id = some b → b.publisher = a.publisher
  have hstep : ∀ v m w, v.Orderly → v.Admits m → P v → v.step m = some w → P w := by
    rintro v m w hv hadmits ⟨hwell, hspent, howned⟩ hm
    rcases (step_cases hv.tracked hm).2 with ⟨j, r, hj, he, _⟩ | ⟨hcore, _⟩
    · refine ⟨he.wellFormed hwell, hspent.step hm, fun b hb => ?_⟩
      rcases he.stored_cases hwell hb with ⟨c, hc, hcb⟩ | hid
      · exact hcb.symm.trans (howned c hc)
      · exact absurd hid (hspent.ne_of_settles (hv.step hadmits hm) hj)
    · exact ⟨hcore ▸ hwell, hspent.step hm, hcore ▸ howned⟩
  have hs : P s := by
    refine ⟨wellFormed_run hpast, storeSpent_run hpast id a ha, fun c hc => ?_⟩
    rw [Option.some.inj (ha.symm.trans hc)]
  have horderly : s.Orderly := orderly_run hf.left hpast
  exact (fresh_induction hstep past hf hpast horderly hs h).2.2.2 b hb

end System

end ApiExposure
