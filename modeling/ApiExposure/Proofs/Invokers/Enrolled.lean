import ApiExposure.Proofs.Invokers.Grants
import ApiExposure.Proofs.Registry.Table

/-!
# Who is onboarded

Two commands change who is onboarded: an onboarding that succeeds enters the
identifier that it generated, and an offboarding that succeeds takes its invoker
out. Patches and grants set an invoker that is there.
-/

namespace ApiExposure

/-- An invoker is there exactly when something is under its identifier. -/
theorem Invokers.contains_eq_true_iff {r : Invokers} {id : InvokerId} :
    r.contains id = true ↔ r.table.get? id ≠ none := Option.isSome_iff_ne_none

namespace Effect

variable {o : Occasion} {command : Command} {c d : Core} {r : Outcome command.Result}

/-- After an effect those are onboarded that were, but for the one just offboarded, and the one
just onboarded. -/
theorem enrolled_iff (h : Effect o command c r d) {id : InvokerId} :
    d.invokers.table.get? id ≠ none ↔
      (c.invokers.table.get? id ≠ none ∧ ¬ (command = .offboard id ∧ r.isOk = true)) ∨
        (∃ e, command = .onboard e) ∧ r.isOk = true ∧ id = .generate (o.suffix 0) := by
  have hset : ∀ (k : InvokerId) (i held : InvokerIdentity), c.invokers.table.get? k = some held →
      ((c.invokers.table.insert k i).get? id ≠ none ↔ c.invokers.table.get? id ≠ none) := by
    intro k i held hk
    rw [Table.get?_insert_ne_none_iff, or_iff_left_of_imp]
    rintro rfl
    exact hk ▸ Option.some_ne_none held
  cases h with
  | failed f => simp [Except.isOk, Except.toBool]
  | onboarded h =>
    obtain ⟨_, _, rfl⟩ := Invokers.of_onboardAs_eq_ok h
    simp [Table.get?_insert_ne_none_iff, Except.isOk, Except.toBool]
  | invokerUpdated h =>
    obtain ⟨held, hheld, _, rfl⟩ := Invokers.of_update_eq_ok h
    simp [hset _ _ held hheld]
  | offboarded h =>
    obtain ⟨_, rfl⟩ := Invokers.of_deregister_eq_ok h
    dsimp only
    rw [Table.get?_erase_ne_none_iff]
    simp [Except.isOk, Except.toBool, @eq_comm _ id]
  | granted _ _ _ h =>
    obtain ⟨held, hheld, _, rfl⟩ := Invokers.of_grant_eq_ok h
    simp [hset _ _ held hheld]
  | grantRemoved h =>
    obtain ⟨held, hheld, rfl⟩ := Invokers.of_removeGrant_eq_ok h
    simp [hset _ _ held hheld]
  | _ => simp

/-- An onboarding returns the invoker under the identifier that it generated. -/
theorem id_of_onboard {e : Enrolment} {i : OnboardedInvoker}
    (h : Effect o (.onboard e) c (.ok i) d) : i.identity.id = .generate (o.suffix 0) := by
  cases h with
  | onboarded h =>
    obtain ⟨_, hidentity, _⟩ := Invokers.of_onboardAs_eq_ok h
    rw [hidentity, InvokerIdentity.foldl_addGrant_eq]
    rfl

end Effect

end ApiExposure
