import ApiExposure.Proofs.Invokers.Grants

/-!
# Security contexts in their registry

A write that is refused for its own sake is refused as faulty. A context is stored
only for an onboarded invoker, and replaced or cut only where one is; so an
identifier that has neither an invoker nor a context gets no context by any effect.
What the contexts say is not looked at here.
-/

namespace ApiExposure

namespace Outcome

variable {α β : Type}

/-- A result is there exactly when there is no failure. -/
theorem toOption_eq_some_iff {x : Outcome α} {a : α} : x.toOption = some a ↔ x = .ok a := by
  cases x <;> simp [Except.toOption]

/-- A check that fails only for a fault of the request. -/
def IsCheck (x : Outcome α) : Prop := ∀ f, x = .error f → ∃ fault, f = .invalid fault

theorem isCheck_ok (a : α) : IsCheck (.ok a) := fun _ h => nomatch h

/-- A condition that is required is a check. -/
theorem isCheck_require (condition : Bool) (fault : Fault) : IsCheck (require condition fault) := by
  intro f h
  cases condition with
  | true => cases h
  | false =>
    cases h
    exact ⟨fault, rfl⟩

/-- The check of a URL is a check. -/
theorem isCheck_requireUrl (destination : String) : IsCheck (requireUrl destination) := by
  intro f h
  unfold requireUrl at h
  split at h
  · cases h
  · cases h
    exact ⟨_, rfl⟩

/-- Checks one after the other are a check. -/
theorem IsCheck.bind {x : Outcome α} {g : α → Outcome β} (hx : x.IsCheck)
    (hg : ∀ a, (g a).IsCheck) : IsCheck (x >>= g) := by
  cases x with
  | error f =>
    intro e he
    cases he
    exact hx f rfl
  | ok a => exact hg a

/-- Checks of all members make a check. -/
theorem isCheck_forM {g : α → Outcome Unit} (hg : ∀ a, (g a).IsCheck) (l : List α) :
    IsCheck (l.forM g) := by
  induction l with
  | nil => exact isCheck_ok _
  | cons a l ih => exact (hg a).bind fun _ => ih

theorem isCheck_mapM {g : α → Outcome β} (hg : ∀ a, (g a).IsCheck) (l : List α) :
    IsCheck (l.mapM g) := by
  induction l with
  | nil => exact isCheck_ok _
  | cons a l ih =>
    rw [List.mapM_cons]
    exact (hg a).bind fun _ => ih.bind fun _ => isCheck_ok _

end Outcome

namespace TrustedInvokers

variable {t q : TrustedInvokers} {s : Publications} {id : InvokerId}
  {context stored : SecurityContext}

/-- A context that cannot be prepared is faulty. -/
theorem isCheck_prepare (s : Publications) (context : SecurityContext) :
    (prepare s context).IsCheck := by
  have hentry : ∀ e : SecurityEntry, e.validate.IsCheck := fun e =>
    (Outcome.isCheck_require _ _).bind fun _ => Outcome.isCheck_require _ _
  have hnegotiate : ∀ e : SecurityEntry, (e.negotiate (offer s e)).IsCheck := by
    intro e f h
    unfold SecurityEntry.negotiate at h
    split at h
    · cases h
    · cases h
      exact ⟨_, rfl⟩
  have hvalidate : context.validate.IsCheck :=
    (Outcome.isCheck_require _ _).bind fun _ => (Outcome.isCheck_requireUrl _).bind fun _ =>
      (Outcome.isCheck_require _ _).bind fun _ => Outcome.isCheck_forM hentry _
  exact hvalidate.bind fun _ =>
    (Outcome.isCheck_mapM hnegotiate _).bind fun _ => Outcome.isCheck_ok _

/-- A context is stored for an onboarded invoker. -/
theorem of_create_eq_ok {r : Invokers} (h : t.create s r id context = .ok (stored, q)) :
    r.table.get? id ≠ none ∧ q = ⟨t.table.insert id stored⟩ := by
  obtain ⟨prepared, _, h⟩ := Outcome.bind_eq_ok_iff.mp h
  obtain ⟨honboarded, h⟩ := Outcome.andThen_eq_ok_iff.mp h
  cases h
  exact ⟨Option.isSome_iff_ne_none.mp (require_eq_ok_iff.mp honboarded), rfl⟩

/-- A context takes the place of another. -/
theorem of_update_eq_ok (h : t.update s id context = .ok (stored, q)) :
    t.table.get? id ≠ none ∧ q = ⟨t.table.insert id stored⟩ := by
  obtain ⟨prepared, _, h⟩ := Outcome.bind_eq_ok_iff.mp h
  split at h
  · next hheld =>
    cases h
    exact ⟨Option.isSome_iff_ne_none.mp hheld, rfl⟩
  · cases h

/-- Where a context is set there is one afterwards; all others are as they were. -/
theorem get?_of_insert {k : InvokerId}
    (h : (t.table.insert id context).get? k ≠ none) : t.table.get? k ≠ none ∨ k = id := by
  by_cases hk : k = id
  · exact .inr hk
  · rw [Table.get?_insert_of_ne _ _ hk] at h
    exact .inl h

/-- A bulk revocation leaves of the context of its invoker what the scope does not cover, if that is
anything, and all other contexts. -/
theorem get?_revoke (t : TrustedInvokers) (id : InvokerId) (scope : RevocationScope)
    (k : InvokerId) :
    (t.revoke id scope).2.table.get? k =
      if k = id then (t.table.get? id).bind (fun c =>
        if (c.revoke scope).entries.isEmpty then none else some (c.revoke scope))
      else t.table.get? k := by
  unfold revoke
  cases hc : t.table.get? id with
  | none =>
    by_cases hk : k = id
    · rw [if_pos hk, hk]
      exact hc
    · rw [if_neg hk]
  | some c =>
    dsimp only [Option.bind_some]
    split
    · exact Table.get?_erase _ _ _
    · by_cases hk : k = id
      · rw [if_pos hk, hk, Table.get?_insert_self]
      · rw [if_neg hk, Table.get?_insert_of_ne _ _ hk]

/-- A bulk revocation brings in no context. -/
theorem get?_of_revoke {scope : RevocationScope} {k : InvokerId}
    (h : (t.revoke id scope).2.table.get? k ≠ none) : t.table.get? k ≠ none := by
  rw [get?_revoke] at h
  split at h
  · next hk =>
    rintro hnone
    rw [← hk, hnone] at h
    exact h rfl
  · exact h

end TrustedInvokers

/-- Under an identifier is a context that was there, or an invoker was. -/
theorem Effect.context_cases {o : Occasion} {command : Command} {c d : Core}
    {r : Outcome command.Result} (h : Effect o command c r d) {id : InvokerId}
    (hd : d.trusted.table.get? id ≠ none) :
    c.trusted.table.get? id ≠ none ∨ c.invokers.table.get? id ≠ none := by
  cases h with
  | offboarded h =>
    have hd : (c.trusted.table.erase _).get? id ≠ none := hd
    rw [Table.get?_erase] at hd
    split at hd
    · exact absurd rfl hd
    · exact .inl hd
  | accessRevoked _ _ _ => exact .inl (TrustedInvokers.get?_of_revoke hd)
  | contextCreated h =>
    obtain ⟨honboarded, rfl⟩ := TrustedInvokers.of_create_eq_ok h
    rcases TrustedInvokers.get?_of_insert hd with hd | rfl
    · exact .inl hd
    · exact .inr honboarded
  | contextUpdated h =>
    obtain ⟨hheld, rfl⟩ := TrustedInvokers.of_update_eq_ok h
    rcases TrustedInvokers.get?_of_insert hd with hd | rfl
    · exact .inl hd
    · exact .inl hheld
  | _ => exact .inl hd

end ApiExposure
