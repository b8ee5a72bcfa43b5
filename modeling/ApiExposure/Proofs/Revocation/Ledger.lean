import Mathlib.Data.List.Nodup
import ApiExposure.Proofs.Invokers.Grants

/-!
# What effects do to the ledger

A bulk revocation goes through grants one by one, and so does the removal of an
invoker. As no grant has a blank field, the former never stops on its way. So
an effect changes the status of a call only by success, and only if the command
revokes the call or grants it anew.
-/

namespace ApiExposure

namespace Ledger

/-- The ledger counts the calls that are revoked, each once. -/
theorem revokedCount_eq_length (l : Ledger) :
    ∃ calls : List Call, calls.Nodup ∧ (∀ call, call ∈ calls ↔ l.isRevoked call = true) ∧
      l.revokedCount = calls.length := by
  refine ⟨(l.table.entries.filter (fun e => e.2.state == .revoked)).map (·.1),
    l.table.distinct.sublist (List.filter_sublist.map _), fun call => ?_, ?_⟩
  · simp only [List.mem_map, List.mem_filter, isRevoked, entry?, Option.any_eq_true,
      Table.get?_eq_some_iff]
    constructor
    · rintro ⟨⟨_, line⟩, ⟨he, hs⟩, rfl⟩
      exact ⟨line, he, hs⟩
    · rintro ⟨line, he, hs⟩
      exact ⟨(call, line), ⟨he, hs⟩, rfl⟩
  · rw [List.length_map, ← List.countP_eq_length_filter, revokedCount, Table.values,
      List.countP_map]
    rfl

/-- Revoking a call sets its line and leaves all others. -/
theorem entry?_revoke (l : Ledger) (c d : Call) (now : Instant) :
    Ledger.entry? (l.revoke c now) d = if d = c then some ⟨.revoked, now⟩ else l.entry? d := by
  by_cases h : d = c
  · rw [if_pos h, h]
    exact Table.get?_insert_self _ _ _
  · rw [if_neg h]
    exact Table.get?_insert_of_ne _ _ h

/-- Reinstating a call sets its line if it is revoked and leaves all others. -/
theorem entry?_reinstate (l : Ledger) (c d : Call) (now : Instant) :
    Ledger.entry? (l.reinstate c now).2 d =
      if d = c ∧ l.isRevoked c = true then some ⟨.active, now⟩ else l.entry? d := by
  cases hr : l.isRevoked c with
  | false => simp [reinstate, hr]
  | true =>
    rw [reinstate, if_pos hr]
    by_cases h : d = c
    · rw [if_pos ⟨h, rfl⟩, h]
      exact Table.get?_insert_self _ _ _
    · rw [if_neg fun hboth => h hboth.1]
      exact Table.get?_insert_of_ne _ _ h

end Ledger

namespace Core

/-- Revoking grants sets the lines of their calls and leaves all others. -/
theorem entry?_revokeGrants (l : Ledger) (id : InvokerId) (grants : List Grant) (now : Instant)
    (call : Call) :
    Ledger.entry? (revokeGrants l id grants now) call =
      if ∃ g ∈ grants, g.call id = call then some ⟨.revoked, now⟩ else l.entry? call := by
  induction grants generalizing l with
  | nil => simp [revokeGrants]
  | cons g gs ih =>
    have hstep : revokeGrants l id (g :: gs) now =
        revokeGrants (l.revoke (g.call id) now) id gs now := rfl
    rw [hstep, ih, Ledger.entry?_revoke]
    simp only [List.exists_mem_cons_iff, eq_comm (a := call)]
    by_cases hlater : ∃ h ∈ gs, h.call id = call
    · rw [if_pos hlater, if_pos (.inr hlater)]
    · rw [if_neg hlater]
      simp only [hlater, or_false]

/-- Revoking grants revokes their calls and no others. -/
theorem isRevoked_revokeGrants (l : Ledger) (id : InvokerId) (grants : List Grant)
    (now : Instant) (call : Call) :
    (revokeGrants l id grants now).isRevoked call = true ↔
      (∃ g ∈ grants, g.call id = call) ∨ l.isRevoked call = true := by
  rw [Ledger.isRevoked, entry?_revokeGrants]
  by_cases h : ∃ g ∈ grants, g.call id = call
  · rw [if_pos h]
    exact iff_of_true rfl (.inl h)
  · rw [if_neg h, or_iff_right h]
    rfl

/-- When all calls are complete a bulk revocation does not stop on its way. -/
theorem revokeEach_eq_revokeGrants {id : InvokerId} {now : Instant} {grants : List Grant}
    (h : ∀ g ∈ grants, (g.call id).validate = .ok ()) (l : Ledger) :
    revokeEach id now grants l = (revokeGrants l id grants now, .ok ()) := by
  induction grants generalizing l with
  | nil => rfl
  | cons g gs ih =>
    rw [List.forall_mem_cons] at h
    rw [revokeEach, h.1]
    exact ih h.2 _

end Core

/-- In a complete registry a bulk revocation covers all grants within the scope. -/
theorem Invokers.Complete.revokeEach {r : Invokers} (hr : r.Complete) {id : InvokerId}
    {scope : RevocationScope} {grants : List Grant} (hg : r.grantsMatching id scope = .ok grants)
    (now : Instant) (l : Ledger) :
    Core.revokeEach id now grants l = (Core.revokeGrants l id grants now, .ok ()) := by
  obtain ⟨i, hi, rfl⟩ := grantsMatching_eq_ok_iff.mp hg
  obtain ⟨hid, hgrants⟩ := hr id i hi
  refine Core.revokeEach_eq_revokeGrants (fun g hg => ?_) l
  exact Grant.validate_call hid (hgrants g (List.mem_of_mem_filter hg))

/-- Where all grants are complete a failure leaves the core as it is. -/
theorem Effect.eq_of_error {o : Occasion} {command : Command} {c d : Core} {f : Failure}
    (h : Effect o command c (.error f) d) (hc : c.invokers.Complete) : d = c := by
  cases h with
  | failed _ => rfl
  | accessPartlyRevoked hg h =>
    rw [hc.revokeEach hg] at h
    cases h

namespace Command

/-- By success in a state, a command revokes a call: itself, through a matching grant that its
invoker holds, or as one of the grants that leave with the invoker. -/
def Revokes (c : Core) (call : Call) : Command → Prop
  | revoke t => t = call
  | revokeAccess id scope => ∃ i, c.invokers.table.get? id = some i ∧
      ∃ g ∈ i.grants, scope.matchesGrant g = true ∧ g.call id = call
  | offboard id => ∃ i, c.invokers.table.get? id = some i ∧ ∃ g ∈ i.grants, g.call id = call
  | _ => False

/-- By success a command grants a call. -/
def Reinstates (call : Call) : Command → Prop
  | grant id g => g.call id = call
  | _ => False

end Command

/-- After an effect the revoked calls are those that it revoked by success, and those that were
revoked and are not granted by success. -/
theorem Effect.isRevoked_iff {o : Occasion} {command : Command} {c d : Core}
    {r : Outcome command.Result} (h : Effect o command c r d) (hc : c.invokers.Complete)
    (call : Call) :
    d.ledger.isRevoked call = true ↔
      ((∃ a, r = .ok a) ∧ command.Revokes c call) ∨
        c.ledger.isRevoked call = true ∧ ¬ ((∃ a, r = .ok a) ∧ command.Reinstates call) := by
  cases h with
  | failed f => simp
  | offboarded h =>
    obtain ⟨hi, rfl⟩ := Invokers.of_deregister_eq_ok h
    rw [Core.isRevoked_revokeGrants]
    simp [Command.Revokes, Command.Reinstates, hi]
  | granted hv ha hf h =>
    rw [Ledger.isRevoked_reinstate, Bool.and_eq_true, Bool.not_eq_true',
      decide_eq_false_iff_not, eq_comm (a := call)]
    simp [Command.Revokes, Command.Reinstates, and_comm]
  | callRevoked h =>
    rw [Ledger.isRevoked_revoke, Bool.or_eq_true, decide_eq_true_eq, eq_comm (a := call)]
    simp [Command.Revokes, Command.Reinstates]
  | accessRevoked hs hg h =>
    rw [hc.revokeEach hg] at h
    cases h
    obtain ⟨i, hi, rfl⟩ := Invokers.grantsMatching_eq_ok_iff.mp hg
    rw [Core.isRevoked_revokeGrants]
    simp [Command.Revokes, Command.Reinstates, hi, and_assoc]
  | accessPartlyRevoked hg h =>
    rw [hc.revokeEach hg] at h
    cases h
  | _ => simp [Command.Revokes, Command.Reinstates]

end ApiExposure
