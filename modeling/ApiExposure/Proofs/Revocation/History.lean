import ApiExposure.Proofs.Authorization.Decision
import ApiExposure.Proofs.Revocation.Ledger

/-!
# The history of revocations

The ledger tells no more and no less than the moves of a run: a call is revoked
at the end exactly when some command revoked it by success and no later command
granted it by success. Commands take effect in single moves, so that earlier and
later are said by the position in the run. The induction is on the last move.
-/

namespace ApiExposure

namespace System

/-- By a move a command succeeds that revokes a call in the state found. -/
def Revokes (s : System) (m : Move) (u : System) (call : Call) : Prop :=
  ∃ j a, s.Settles m u j (.ok a) ∧ j.command.Revokes s.core call

/-- By a move a command succeeds that grants a call. -/
def Reinstates (s : System) (m : Move) (u : System) (call : Call) : Prop :=
  ∃ j a, s.Settles m u j (.ok a) ∧ j.command.Reinstates call

/-- Along the moves of a run some move revokes a call, and no later one grants it. -/
def LastRevoked (s : System) (ms : List Move) (call : Call) : Prop :=
  ∃ before m after v u, ms = before ++ m :: after ∧ s.run before = some v ∧
    v.Revokes m u call ∧
    ∀ later n rest w x, after = later ++ n :: rest → u.run later = some w →
      ¬ w.Reinstates n x call

variable {s u : System} {m : Move} {call : Call}

/-- What revokes a call is a move. -/
theorem Revokes.step (h : s.Revokes m u call) : s.step m = some u :=
  let ⟨_, _, hj, _⟩ := h
  hj.step

theorem Reinstates.step (h : s.Reinstates m u call) : s.step m = some u :=
  let ⟨_, _, hj, _⟩ := h
  hj.step

/-- A move settles at most one job, with one result. -/
theorem Settles.success_iff {j : Job} {r : Outcome j.command.Result} (h : s.Settles m u j r)
    (P : Command → Prop) :
    (∃ k a, s.Settles m u k (.ok a) ∧ P k.command) ↔ (∃ a, r = .ok a) ∧ P j.command := by
  constructor
  · rintro ⟨k, a, hk, hp⟩
    obtain rfl : k = j := Option.some.inj (hk.job.symm.trans h.job)
    exact ⟨⟨a, h.settled.unique hk.settled⟩, hp⟩
  · rintro ⟨⟨a, rfl⟩, hp⟩
    exact ⟨j, a, h, hp⟩

/-- After a move the revoked calls are those that it revokes, and those that were revoked and
that it does not grant. -/
theorem isRevoked_step (ht : s.Tracked) (hc : s.core.invokers.Complete)
    (h : s.step m = some u) (call : Call) :
    u.core.ledger.isRevoked call = true ↔
      s.Revokes m u call ∨ s.core.ledger.isRevoked call = true ∧ ¬ s.Reinstates m u call := by
  rcases (step_cases ht h).2 with ⟨j, r, hj, he, _⟩ | ⟨hcore, hnone⟩
  · rw [he.isRevoked_iff hc, Revokes, Reinstates, hj.success_iff (Command.Revokes s.core call),
      hj.success_iff (Command.Reinstates call)]
  · have hrevokes : ¬ s.Revokes m u call := fun ⟨j, a, hj, _⟩ => hnone j (.ok a) hj
    have hreinstates : ¬ s.Reinstates m u call := fun ⟨j, a, hj, _⟩ => hnone j (.ok a) hj
    rw [hcore]
    simp only [hrevokes, hreinstates, false_or, not_false_eq_true, and_true]

theorem not_lastRevoked_nil : ¬ s.LastRevoked [] call := by
  rintro ⟨before, m, after, _, _, h, _⟩
  simp at h

/-- With one more move a call counts as revoked if this move revokes it, or if it counted before
and this move does not grant it. -/
theorem lastRevoked_concat {t : System} {ms : List Move} (ht : t.run ms = some s)
    (h : s.step m = some u) :
    t.LastRevoked (ms ++ [m]) call ↔
      s.Revokes m u call ∨ t.LastRevoked ms call ∧ ¬ s.Reinstates m u call := by
  constructor
  · rintro ⟨before, n, after, v, w, hms, hv, hn, hlater⟩
    rcases List.eq_nil_or_concat after with rfl | ⟨after, k, rfl⟩
    · obtain ⟨rfl, hmn⟩ := List.append_inj' hms rfl
      obtain rfl : m = n := by simpa using hmn
      obtain rfl : s = v := Option.some.inj (ht.symm.trans hv)
      obtain rfl : u = w := Option.some.inj (h.symm.trans hn.step)
      exact .inl hn
    · rw [List.concat_eq_append, ← List.cons_append, ← List.append_assoc] at hms
      obtain ⟨rfl, hmk⟩ := List.append_inj' hms rfl
      obtain rfl : m = k := by simpa using hmk
      obtain ⟨v', hv', hrest⟩ := run_append_eq_some.mp ht
      obtain rfl : v = v' := Option.some.inj (hv.symm.trans hv')
      obtain ⟨w', hw', hafter⟩ := run_cons_eq_some.mp hrest
      obtain rfl : w = w' := Option.some.inj (hn.step.symm.trans hw')
      refine .inr ⟨⟨before, n, after, v, w, rfl, hv, hn, ?_⟩, ?_⟩
      · intro later k rest x y hk
        refine hlater later k (rest ++ [m]) x y ?_
        rw [hk, List.concat_eq_append, List.append_assoc, List.cons_append]
      · exact hlater after m [] s u List.concat_eq_append hafter
  · rintro (hm | ⟨⟨before, n, after, v, w, rfl, hv, hn, hlater⟩, hm⟩)
    · refine ⟨ms, m, [], s, u, rfl, ht, hm, fun later n rest _ _ hnil => ?_⟩
      simp at hnil
    · refine ⟨before, n, after ++ [m], v, w, by simp, hv, hn, ?_⟩
      intro later k rest x y hk hx hy
      obtain ⟨v', hv', hrest⟩ := run_append_eq_some.mp ht
      obtain rfl : v = v' := Option.some.inj (hv.symm.trans hv')
      obtain ⟨w', hw', hafter⟩ := run_cons_eq_some.mp hrest
      obtain rfl : w = w' := Option.some.inj (hn.step.symm.trans hw')
      rcases List.eq_nil_or_concat rest with rfl | ⟨rest, l, rfl⟩
      · obtain ⟨rfl, hmk⟩ := List.append_inj' hk rfl
        obtain rfl : m = k := by simpa using hmk
        obtain rfl : s = x := Option.some.inj (hafter.symm.trans hx)
        obtain rfl : u = y := Option.some.inj (h.symm.trans hy.step)
        exact hm hy
      · rw [List.concat_eq_append, ← List.cons_append, ← List.append_assoc] at hk
        obtain ⟨rfl, _⟩ := List.append_inj' hk rfl
        exact hlater later k rest x y rfl hx hy

/-- At the end of a run the ledger marks the calls that were revoked last. -/
theorem isRevoked_iff_lastRevoked {ms : List Move} (h : fresh.run ms = some s) (call : Call) :
    s.core.ledger.isRevoked call = true ↔ fresh.LastRevoked ms call := by
  refine run_induction (P := fun ms s => s.core.ledger.isRevoked call = true ↔
    fresh.LastRevoked ms call) ?_ (fun ms m s u hs ih hm => ?_) h
  · exact ⟨fun hr => (nomatch hr), fun hl => absurd hl not_lastRevoked_nil⟩
  · rw [isRevoked_step (tracked_run hs) (complete_run hs).2 hm, lastRevoked_concat hs hm, ih]

/-- A revoked call is never allowed. -/
theorem check_ne_allow_of_isRevoked {c : Core} (h : c.ledger.isRevoked call = true)
    (now : Instant) : c.check call now ≠ .ok .allow := by
  intro hallow
  cases hb : call.hasBlank with
  | true =>
    rw [Core.check_of_hasBlank hb] at hallow
    cases hallow
  | false =>
    rw [Core.check_of_not_hasBlank hb] at hallow
    simp only [h, if_true] at hallow
    split at hallow
    · cases hallow
    · split at hallow <;> cases hallow

/-- The ledger has exactly one history: at the end of a run a call is revoked when it was
revoked last; a move that neither revokes nor grants it leaves its status; the ledger counts the
revoked calls, each once; and none of them is allowed. -/
theorem revocation_history {ms : List Move} (h : fresh.run ms = some s) :
    (∀ call, s.core.ledger.isRevoked call = true ↔ fresh.LastRevoked ms call) ∧
      (∀ m u call, s.step m = some u → ¬ s.Revokes m u call → ¬ s.Reinstates m u call →
        u.core.ledger.isRevoked call = s.core.ledger.isRevoked call) ∧
      (∃ calls : List Call, calls.Nodup ∧
        (∀ call, call ∈ calls ↔ s.core.ledger.isRevoked call = true) ∧
        s.core.ledger.revokedCount = calls.length) ∧
      ∀ call now, s.core.ledger.isRevoked call = true → s.core.check call now ≠ .ok .allow := by
  refine ⟨isRevoked_iff_lastRevoked h, fun m u call hm hrevokes hreinstates => ?_,
    s.core.ledger.revokedCount_eq_length, fun _ now hr => check_ne_allow_of_isRevoked hr now⟩
  rw [Bool.eq_iff_iff, isRevoked_step (tracked_run h) (complete_run h).2 hm]
  simp only [hrevokes, hreinstates, false_or, not_false_eq_true, and_true]

/-- The sample invoker is offboarded again. -/
def sampleRevoking : List Move := sampleGranting ++ [
  .start 3 (.offboard (.generate "c")) (.lettered 'd' default),
  .resume 3 (.errand (.ok ()))]

/-- The sample call was granted and is revoked with the departure of its invoker. -/
theorem revocation_history_sample :
    ∃ s, fresh.run sampleRevoking = some s ∧ fresh.LastRevoked sampleRevoking sampleCall ∧
      s.core.check sampleCall default ≠ .ok .allow := by
  have hrevoked : (fresh.run sampleRevoking).map (fun s => s.core.ledger.isRevoked sampleCall) =
      some true := rfl
  obtain ⟨s, hs, hr⟩ := Option.map_eq_some_iff.mp hrevoked
  obtain ⟨hhistory, _, _, hdenied⟩ := revocation_history hs
  exact ⟨s, hs, (hhistory sampleCall).mp hr, hdenied sampleCall default hr⟩

end System

end ApiExposure
