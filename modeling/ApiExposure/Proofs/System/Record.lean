import ApiExposure.Proofs.System.Freshness

/-!
# What is seen of a run

Two things can be seen of a run without a look at the registries. An errand is
seen when a command goes on with its outcome, and a change when a command comes to
make it known, whether or not it is taken. Both are kept in the order in which
they are seen. A system is idle when every command in it has ended; a command that
still has a change or an errand before it has not.
-/

namespace ApiExposure

/-- An errand with its outcome. -/
structure Report where
  /-- What was asked of the collaborator. -/
  errand : Errand
  /-- Whether it was done. -/
  succeeded : Bool

namespace Flow

variable {α : Type}

/-- The outcome that a reply brings to a flow that waits for an errand. -/
def report? : Flow α → Reply → Option Report
  | errand _ e _, .errand r => some ⟨e, r.isOk⟩
  | _, _ => none

/-- The change that a flow is making known. -/
def change? : Flow α → Option Change
  | announce _ change _ => some change
  | _ => none

/-- Whether nothing is left of a flow but its result. -/
def hasEnded : Flow α → Bool
  | done _ _ => true
  | _ => false

end Flow

/-- Where a list with one element more is split at an element, that is the last one or one of those
before. -/
theorem concat_eq_split_iff {α : Type} {l before after : List α} {a b : α} :
    l ++ [a] = before ++ b :: after ↔ (l = before ∧ a = b ∧ after = []) ∨
      ∃ rest, after = rest ++ [a] ∧ l = before ++ b :: rest := by
  constructor
  · intro h
    rcases List.eq_nil_or_concat after with rfl | ⟨rest, last, rfl⟩
    · obtain ⟨rfl, hb⟩ := List.append_inj' h rfl
      exact .inl ⟨rfl, by simpa using hb, rfl⟩
    · rw [List.concat_eq_append, ← List.cons_append, ← List.append_assoc] at h
      obtain ⟨rfl, ha⟩ := List.append_inj' h rfl
      obtain rfl : a = last := by simpa using ha
      exact .inr ⟨rest, List.concat_eq_append, rfl⟩
  · rintro (⟨rfl, rfl, rfl⟩ | ⟨rest, rfl, rfl⟩)
    · rfl
    · simp

namespace System

/-- The errand whose outcome a move brings in. -/
def report? (s : System) : Move → Option Report
  | .start _ _ _ => none
  | .resume t reply => (s.jobs t).bind (fun j => j.flow.report? reply)

/-- The change that the command of a move has come to make known. -/
def change? (u : System) (m : Move) : Option Change :=
  (u.jobs m.ticket).bind (fun j => j.flow.change?)

/-- No command is in progress. -/
def Idle (s : System) : Prop := ∀ t j, s.jobs t = some j → j.flow.hasEnded = true

/-- What is seen of the moves of a run, in order. -/
def record {α : Type} (see : System → Move → System → Option α) (s : System) :
    List Move → List α
  | [] => []
  | m :: ms =>
    match s.step m with
    | some u => (see s m u).toList ++ u.record see ms
    | none => []

/-- The errands of a run with their outcomes. -/
def reports (s : System) (ms : List Move) : List Report :=
  s.record (fun s m _ => s.report? m) ms

/-- The changes that a run makes known. -/
def changes (s : System) (ms : List Move) : List Change :=
  s.record (fun _ m u => u.change? m) ms

/-- Tickets that no move has used stand for nothing. -/
theorem jobs_eq_none_of_run {ms : List Move} {s : System} (h : fresh.run ms = some s)
    {t : Ticket} (ht : t ∉ ms.map Move.ticket) : s.jobs t = none := by
  refine run_induction (P := fun ms s => t ∉ ms.map Move.ticket → s.jobs t = none)
    (fun _ => rfl) (fun ms m s u _ ih hm ht => ?_) h ht
  rw [List.map_append, List.mem_append, not_or] at ht
  rw [jobs_step_of_ne hm (List.ne_of_not_mem_cons ht.2)]
  exact ih ht.1

/-- At the end of a run it is enough to look at the tickets used. -/
theorem idle_of_run {ms : List Move} {s : System} (h : fresh.run ms = some s)
    (hended : (ms.map Move.ticket).all (fun t => (s.jobs t).all (·.flow.hasEnded)) = true) :
    s.Idle := by
  intro t j hj
  by_cases ht : t ∈ ms.map Move.ticket
  · have ht := List.all_eq_true.mp hended t ht
    rwa [hj, Option.all_some] at ht
  · rw [jobs_eq_none_of_run h ht] at hj
    cases hj

variable {α : Type} {see : System → Move → System → Option α} {s u v : System}

/-- What is seen of a run and its continuation stands one after the other. -/
theorem record_append {ms ns : List Move} (h : s.run ms = some u) :
    s.record see (ms ++ ns) = s.record see ms ++ u.record see ns := by
  induction ms generalizing s with
  | nil =>
    cases h
    rfl
  | cons m ms ih =>
    obtain ⟨w, hw, hrest⟩ := run_cons_eq_some.mp h
    simp only [List.cons_append, record, hw, ih hrest, List.append_assoc]

/-- A move more adds what is seen of it at the end. -/
theorem record_concat {ms : List Move} {m : Move} (h : s.run ms = some u)
    (hm : u.step m = some v) :
    s.record see (ms ++ [m]) = s.record see ms ++ (see u m v).toList := by
  rw [record_append h]
  simp only [record, hm, List.append_nil]

/-- In particular its change. -/
theorem changes_concat {ms : List Move} {m : Move} (h : s.run ms = some u)
    (hm : u.step m = some v) : s.changes (ms ++ [m]) = s.changes ms ++ (v.change? m).toList :=
  record_concat h hm

end System

end ApiExposure
