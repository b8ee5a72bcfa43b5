import Mathlib.Data.List.Induction
import Mathlib.Logic.Function.Basic
import ApiExposure.Proofs.System.Command

/-!
# Runs of the core

The core with the commands in progress. Each command runs under a ticket; a move
starts one or lets one go on by a reply, and moves of different tickets come in
any order. So between a call of one command and its reply any others may start,
go on or end. Collaborators reply at will: every reply is a move.

Identifiers are fresh in a schedule when no suffix is handed out twice. What a
run does is determined by its moves, and moves under other tickets neither need
nor touch what a ticket stands for.
-/

namespace ApiExposure

/-- Names a command in progress. -/
abbrev Ticket := Nat

/-- A command with the occasion on which it started and how far it has come. -/
structure Job where
  /-- What was asked. -/
  command : Command
  /-- When, and with which suffixes for new identifiers. -/
  occasion : Occasion
  /-- What is left of it. -/
  flow : Flow command.Result

namespace Job

/-- The job has taken effect, or never will. -/
def IsSettled (j : Job) : Prop := ∃ r, j.flow.Settled r

end Job

/-- The core and all commands started so far. -/
structure System where
  /-- The state of the core. -/
  core : Core
  /-- Commands by ticket. -/
  jobs : Ticket → Option Job

/-- One move of the system. -/
inductive Move where
  /-- A command starts under a new ticket. -/
  | start (ticket : Ticket) (command : Command) (occasion : Occasion)
  /-- A command goes on by a reply. -/
  | resume (ticket : Ticket) (reply : Reply)

namespace Move

/-- The ticket of the command that moves. -/
def ticket : Move → Ticket
  | start t _ _ => t
  | resume t _ => t

/-- The occasion of a start. -/
def occasion? : Move → Option Occasion
  | start _ _ o => some o
  | resume _ _ => none

end Move

/-- Two occasions never hand out the same suffix. -/
def Occasion.Apart (o p : Occasion) : Prop := ∀ m n, o.suffix m ≠ p.suffix n

/-- No suffix is handed out twice in a schedule. -/
structure FreshIds (moves : List Move) : Prop where
  /-- Suffixes of one occasion differ. -/
  injective : ∀ o ∈ moves.filterMap Move.occasion?, Function.Injective o.suffix
  /-- So do those of two occasions. -/
  apart : (moves.filterMap Move.occasion?).Pairwise Occasion.Apart

namespace System

/-- The system before its first command. -/
def fresh : System := ⟨.fresh, fun _ => none⟩

/-- Puts a job under a ticket; the core is in the state that the job has reached. -/
def advance (s : System) (t : Ticket) (j : Job) : System :=
  ⟨j.flow.state, Function.update s.jobs t (some j)⟩

/-- Makes a move. None is made that starts under a used ticket, goes on without a job or gives
a reply of the wrong kind. -/
def step (s : System) : Move → Option System
  | .start t command o =>
    match s.jobs t with
    | some _ => none
    | none => some (s.advance t ⟨command, o, command.start o s.core⟩)
  | .resume t reply =>
    match s.jobs t with
    | some j => (j.flow.resume reply s.core).map (fun f => s.advance t { j with flow := f })
    | none => none

/-- Makes moves one after the other. -/
def run (s : System) : List Move → Option System
  | [] => some s
  | m :: ms => (s.step m).bind (fun next => next.run ms)

@[simp] theorem run_nil (s : System) : s.run [] = some s := rfl

/-- A run goes on from its first move. -/
theorem run_cons (s : System) (m : Move) (ms : List Move) :
    s.run (m :: ms) = (s.step m).bind (fun next => next.run ms) := rfl

/-- A run goes on from the state that the moves before leave. -/
theorem run_append (s : System) (ms ns : List Move) :
    s.run (ms ++ ns) = (s.run ms).bind (fun next => next.run ns) := by
  induction ms generalizing s with
  | nil => rfl
  | cons m ms ih =>
    rw [List.cons_append, run_cons, run_cons, Option.bind_assoc]
    exact congrArg _ (funext ih)

/-- A run with a first move. -/
theorem run_cons_eq_some {s u : System} {m : Move} {ms : List Move} :
    s.run (m :: ms) = some u ↔ ∃ next, s.step m = some next ∧ next.run ms = some u := by
  rw [run_cons, Option.bind_eq_some_iff]

/-- A run in two parts. -/
theorem run_append_eq_some {s u : System} {ms ns : List Move} :
    s.run (ms ++ ns) = some u ↔ ∃ next, s.run ms = some next ∧ next.run ns = some u := by
  rw [run_append, Option.bind_eq_some_iff]

/-- A run with a last move. -/
theorem run_concat_eq_some {s u : System} {ms : List Move} {m : Move} :
    s.run (ms ++ [m]) = some u ↔ ∃ next, s.run ms = some next ∧ next.step m = some u := by
  simp only [run_append_eq_some, run_cons_eq_some, run_nil, Option.some.injEq, exists_eq_right]

/-- A command starts under a free ticket, at what the registries hold then. -/
theorem step_start {s u : System} {t : Ticket} {command : Command} {o : Occasion} :
    s.step (.start t command o) = some u ↔
      s.jobs t = none ∧ u = s.advance t ⟨command, o, command.start o s.core⟩ := by
  cases h : s.jobs t <;> simp [step, h, eq_comm]

/-- A command goes on when it waits for a reply of that kind, at what the registries hold then. -/
theorem step_resume {s u : System} {t : Ticket} {reply : Reply} :
    s.step (.resume t reply) = some u ↔
      ∃ j f, s.jobs t = some j ∧ j.flow.resume reply s.core = some f ∧
        u = s.advance t { j with flow := f } := by
  cases h : s.jobs t with
  | none => simp [step, h]
  | some j => simp [step, h, Option.map_eq_some_iff, @eq_comm _ u]

/-- A move advances the command of one ticket. -/
theorem jobs_advance (s : System) (t u : Ticket) (j : Job) :
    (s.advance t j).jobs u = if u = t then some j else s.jobs u :=
  Function.update_apply s.jobs t (some j) u

@[simp] theorem jobs_advance_self (s : System) (t : Ticket) (j : Job) :
    (s.advance t j).jobs t = some j := by
  rw [jobs_advance, if_pos rfl]

/-- The commands of the other tickets stay where they are. -/
theorem jobs_advance_of_ne (s : System) {t u : Ticket} (j : Job) (h : u ≠ t) :
    (s.advance t j).jobs u = s.jobs u := by
  rw [jobs_advance, if_neg h]

/-- After a move its ticket stands for a job, and the core is in the state of that job. -/
theorem exists_job_of_step {s u : System} {m : Move} (h : s.step m = some u) :
    ∃ j, u = s.advance m.ticket j ∧ u.jobs m.ticket = some j ∧ u.core = j.flow.state := by
  cases m with
  | start t command o =>
    obtain ⟨_, rfl⟩ := step_start.mp h
    exact ⟨_, rfl, jobs_advance_self _ _ _, rfl⟩
  | resume t reply =>
    obtain ⟨j, f, _, _, rfl⟩ := step_resume.mp h
    exact ⟨_, rfl, jobs_advance_self _ _ _, rfl⟩

/-- A move leaves the jobs of all other tickets alone. -/
theorem jobs_step_of_ne {s u : System} {m : Move} (h : s.step m = some u) {t : Ticket}
    (ht : t ≠ m.ticket) : u.jobs t = s.jobs t := by
  obtain ⟨j, rfl, _⟩ := exists_job_of_step h
  exact jobs_advance_of_ne s j ht

/-- A ticket once used keeps its command and occasion. -/
theorem step_keeps_job {s u : System} {m : Move} (h : s.step m = some u) {t : Ticket} {j : Job}
    (hj : s.jobs t = some j) :
    ∃ k, u.jobs t = some k ∧ k.command = j.command ∧ k.occasion = j.occasion ∧
      (j.IsSettled → k.IsSettled) := by
  by_cases ht : t = m.ticket
  · subst ht
    cases m with
    | start t command o =>
      obtain ⟨hn, _⟩ := step_start.mp h
      exact absurd (hn.symm.trans hj) (by simp)
    | resume t reply =>
      obtain ⟨i, f, hi, hf, rfl⟩ := step_resume.mp h
      obtain rfl : i = j := Option.some.inj (hi.symm.trans hj)
      refine ⟨{ i with flow := f }, jobs_advance_self _ _ _, rfl, rfl, ?_⟩
      rintro ⟨r, hr⟩
      exact ⟨r, (hr.resume hf).2⟩
  · exact ⟨j, (jobs_step_of_ne h ht).trans hj, rfl, rfl, id⟩

/-- What holds at first and is kept by every move holds at the end of every run. -/
theorem run_induction {P : List Move → System → Prop} (first : P [] fresh)
    (move : ∀ ms m s u, fresh.run ms = some s → P ms s → s.step m = some u → P (ms ++ [m]) u)
    {ms : List Move} {s : System} (h : fresh.run ms = some s) : P ms s := by
  induction ms using List.reverseRecOn generalizing s with
  | nil =>
    cases h
    exact first
  | append_singleton ms m ih =>
    obtain ⟨u, hu, hm⟩ := run_concat_eq_some.mp h
    exact move ms m u s hu (ih hu) hm

/-- Every job was started by a move of the run. -/
theorem start_mem_run {ms : List Move} {s : System} (h : fresh.run ms = some s) {t : Ticket}
    {j : Job} (hj : s.jobs t = some j) : .start t j.command j.occasion ∈ ms := by
  refine run_induction (P := fun ms s => ∀ t j, s.jobs t = some j →
    .start t j.command j.occasion ∈ ms) (fun _ _ h => nomatch h) ?_ h t j hj
  intro ms m s u _ ih hm t j hj
  by_cases ht : t = m.ticket
  · subst ht
    cases m with
    | start t command o =>
      obtain ⟨_, rfl⟩ := step_start.mp hm
      rw [Move.ticket, jobs_advance_self] at hj
      cases hj
      exact List.mem_append_right ms (List.mem_singleton_self _)
    | resume t reply =>
      obtain ⟨i, f, hi, _, rfl⟩ := step_resume.mp hm
      rw [Move.ticket, jobs_advance_self] at hj
      cases hj
      exact List.mem_append_left _ (ih t i hi)
  · exact List.mem_append_left _ (ih t j ((jobs_step_of_ne hm ht).symm.trans hj))

end System

end ApiExposure
