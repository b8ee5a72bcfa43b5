import ApiExposure.Proofs.System.Sequel

/-!
# Moves, one by one

Every move of a run starts a command that waits, settles one, or does the next deed
of a command that has taken effect. So nothing but the settling of a command touches
the core, and what a command still owes is told from what it was to do when it
settled and from its moves since then. A change counts as made known when its
command comes to it.
-/

namespace ApiExposure

/-- A job stands as its command began in some state, and its collaborator has not replied. -/
def Job.Pends (j : Job) : Prop :=
  ∃ c, c.store.WellFormed ∧ j.flow = j.command.start j.occasion c ∧ j.flow.Asks c

/-- A command that pends has no result yet. -/
theorem Job.Pends.unsettled {j : Job} (h : j.Pends) : ¬ j.IsSettled := by
  obtain ⟨_, _, _, hasks⟩ := h
  exact fun ⟨r, hr⟩ => hasks.unsettled r hr

namespace System

/-- Every job has taken effect and does what it still has to do, or waits as it began. -/
def Planned (s : System) : Prop :=
  ∀ t j, s.jobs t = some j → (j.IsSettled ∧ ∃ deeds, j.flow.Does deeds) ∨ j.Pends

/-- By a move a command starts and waits for a collaborator. -/
structure Waits (s : System) (m : Move) (u : System) (j : Job) : Prop where
  /-- The move is made. -/
  step : s.step m = some u
  /-- The core stays as it is. -/
  core : u.core = s.core
  /-- The ticket is new. -/
  before : s.jobs m.ticket = none
  /-- The job then stands under it. -/
  after : u.jobs m.ticket = some j
  /-- It waits. -/
  pends : j.Pends
  /-- Nothing is reported. -/
  report : s.report? m = none

/-- By a move a command that has taken effect does its first deed; others are left. -/
structure Proceeds (s : System) (m : Move) (u : System) (d : Deed) (deeds : List Deed) : Prop where
  /-- The move is made. -/
  step : s.step m = some u
  /-- The core stays as it is. -/
  core : u.core = s.core
  /-- The deed was the first. -/
  before : ∃ j, s.jobs m.ticket = some j ∧ j.IsSettled ∧ j.flow.Does (d :: deeds)
  /-- The others are left. -/
  after : ∃ j, u.jobs m.ticket = some j ∧ j.IsSettled ∧ j.flow.Does deeds
  /-- An errand is reported. -/
  report : ∃ done, s.report? m = d.errand?.map (fun e => ⟨e, done⟩)

/-- What a move can be. -/
inductive Turn (s : System) (m : Move) (u : System) : Prop
  /-- A command starts and waits. -/
  | waits {j : Job} (h : s.Waits m u j)
  /-- A command takes effect. -/
  | settles {j : Job} {r : Outcome j.command.Result} {deeds : List Deed}
      (h : s.Settles m u j r) (does : j.flow.Does deeds)
      (sequel : Sequel j.occasion j.command (s.report? m) s.core r u.core deeds)
  /-- A command does its next deed. -/
  | proceeds {d : Deed} {deeds : List Deed} (h : s.Proceeds m u d deeds)

variable {s u : System} {m : Move}

/-- A move starts a command that waits, settles one or does a deed. -/
theorem turn_of_step (hs : s.Planned) (hc : s.core.store.WellFormed) (h : s.step m = some u) :
    s.Turn m u := by
  cases m with
  | start t command o =>
    obtain ⟨hnone, rfl⟩ := step_start.mp h
    have hj := jobs_advance_self s t ⟨command, o, command.start o s.core⟩
    rcases command.start_concludes o s.core with ⟨r, deeds, hr, hdoes, hsequel⟩ | hasks
    · refine .settles ⟨h, hj, hr, fun i hi => ?_⟩ hdoes hsequel
      cases hnone.symm.trans hi
    · exact .waits ⟨h, hasks.state, hnone, hj, ⟨s.core, hc, rfl, hasks⟩, rfl⟩
  | resume t reply =>
    obtain ⟨i, f, hi, hf, rfl⟩ := step_resume.mp h
    have hj := jobs_advance_self s t { i with flow := f }
    have hreport : s.report? (.resume t reply) = i.flow.report? reply := by
      rw [report?, hi, Option.bind_some]
    rcases hs t i hi with ⟨⟨r, hr⟩, deeds, hdoes⟩ | ⟨c, hwell, hflow, hasks⟩
    · obtain ⟨hstate, hr'⟩ := hr.resume hf
      obtain ⟨d, left, rfl, hdoes', hd⟩ := hdoes.resume hf
      exact .proceeds ⟨h, hstate, ⟨i, hi, ⟨r, hr⟩, hdoes⟩, ⟨_, hj, ⟨r, hr'⟩, hdoes'⟩,
        ⟨_, hreport.trans hd⟩⟩
    · have hconcludes : i.command.Concludes i.occasion (i.flow.report? reply) s.core f := by
        rw [hflow] at hf hasks ⊢
        exact Command.resume_concludes hwell hasks hf
      obtain ⟨r, deeds, hr, hdoes, hsequel⟩ := hconcludes
      refine .settles ⟨h, hj, hr, fun k hk => ?_⟩ hdoes (hreport ▸ hsequel)
      obtain rfl := Option.some.inj (hi.symm.trans hk)
      exact fun ⟨q, hq⟩ => hasks.unsettled q hq

/-- Every move keeps the system planned. -/
theorem Planned.step (hs : s.Planned) (hc : s.core.store.WellFormed) (h : s.step m = some u) :
    u.Planned := by
  intro t j hj
  by_cases ht : t = m.ticket
  · subst ht
    cases turn_of_step hs hc h with
    | waits hwaits => exact .inr (Option.some.inj (hwaits.after.symm.trans hj) ▸ hwaits.pends)
    | settles hsettles does _ =>
      obtain rfl := Option.some.inj (hsettles.job.symm.trans hj)
      exact .inl ⟨⟨_, hsettles.settled⟩, _, does⟩
    | proceeds hproceeds =>
      obtain ⟨i, hi, hsettled, hdoes⟩ := hproceeds.after
      obtain rfl := Option.some.inj (hi.symm.trans hj)
      exact .inl ⟨hsettled, _, hdoes⟩
  · exact hs t j ((jobs_step_of_ne h ht).symm.trans hj)

/-- What a move settles comes after its report and does the deeds that follow. -/
theorem Settles.sequel {j : Job} {r : Outcome j.command.Result} (h : s.Settles m u j r)
    (hs : s.Planned) (hc : s.core.store.WellFormed) :
    ∃ deeds, j.flow.Does deeds ∧
      Sequel j.occasion j.command (s.report? m) s.core r u.core deeds := by
  cases turn_of_step hs hc h.step with
  | waits hwaits =>
    obtain rfl := Option.some.inj (hwaits.after.symm.trans h.job)
    exact absurd ⟨r, h.settled⟩ hwaits.pends.unsettled
  | @settles k q deeds hk does sequel =>
    obtain rfl : k = j := Option.some.inj (hk.job.symm.trans h.job)
    obtain rfl : q = r := hk.settled.unique h.settled
    exact ⟨deeds, does, sequel⟩
  | proceeds hproceeds =>
    obtain ⟨i, hi, hsettled, _⟩ := hproceeds.before
    exact absurd hsettled (h.unsettled i hi)

/-- The changes that the command of a ticket still has to make known; the one at hand does not
count. -/
def owed (s : System) (t : Ticket) : List Change :=
  match s.jobs t with
  | some j => Deed.changes j.flow.rest.tail
  | none => []

/-- What a command owes are the changes among its deeds behind the one at hand. -/
theorem owed_of_job {t : Ticket} {j : Job} (h : s.jobs t = some j) :
    s.owed t = Deed.changes j.flow.rest.tail := by
  rw [owed, h]

/-- A move leaves what other commands owe. -/
theorem owed_of_ne (h : s.step m = some u) {t : Ticket} (ht : t ≠ m.ticket) :
    u.owed t = s.owed t := by
  rw [owed, jobs_step_of_ne h ht, owed]

/-- So a move changes what is owed in one place. -/
theorem owed_step (h : s.step m = some u) :
    u.owed = Function.update s.owed m.ticket (u.owed m.ticket) := by
  funext t
  by_cases ht : t = m.ticket
  · rw [ht, Function.update_self]
  · rw [Function.update_of_ne ht, owed_of_ne h ht]

/-- What has ended owes nothing. -/
theorem Idle.owed (hs : s.Planned) (h : s.Idle) (t : Ticket) : s.owed t = [] := by
  cases hj : s.jobs t with
  | none => rw [System.owed, hj]
  | some j =>
    rw [owed_of_job hj]
    rcases hs t j hj with ⟨_, deeds, hdoes⟩ | ⟨_, _, _, hasks⟩
    · rw [hdoes.rest_eq, hdoes.eq_nil (h t j hj)]
      rfl
    · rw [hasks.rest]
      rfl

/-- A command that waits makes nothing known and owes nothing. -/
theorem Waits.owed {j : Job} (h : s.Waits m u j) : u.change? m = none ∧ u.owed = s.owed := by
  obtain ⟨_, _, _, hasks⟩ := h.pends
  refine ⟨by rw [System.change?, h.after, Option.bind_some, hasks.change], funext fun t => ?_⟩
  by_cases ht : t = m.ticket
  · subst ht
    rw [owed_of_job h.after, hasks.rest, System.owed, h.before]
    rfl
  · exact owed_of_ne h.step ht

/-- A command that takes effect makes its first deed known if that is an announcement. -/
theorem Settles.change?_eq {j : Job} {r : Outcome j.command.Result} {deeds : List Deed}
    (h : s.Settles m u j r) (hdoes : j.flow.Does deeds) :
    u.change? m = deeds.head?.bind Deed.change? := by
  rw [System.change?, h.job, Option.bind_some, hdoes.change?_eq]

/-- A command that takes effect makes its first change known at once, if that is what comes first,
and owes the others. -/
theorem Settles.owed {j : Job} {r : Outcome j.command.Result} {deeds : List Deed}
    (hs : s.Planned) (h : s.Settles m u j r) (hdoes : j.flow.Does deeds) :
    s.owed m.ticket = [] ∧
      Deed.changes deeds = (u.change? m).toList ++ u.owed m.ticket := by
  constructor
  · cases hi : s.jobs m.ticket with
    | none => rw [System.owed, hi]
    | some i =>
      obtain ⟨_, _, _, hasks⟩ := (hs m.ticket i hi).resolve_left fun h' => h.unsettled i hi h'.1
      rw [owed_of_job hi, hasks.rest]
      rfl
  · rw [owed_of_job h.job, System.change?, h.job, Option.bind_some]
    exact hdoes.changes_eq

/-- A command that goes on owes what it does not make known now. -/
theorem Proceeds.owed {d : Deed} {deeds : List Deed} (h : s.Proceeds m u d deeds) :
    s.owed m.ticket = (u.change? m).toList ++ u.owed m.ticket := by
  obtain ⟨i, hi, _, hdoes⟩ := h.before
  obtain ⟨j, hj, _, hdoes'⟩ := h.after
  rw [owed_of_job hi, owed_of_job hj, System.change?, hj, Option.bind_some, hdoes.rest_eq,
    List.tail_cons]
  exact hdoes'.changes_eq

/-- Every system that a run reaches is planned. -/
theorem planned_run {ms : List Move} (h : fresh.run ms = some s) : s.Planned :=
  run_induction (P := fun _ s => s.Planned) (fun _ _ hj => nomatch hj)
    (fun _ _ _ _ hs ih hm => ih.step (wellFormed_run hs) hm) h

end System

end ApiExposure
