import ApiExposure.Proofs.System.Run

/-!
# Moves of other tickets

What stands under a ticket is no concern of the moves under other tickets: two
systems that agree off a ticket make the same moves of others and still agree.
A command that has taken effect can therefore be taken out of a run with all
that it still has to do.
-/

namespace ApiExposure.System

/-- Two systems differ at most in what stands under a ticket. -/
structure AgreeOff (t : Ticket) (s u : System) : Prop where
  /-- The core is the same. -/
  core : u.core = s.core
  /-- Other tickets stand for the same. -/
  jobs : ∀ v, v ≠ t → u.jobs v = s.jobs v

variable {t : Ticket} {s u : System}

/-- Putting a job under a ticket is not seen off the ticket, if the core is left. -/
theorem agreeOff_advance {j : Job} (h : j.flow.state = s.core) : AgreeOff t (s.advance t j) s :=
  ⟨h.symm, fun _ hv => (jobs_advance_of_ne s j hv).symm⟩

namespace AgreeOff

/-- A move that is made in both systems leaves them apart under the ticket only. -/
theorem advance (h : AgreeOff t s u) (v : Ticket) (j : Job) :
    AgreeOff t (s.advance v j) (u.advance v j) := by
  refine ⟨rfl, fun w hw => ?_⟩
  rw [jobs_advance, jobs_advance, h.jobs w hw]

/-- A move under another ticket is made in both systems or in none. -/
theorem step {v : System} {m : Move} (h : AgreeOff t s u) (hm : m.ticket ≠ t)
    (hs : s.step m = some v) : ∃ w, u.step m = some w ∧ AgreeOff t v w := by
  cases m with
  | start k command o =>
    obtain ⟨hn, rfl⟩ := step_start.mp hs
    refine ⟨_, step_start.mpr ⟨(h.jobs k hm).trans hn, rfl⟩, ?_⟩
    rw [h.core]
    exact h.advance k _
  | resume k reply =>
    obtain ⟨j, f, hj, hf, rfl⟩ := step_resume.mp hs
    rw [← h.core] at hf
    exact ⟨_, step_resume.mpr ⟨j, f, (h.jobs k hm).trans hj, hf, rfl⟩, h.advance k _⟩

/-- So are any number of them. -/
theorem run {v : System} {ms : List Move} (h : AgreeOff t s u) (hms : ∀ m ∈ ms, m.ticket ≠ t)
    (hs : s.run ms = some v) : ∃ w, u.run ms = some w ∧ AgreeOff t v w := by
  induction ms generalizing s u with
  | nil =>
    cases hs
    exact ⟨u, rfl, h⟩
  | cons m ms ih =>
    rw [List.forall_mem_cons] at hms
    obtain ⟨next, hnext, hrest⟩ := run_cons_eq_some.mp hs
    obtain ⟨w, hw, hagree⟩ := h.step hms.1 hnext
    obtain ⟨x, hx, hend⟩ := ih hagree hms.2 hrest
    exact ⟨x, run_cons_eq_some.mpr ⟨w, hw, hx⟩, hend⟩

/-- A job that has taken effect can be left out with all its moves; its result stays. -/
theorem run_filter {v : System} {ms : List Move} {j : Job} {r : Outcome j.command.Result}
    (h : AgreeOff t s u) (hj : s.jobs t = some j) (hr : j.flow.Settled r)
    (hs : s.run ms = some v) :
    ∃ w f, u.run (ms.filter (fun m => m.ticket ≠ t)) = some w ∧ AgreeOff t v w ∧
      v.jobs t = some { j with flow := f } ∧ f.Settled r := by
  induction ms generalizing s u j with
  | nil =>
    cases hs
    exact ⟨u, j.flow, rfl, h, hj, hr⟩
  | cons m ms ih =>
    obtain ⟨next, hnext, hrest⟩ := run_cons_eq_some.mp hs
    by_cases hm : m.ticket = t
    · rw [List.filter_cons_of_neg (by simpa using hm)]
      cases m with
      | start k command o =>
        obtain rfl : k = t := hm
        obtain ⟨hn, _⟩ := step_start.mp hnext
        rw [hj] at hn
        cases hn
      | resume k reply =>
        obtain rfl : k = t := hm
        obtain ⟨i, f, hi, hf, rfl⟩ := step_resume.mp hnext
        obtain rfl : j = i := Option.some.inj (hj.symm.trans hi)
        obtain ⟨hstate, hsettled⟩ := hr.resume hf
        have hagree : AgreeOff k (s.advance k { j with flow := f }) u :=
          ⟨h.core.trans hstate.symm, fun w hw => by
            rw [jobs_advance_of_ne _ _ hw]
            exact h.jobs w hw⟩
        exact ih (j := { j with flow := f }) hagree (jobs_advance_self _ _ _) hsettled hrest
    · rw [List.filter_cons_of_pos (by simpa using hm)]
      obtain ⟨w, hw, hagree⟩ := h.step hm hnext
      have hj' : next.jobs t = some j := (jobs_step_of_ne hnext (Ne.symm hm)).trans hj
      obtain ⟨x, f, hx, hend⟩ := ih hagree hj' hr hrest
      exact ⟨x, f, run_cons_eq_some.mpr ⟨w, hw, hx⟩, hend⟩

end AgreeOff

/-- Moves of other tickets leave what stands under a ticket. -/
theorem jobs_run_of_ne {ms : List Move} (h : s.run ms = some u) (hms : ∀ m ∈ ms, m.ticket ≠ t) :
    u.jobs t = s.jobs t := by
  induction ms generalizing s with
  | nil =>
    cases h
    rfl
  | cons m ms ih =>
    rw [List.forall_mem_cons] at hms
    obtain ⟨next, hnext, hrest⟩ := run_cons_eq_some.mp h
    exact (ih hrest hms.2).trans (jobs_step_of_ne hnext (Ne.symm hms.1))

end ApiExposure.System
