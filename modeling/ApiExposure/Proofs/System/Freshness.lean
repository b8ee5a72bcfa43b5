import ApiExposure.Proofs.System.Effect

/-!
# Fresh identifiers along a run

When no suffix is handed out twice, a command that starts has suffixes that no
earlier command has, and the commands in progress keep apart. Facts about fresh
identifiers are proved by induction along such runs, from any point of them.
-/

namespace ApiExposure

namespace Occasion

theorem Apart.symm {o p : Occasion} (h : o.Apart p) : p.Apart o :=
  fun m n he => h n m he.symm

/-- An occasion whose suffixes repeat one letter. -/
def lettered (letter : Char) (now : Instant) : Occasion :=
  ⟨now, fun n => String.ofList (List.replicate (n + 1) letter)⟩

/-- The suffixes of such an occasion are told apart by their length. -/
theorem lettered_injective (letter : Char) (now : Instant) :
    Function.Injective (lettered letter now).suffix := by
  intro m n h
  have hlength := congrArg (fun s => s.toList.length) h
  simpa [lettered] using hlength

/-- Occasions of different letters never hand out the same suffix. -/
theorem lettered_apart {l k : Char} (h : l ≠ k) (now later : Instant) :
    (lettered l now).Apart (lettered k later) := by
  intro m n he
  have hhead := congrArg (fun s => s.toList.head?) he
  simp only [lettered, String.toList_ofList, List.replicate_succ, List.head?_cons,
    Option.some.injEq] at hhead
  exact h hhead

end Occasion

/-- Identifiers are fresh when every start has a letter of its own. -/
theorem FreshIds.of_letters {ms : List Move} (letters : List Char) (hletters : letters.Nodup)
    (h : ms.filterMap Move.occasion? = letters.map (fun l => .lettered l default)) :
    FreshIds ms where
  injective := by
    intro o ho
    rw [h] at ho
    obtain ⟨l, _, rfl⟩ := List.mem_map.mp ho
    exact Occasion.lettered_injective l default
  apart := by
    rw [h]
    exact List.pairwise_map.mpr (hletters.imp fun hlk => Occasion.lettered_apart hlk _ _)

/-- A schedule with fresh identifiers has them up to every point. -/
theorem FreshIds.left {ms ns : List Move} (h : FreshIds (ms ++ ns)) : FreshIds ms := by
  obtain ⟨hinjective, hapart⟩ := h
  rw [List.filterMap_append] at hinjective hapart
  exact ⟨fun o ho => hinjective o (List.mem_append_left _ ho),
    (List.pairwise_append.mp hapart).1⟩

namespace System

/-- A move brings no suffix that an earlier command has. -/
def Admits (s : System) (m : Move) : Prop :=
  ∀ o, m.occasion? = some o →
    Function.Injective o.suffix ∧ ∀ t j, s.jobs t = some j → j.occasion.Apart o

/-- Every command has taken effect or waits, and no two share a suffix. -/
structure Orderly (s : System) : Prop where
  /-- Jobs have taken effect or wait. -/
  tracked : s.Tracked
  /-- Different tickets have different suffixes. -/
  apart : ∀ t u i j, t ≠ u → s.jobs t = some i → s.jobs u = some j →
    i.occasion.Apart j.occasion

theorem orderly_fresh : fresh.Orderly :=
  ⟨tracked_fresh, fun _ _ _ _ _ h _ => nomatch h⟩

/-- The occasion of a job after a move is that of the start or was there before. -/
theorem occasion_of_step {s u : System} {m : Move} (h : s.step m = some u) {t : Ticket} {j : Job}
    (hj : u.jobs t = some j) :
    (t = m.ticket ∧ m.occasion? = some j.occasion) ∨
      ∃ i, s.jobs t = some i ∧ i.occasion = j.occasion := by
  by_cases ht : t = m.ticket
  · subst ht
    cases m with
    | start t command o =>
      obtain ⟨_, rfl⟩ := step_start.mp h
      rw [Move.ticket, jobs_advance_self] at hj
      cases hj
      exact .inl ⟨rfl, rfl⟩
    | resume t reply =>
      obtain ⟨i, f, hi, _, rfl⟩ := step_resume.mp h
      rw [Move.ticket, jobs_advance_self] at hj
      cases hj
      exact .inr ⟨i, hi, rfl⟩
  · exact .inr ⟨j, (jobs_step_of_ne h ht).symm.trans hj, rfl⟩

/-- A command that is admitted brings suffixes of its own, and no other move brings any. -/
theorem Orderly.step {s u : System} {m : Move} (hs : s.Orderly) (hm : s.Admits m)
    (h : s.step m = some u) : u.Orderly := by
  refine ⟨(step_cases hs.tracked h).1, fun t v i j htv hi hj => ?_⟩
  rcases occasion_of_step h hi with ⟨ht, ho⟩ | ⟨i', hi', hio⟩
  · rcases occasion_of_step h hj with ⟨hv, _⟩ | ⟨j', hj', hjo⟩
    · exact absurd (ht.trans hv.symm) htv
    · rw [← hjo]
      exact ((hm _ ho).2 v j' hj').symm
  · rcases occasion_of_step h hj with ⟨_, ho⟩ | ⟨j', hj', hjo⟩
    · rw [← hio]
      exact (hm _ ho).2 t i' hi'
    · rw [← hio, ← hjo]
      exact hs.apart t v i' j' htv hi' hj'

/-- Every occasion of a job comes from a start of the run. -/
theorem occasion_mem_run {ms : List Move} {s : System} (h : fresh.run ms = some s) {t : Ticket}
    {j : Job} (hj : s.jobs t = some j) : j.occasion ∈ ms.filterMap Move.occasion? :=
  List.mem_filterMap.mpr ⟨_, start_mem_run h hj, rfl⟩

/-- The next move of a schedule with fresh identifiers is admitted. -/
theorem admits_of_freshIds {past ms : List Move} {m : Move} {s : System}
    (hf : FreshIds (past ++ m :: ms)) (h : fresh.run past = some s) : s.Admits m := by
  intro o ho
  have hinjective := hf.injective
  have hapart := hf.apart
  rw [List.filterMap_append, List.filterMap_cons_some ho] at hinjective hapart
  refine ⟨hinjective o (by simp), fun t j hj => ?_⟩
  exact (List.pairwise_append.mp hapart).2.2 _ (occasion_mem_run h hj) o List.mem_cons_self

/-- What holds at some point of a run with fresh identifiers and is kept by every admitted move
holds at all later points. -/
theorem fresh_induction {P : System → Prop}
    (move : ∀ s m u, s.Orderly → s.Admits m → P s → s.step m = some u → P u)
    (past : List Move) {ms : List Move} {s u : System} (hf : FreshIds (past ++ ms))
    (hpast : fresh.run past = some s) (horderly : s.Orderly) (hs : P s)
    (h : s.run ms = some u) : u.Orderly ∧ P u := by
  induction ms generalizing past s with
  | nil =>
    cases h
    exact ⟨horderly, hs⟩
  | cons m ms ih =>
    obtain ⟨v, hv, hrest⟩ := run_cons_eq_some.mp h
    have hm := admits_of_freshIds hf hpast
    refine ih (past ++ [m]) ?_ (run_concat_eq_some.mpr ⟨s, hpast, hv⟩) (horderly.step hm hv)
      (move s m v horderly hm hs hv) hrest
    rwa [List.append_assoc, List.singleton_append]

/-- A command that has taken effect has a suffix for the identifier that it may generate. -/
def Used (s : System) (suffix : Suffix) : Prop :=
  ∃ t j, s.jobs t = some j ∧ j.IsSettled ∧ j.occasion.suffix 0 = suffix

theorem Used.step {s u : System} {m : Move} {suffix : Suffix} (hs : s.Used suffix)
    (h : s.step m = some u) : u.Used suffix := by
  obtain ⟨t, j, hj, hsettled, rfl⟩ := hs
  obtain ⟨k, hk, _, hko, hks⟩ := step_keeps_job h hj
  exact ⟨t, k, hk, hks hsettled, by rw [hko]⟩

/-- A command that takes effect uses its suffix. -/
theorem Settles.used {s u : System} {m : Move} {j : Job} {r : Outcome j.command.Result}
    (h : s.Settles m u j r) : u.Used (j.occasion.suffix 0) :=
  ⟨m.ticket, j, h.job, ⟨r, h.settled⟩, rfl⟩

/-- No command takes effect with a suffix that is used. -/
theorem Used.ne_of_settles {s u : System} {m : Move} {j : Job} {r : Outcome j.command.Result}
    {suffix : Suffix} (hs : s.Used suffix) (hu : u.Orderly) (h : s.Settles m u j r) :
    j.occasion.suffix 0 ≠ suffix := by
  obtain ⟨t, i, hi, hsettled, rfl⟩ := hs
  by_cases ht : t = m.ticket
  · subst ht
    exact absurd hsettled (h.unsettled i hi)
  · have hi' : u.jobs t = some i := (jobs_step_of_ne h.step ht).trans hi
    exact hu.apart m.ticket t j i (Ne.symm ht) h.job hi' 0 0

/-- The suffixes of a command that still waits are not used. -/
theorem Orderly.not_used {s : System} (hs : s.Orderly) {t : Ticket} {j : Job}
    (hj : s.jobs t = some j) (h : ¬ j.IsSettled) : ¬ s.Used (j.occasion.suffix 0) := by
  rintro ⟨k, i, hi, hsettled, hsuffix⟩
  by_cases hk : k = t
  · subst hk
    obtain rfl : i = j := Option.some.inj (hi.symm.trans hj)
    exact h hsettled
  · exact hs.apart k t i j hk hi hj 0 0 hsuffix

/-- A run with fresh identifiers is orderly to its end. -/
theorem orderly_run {ms : List Move} {s : System} (hf : FreshIds ms)
    (h : fresh.run ms = some s) : s.Orderly :=
  (fresh_induction (P := fun _ => True) (fun _ _ _ _ _ _ _ => trivial) [] hf rfl
    orderly_fresh trivial h).1

/-- What holds at first and is kept by every admitted move holds at the end of every run with
fresh identifiers. -/
theorem fresh_run_induction {P : List Move → System → Prop} (first : P [] fresh)
    (move : ∀ ms m s u, fresh.run ms = some s → s.Orderly → s.Admits m → P ms s →
      s.step m = some u → P (ms ++ [m]) u)
    {ms : List Move} {s : System} (hf : FreshIds ms) (h : fresh.run ms = some s) : P ms s := by
  refine run_induction (P := fun ms s => FreshIds ms → P ms s) (fun _ => first) ?_ h hf
  intro ms m s u hrun ih hm hf
  exact move ms m s u hrun (orderly_run hf.left hrun) (admits_of_freshIds hf hrun) (ih hf.left) hm

end System

end ApiExposure
