import ApiExposure.Proofs.Authorization.Decision

/-!
# From one state to a later one

What may be seen to happen at once is a move, or one half of the removal of a
domain: the domain goes from the registry of providers, and then the cascade
goes through the store. Between the halves everything else may happen. A state
comes before another when such passages lead from it to the other and every
command that starts on the way brings suffixes that no earlier command had. Runs
with fresh identifiers are of this kind; the halves add the states in between.
-/

namespace ApiExposure.System

/-- What may be seen to happen at once, by a move or by none. -/
inductive Passes (s : System) : Option Move → System → Prop
  /-- A move is made. -/
  | move {m : Move} {u : System} (h : s.step m = some u) : Passes s (some m) u
  /-- A domain goes from the registry of providers alone. -/
  | deregistered {id : DomainId} {functions : List FunctionId} {providers : Providers}
      (h : s.core.providers.deregister id = .ok (functions, providers)) :
      Passes s none { s with core := { s.core with providers } }
  /-- The cascade of some functions goes through the store. -/
  | invalidated (functions : List FunctionId) (now : Instant) :
      Passes s none
        { s with core := { s.core with store := (s.core.store.invalidate functions now).1 } }

/-- A system comes before another, and the identifiers generated on the way are fresh. -/
inductive Precedes (s : System) : System → Prop
  /-- A system comes before itself. -/
  | refl : Precedes s s
  /-- What comes before a system comes before all that it passes to. -/
  | pass {t u : System} {m : Option Move} (h : Precedes s t) (hfresh : ∀ n ∈ m, t.Admits n)
      (hu : t.Passes m u) : Precedes s u

variable {s t u : System} {m : Option Move}

/-- What may be seen passes to what may be seen. -/
theorem Seen.pass (hs : s.Seen) (h : s.Passes m u) : u.Seen := by
  cases h with
  | move h => exact hs.step h
  | deregistered h => exact hs.deregistered h
  | invalidated functions now => exact hs.invalidated functions now

/-- A passage with fresh identifiers keeps the system orderly; only moves concern the jobs. -/
theorem Orderly.pass (hs : s.Orderly) (hfresh : ∀ n ∈ m, s.Admits n) (h : s.Passes m u) :
    u.Orderly := by
  cases h with
  | move h => exact hs.step (hfresh _ rfl) h
  | deregistered _ => exact ⟨hs.tracked, hs.apart⟩
  | invalidated _ _ => exact ⟨hs.tracked, hs.apart⟩

namespace Precedes

/-- What a passage leads to may be seen. -/
theorem seen (h : s.Precedes u) (hs : s.Seen) : u.Seen := by
  induction h with
  | refl => exact hs
  | pass _ _ hu ih => exact ih.pass hu

theorem trans (hst : s.Precedes t) (htu : t.Precedes u) : s.Precedes u := by
  induction htu with
  | refl => exact hst
  | pass _ hfresh hu ih => exact ih.pass hfresh hu

/-- A passage keeps a state orderly. -/
theorem orderly (h : s.Precedes u) (hs : s.Orderly) : u.Orderly := by
  induction h with
  | refl => exact hs
  | pass _ hfresh hu ih => exact ih.pass hfresh hu

/-- What holds of a system and is kept by every passage with fresh identifiers holds of all
systems that it comes before. -/
theorem invariant {P : System → Prop} (hs : s.Seen) (ho : s.Orderly) (first : P s)
    (pass : ∀ t m u, t.Seen → t.Orderly → P t → (∀ n ∈ m, t.Admits n) → t.Passes m u → P u)
    (h : s.Precedes u) : P u := by
  induction h with
  | refl => exact first
  | pass ht hfresh hu ih => exact pass _ _ _ (ht.seen hs) (ht.orderly ho) ih hfresh hu

end Precedes

/-- A run with fresh identifiers leads from every state on it to its end. -/
theorem precedes_of_run {past ms : List Move} (hf : FreshIds (past ++ ms))
    (hpast : fresh.run past = some s) (h : s.run ms = some u) : s.Precedes u :=
  (fresh_induction (P := s.Precedes)
    (fun _ _ _ _ hm hv hstep => .pass hv (fun _ hn => Option.mem_some.mp hn ▸ hm) (.move hstep))
    past hf hpast (orderly_run hf.left hpast) .refl h).2

/-- A run with fresh identifiers is a passage from the start. -/
theorem precedes_of_fresh_run {ms : List Move} (hf : FreshIds ms) (h : fresh.run ms = some s) :
    fresh.Precedes s :=
  precedes_of_run (show FreshIds ([] ++ ms) from hf) rfl h

end ApiExposure.System
