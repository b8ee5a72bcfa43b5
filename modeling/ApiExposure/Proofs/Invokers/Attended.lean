import ApiExposure.IdentityProvider
import ApiExposure.Proofs.Invokers.Inquiries

/-!
# The core with its identity provider

The in-process identity provider beside the core. A command that asks for a client
or for its removal is served at some moment and hears of it at a later one; before,
between and after anything else may happen. The other collaborators reply at will;
the identity provider replies what it does. A run of both comprises a run of the
core with the same commands.
-/

namespace ApiExposure

namespace Inquiry

/-- The reply of the identity provider, and the clients that it then has. A new client gets the
secret. -/
def serve (secret : String) (c : Clients) : Inquiry → Reply × Clients
  | register id =>
    match c.register id secret with
    | .error outage => (.client (.error outage), c)
    | .ok (credentials, c) => (.client (.ok credentials), c)
  | remove id => (.errand (.ok ()), c.remove id)

variable {c : Clients} {id : InvokerId}

/-- An identifier without client gets one. -/
theorem serve_register {secret : String} (hnew : c.table.get? id = none) :
    (register id).serve secret c =
      (.client (.ok ⟨id.text, secret⟩), ⟨c.table.insert id ⟨id.text, secret⟩⟩) := by
  have hcontains : c.table.contains id = false := Table.contains_eq_false_iff.mpr hnew
  simp only [serve, Clients.register, hcontains, Bool.false_eq_true, if_false]

end Inquiry

/-- The core with the in-process identity provider. -/
structure Attended where
  /-- The core and its commands. -/
  system : System
  /-- The clients of the identity provider. -/
  clients : Clients
  /-- What commands have been replied and have not heard yet. -/
  replies : Ticket → Option Reply

/-- What can happen in a core with its identity provider. -/
inductive Act where
  /-- The core moves without it. -/
  | core (move : Move)
  /-- It serves the command of a ticket; a new client gets the secret. -/
  | serve (ticket : Ticket) (secret : String)
  /-- The command of a ticket hears its reply. -/
  | deliver (ticket : Ticket)

namespace Act

/-- The ticket of the command that is concerned. -/
def ticket : Act → Ticket
  | core m => m.ticket
  | serve t _ => t
  | deliver t => t

/-- The move of the core alone. -/
def move? : Act → Option Move
  | core m => some m
  | _ => none

end Act

namespace Attended

/-- The core and the identity provider before the first command. -/
def fresh : Attended := ⟨.fresh, .empty, fun _ => none⟩

/-- Lets one thing happen. A command that asks the identity provider goes on by its reply only; it is
served once. -/
def step (a : Attended) : Act → Option Attended
  | .core m =>
    match a.system.inquiry? m.ticket with
    | none => (a.system.step m).map (fun system => { a with system })
    | some _ => none
  | .serve t secret =>
    match a.system.inquiry? t, a.replies t with
    | some q, none =>
      let (reply, clients) := q.serve secret a.clients
      some { a with clients, replies := Function.update a.replies t (some reply) }
    | _, _ => none
  | .deliver t =>
    match a.replies t with
    | some reply => (a.system.step (.resume t reply)).map (fun system =>
        { a with system, replies := Function.update a.replies t none })
    | none => none

/-- Lets one thing happen after the other. -/
def run (a : Attended) (acts : List Act) : Option Attended := acts.foldlM step a

variable {a b c : Attended} {x : Act} {xs : List Act} {t : Ticket}

/-- A move of the commands alone is made where no inquiry is open. -/
theorem step_core {m : Move} : a.step (.core m) = some b ↔
    a.system.inquiry? m.ticket = none ∧
      ∃ system, a.system.step m = some system ∧ { a with system } = b := by
  cases h : a.system.inquiry? m.ticket <;> simp [step, h]

/-- The identity provider serves an open inquiry that it has not replied to. -/
theorem step_serve {secret : String} : a.step (.serve t secret) = some b ↔
    ∃ q, a.system.inquiry? t = some q ∧ a.replies t = none ∧
      { a with
        clients := (q.serve secret a.clients).2
        replies := Function.update a.replies t (some (q.serve secret a.clients).1) } = b := by
  cases h : a.system.inquiry? t <;> cases h' : a.replies t <;> simp [step, h, h']

/-- A reply on its way is delivered to the command that waits for it. -/
theorem step_deliver : a.step (.deliver t) = some b ↔
    ∃ reply, a.replies t = some reply ∧
      ∃ system, a.system.step (.resume t reply) = some system ∧
        { a with system, replies := Function.update a.replies t none } = b := by
  cases h : a.replies t <;> simp [step, h]

/-- A run with a last act. -/
theorem run_concat_eq_some : a.run (xs ++ [x]) = some c ↔
    ∃ b, a.run xs = some b ∧ b.step x = some c := by
  simp [run, List.foldlM_append, Option.bind_eq_some_iff]

/-- What holds at first and is kept by every act holds at the end of every run. -/
theorem run_induction {P : List Act → Attended → Prop} (first : P [] fresh)
    (act : ∀ xs x a b, fresh.run xs = some a → P xs a → a.step x = some b → P (xs ++ [x]) b)
    (h : fresh.run xs = some a) : P xs a := by
  induction xs using List.reverseRecOn generalizing a with
  | nil =>
    cases h
    exact first
  | append_singleton xs x ih =>
    obtain ⟨b, hb, hx⟩ := run_concat_eq_some.mp h
    exact act xs x b a hb (ih hb) hx

/-- By an act the core stays as it is or makes a move of that ticket. -/
theorem system_step (h : a.step x = some b) :
    b.system = a.system ∨ ∃ m, m.ticket = x.ticket ∧ a.system.step m = some b.system := by
  cases x with
  | core m =>
    obtain ⟨_, _, hm, rfl⟩ := step_core.mp h
    exact .inr ⟨m, rfl, hm⟩
  | serve t secret =>
    obtain ⟨_, _, _, rfl⟩ := step_serve.mp h
    exact .inl rfl
  | deliver t =>
    obtain ⟨reply, _, _, hm, rfl⟩ := step_deliver.mp h
    exact .inr ⟨.resume t reply, rfl, hm⟩

/-- A run comprises a run of the core with the same commands. -/
theorem exists_run (h : fresh.run xs = some a) :
    ∃ ms, System.fresh.run ms = some a.system ∧
      ms.filterMap Move.occasion? = (xs.filterMap Act.move?).filterMap Move.occasion? ∧
      ∀ m ∈ ms, m.ticket ∈ xs.map Act.ticket := by
  refine run_induction (P := fun xs a => ∃ ms, System.fresh.run ms = some a.system ∧
    ms.filterMap Move.occasion? = (xs.filterMap Act.move?).filterMap Move.occasion? ∧
    ∀ m ∈ ms, m.ticket ∈ xs.map Act.ticket) ⟨[], rfl, rfl, fun _ hm => nomatch hm⟩ ?_ h
  rintro xs x a b _ ⟨ms, hms, hoccasions, htickets⟩ hx
  have hold : ∀ m ∈ ms, m.ticket ∈ (xs ++ [x]).map Act.ticket := fun m hm => by
    rw [List.map_append]
    exact List.mem_append_left _ (htickets m hm)
  have hnew : ∀ m : Move, m.ticket = x.ticket →
      ∀ n ∈ ms ++ [m], n.ticket ∈ (xs ++ [x]).map Act.ticket := fun m hm => by
    refine List.forall_mem_append.mpr ⟨hold, List.forall_mem_singleton.mpr ?_⟩
    rw [hm]
    exact List.mem_map_of_mem (by simp)
  cases x with
  | core m =>
    obtain ⟨_, u, hm, rfl⟩ := step_core.mp hx
    refine ⟨ms ++ [m], System.run_concat_eq_some.mpr ⟨_, hms, hm⟩, ?_, hnew m rfl⟩
    simp only [List.filterMap_append, hoccasions]
    rfl
  | serve t secret =>
    obtain ⟨_, _, _, rfl⟩ := step_serve.mp hx
    refine ⟨ms, hms, hoccasions.trans ?_, hold⟩
    rw [List.filterMap_append, List.filterMap_append]
    exact (List.append_nil _).symm
  | deliver t =>
    obtain ⟨reply, _, u, hm, rfl⟩ := step_deliver.mp hx
    refine ⟨ms ++ [.resume t reply], System.run_concat_eq_some.mpr ⟨_, hms, hm⟩, ?_, hnew _ rfl⟩
    simp only [List.filterMap_append, hoccasions]
    rfl

/-- What is known of inquiries where the identifiers of all commands are fresh. -/
theorem inquiring_run (hf : FreshIds (xs.filterMap Act.move?)) (h : fresh.run xs = some a) :
    a.system.Inquiring := by
  obtain ⟨ms, hms, hoccasions, _⟩ := exists_run h
  exact System.inquiring_run ⟨hoccasions ▸ hf.injective, hoccasions ▸ hf.apart⟩ hms

/-- An act leaves what other commands ask. -/
theorem inquiry?_step_of_ne (h : a.step x = some b) (ht : t ≠ x.ticket) :
    b.system.inquiry? t = a.system.inquiry? t := by
  rcases system_step h with hsame | ⟨m, hm, hstep⟩
  · rw [hsame]
  · exact System.inquiry?_step_of_ne hstep (hm ▸ ht)

/-- At the end of a run it is enough to look at the tickets used. -/
theorem idle_of_run (h : fresh.run xs = some a)
    (hended : (xs.map Act.ticket).all (fun t => (a.system.jobs t).all (·.flow.hasEnded)) = true) :
    a.system.Idle := by
  obtain ⟨ms, hms, _, htickets⟩ := exists_run h
  refine System.idle_of_run hms (List.all_eq_true.mpr fun t ht => ?_)
  obtain ⟨m, hm, rfl⟩ := List.mem_map.mp ht
  exact List.all_eq_true.mp hended _ (htickets m hm)

end Attended

end ApiExposure
