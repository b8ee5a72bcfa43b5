import ApiExposure.Core.State

/-!
# Flows

An operation that needs a collaborator is a flow: it stops at each call with
the state reached so far and goes on with the reply and with the state that it
finds then, which other operations may have changed in the meantime. Changes
are made known only after they took effect, and whether the announcement
succeeds makes no difference.
-/

namespace ApiExposure

/-- A call whose reply is success or an outage. -/
inductive Errand where
  /-- Set up the endpoint of an API. -/
  | provision (api : ApiId) (publisher : FunctionId) (description : ApiDescription)
  /-- Take down the endpoint of an API. -/
  | deprovision (api : ApiId) (publisher : FunctionId)
  /-- Remove the client of an invoker. -/
  | removeClient (invoker : InvokerId)

/-- An operation with calls to collaborators. -/
inductive Flow (α : Type) where
  /-- The operation has ended. -/
  | done (state : Core) (result : Outcome α)
  /-- The operation waits for an errand. -/
  | errand (state : Core) (errand : Errand) (resume : Except Outage Unit → Core → Flow α)
  /-- The operation waits for the credentials of a new client. -/
  | register (state : Core) (invoker : InvokerId)
      (resume : Except Outage ClientCredentials → Core → Flow α)
  /-- The operation makes a change known. -/
  | announce (state : Core) (change : Change) (resume : Core → Flow α)

namespace Flow

/-- What surrounds an operation. Each call gets the state reached by then and gives the state
found when the operation goes on. -/
structure Surroundings (m : Type → Type) where
  /-- Runs an errand. -/
  errand : Core → Errand → m (Except Outage Unit × Core)
  /-- Asks for a client. -/
  register : Core → InvokerId → m (Except Outage ClientCredentials × Core)
  /-- Makes a change known. -/
  announce : Core → Change → m Core

/-- Performs a flow in its surroundings: the state reached in the end and the result. -/
def perform {m : Type → Type} [Monad m] {α : Type} (s : Surroundings m) :
    Flow α → m (Core × Outcome α)
  | done state result => pure (state, result)
  | errand state e resume => do
    let (reply, state) ← s.errand state e
    perform s (resume reply state)
  | register state invoker resume => do
    let (reply, state) ← s.register state invoker
    perform s (resume reply state)
  | announce state change resume => do
    let state ← s.announce state change
    perform s (resume state)

/-- The result and state of an operation without collaborators. -/
def ofOutcome {α : Type} (before : Core) (outcome : Outcome (α × Core)) : Flow α :=
  match outcome with
  | .ok (a, after) => done after (.ok a)
  | .error f => done before (.error f)

end Flow

end ApiExposure
