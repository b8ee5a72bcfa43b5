import ApiExposure.Invoker
import ApiExposure.Registry.Providers

/-!
# The registry of invokers

Onboarded invokers with their grants. A grant may outlive the API that it is
for; those who read grants take such a one as absent.
-/

namespace ApiExposure

/-- Onboarded invokers. -/
structure Invokers where
  /-- Invokers in the order of onboarding. -/
  table : Table InvokerId InvokerIdentity

namespace Invokers

/-- The registry without invokers. -/
def empty : Invokers := ⟨.empty⟩

instance : Inhabited Invokers := ⟨empty⟩

/-- The invoker with an identifier. -/
def get (r : Invokers) (id : InvokerId) : Outcome InvokerIdentity :=
  match r.table.get? id with
  | some i => .ok i
  | none => .error (.notFound (.invoker id))

/-- Whether an identifier names an onboarded invoker. -/
def contains (r : Invokers) (id : InvokerId) : Bool := r.table.contains id

/-- Onboards an invoker under a given identifier, with each of the grants once. -/
def onboardAs (r : Invokers) (id : InvokerId) (e : Enrolment) (grants : List Grant)
    (now : Instant) : Outcome (InvokerIdentity × Invokers) := do
  e.validate
  let identity := grants.foldl InvokerIdentity.addGrant (.ofEnrolment id e now)
  if r.contains id then .error (.conflict (.alreadyOnboarded id))
  else .ok (identity, ⟨r.table.insert id identity⟩)

/-- Onboards an invoker under a generated identifier. -/
def onboard (r : Invokers) (e : Enrolment) (grants : List Grant) (o : Occasion) :
    Outcome (InvokerIdentity × Invokers) :=
  r.onboardAs (.generate (o.suffix 0)) e grants o.now

/-- Applies a patch to an invoker. -/
def update (r : Invokers) (id : InvokerId) (p : InvokerPatch) (now : Instant) :
    Outcome (InvokerIdentity × Invokers) := do
  p.validate
  let identity := (← r.get id).apply p now
  .ok (identity, ⟨r.table.insert id identity⟩)

/-- Removes an invoker and returns it with its grants. -/
def deregister (r : Invokers) (id : InvokerId) : Outcome (InvokerIdentity × Invokers) := do
  let identity ← r.get id
  .ok (identity, ⟨r.table.erase id⟩)

/-- Adds a grant; tells whether it was new. -/
def grant (r : Invokers) (id : InvokerId) (g : Grant) : Outcome (Bool × Invokers) := do
  g.validate
  let identity ← r.get id
  .ok (!identity.holds g, ⟨r.table.insert id (identity.addGrant g)⟩)

/-- Removes a grant that the invoker holds. -/
def removeGrant (r : Invokers) (id : InvokerId) (g : Grant) : Outcome Invokers := do
  let identity ← r.get id
  if identity.holds g then
    let left := identity.grants.filter (fun h => h != g)
    .ok ⟨r.table.insert id { identity with grants := left }⟩
  else .error (.notFound (.grant g.api g.exposer id))

/-- Grants of an invoker in the order in which they were added. -/
def grantsOf (r : Invokers) (id : InvokerId) : Outcome (List Grant) :=
  (r.get id).map (·.grants)

/-- Grants of an invoker within a scope. -/
def grantsMatching (r : Invokers) (id : InvokerId) (scope : RevocationScope) :
    Outcome (List Grant) :=
  (r.grantsOf id).map (·.filter scope.matchesGrant)

/-- Invokers in the order of onboarding. -/
def list (r : Invokers) : List InvokerIdentity := r.table.values

/-- The invoker must be onboarded. -/
def requireOnboarded (r : Invokers) (id : InvokerId) : Outcome Unit :=
  require (r.contains id) (.notOnboarded id)

end Invokers

end ApiExposure
