import ApiExposure.Registry.Invokers
import ApiExposure.Registry.Publications
import ApiExposure.Security

/-!
# The registry of security contexts

One context for each trusted invoker. Every write negotiates all entries anew
against the published APIs and stores either all of them or none.
-/

namespace ApiExposure

/-- Security contexts of invokers. -/
structure TrustedInvokers where
  /-- Contexts in the order of their creation. -/
  table : Table InvokerId SecurityContext

namespace TrustedInvokers

/-- The registry without contexts. -/
def empty : TrustedInvokers := ⟨.empty⟩

instance : Inhabited TrustedInvokers := ⟨empty⟩

/-- The methods that the published APIs offer for an entry. -/
def offer (s : Publications) (e : SecurityEntry) : List SecurityMethod :=
  match e.interface, e.api with
  | none, some api => s.securityMethods api e.exposer
  | _, _ => []

/-- Selects a method for every entry. -/
def negotiate (s : Publications) (c : SecurityContext) : Outcome SecurityContext := do
  let entries ← c.entries.mapM (fun e => e.negotiate (offer s e))
  .ok { c with entries := entries }

/-- Checks a context and selects its methods. -/
def prepare (s : Publications) (c : SecurityContext) : Outcome SecurityContext := do
  c.validate
  negotiate s c

/-- Stores the context of an onboarded invoker in place of any earlier one. -/
def create (t : TrustedInvokers) (s : Publications) (r : Invokers) (id : InvokerId)
    (c : SecurityContext) : Outcome (SecurityContext × TrustedInvokers) := do
  let c ← prepare s c
  r.requireOnboarded id
  .ok (c, ⟨t.table.insert id c⟩)

/-- Whether an invoker has a context. -/
def contains (t : TrustedInvokers) (id : InvokerId) : Bool := t.table.contains id

/-- Replaces the context of an invoker. -/
def update (t : TrustedInvokers) (s : Publications) (id : InvokerId) (c : SecurityContext) :
    Outcome (SecurityContext × TrustedInvokers) := do
  let c ← prepare s c
  if t.contains id then .ok (c, ⟨t.table.insert id c⟩)
  else .error (.notFound (.trustedInvoker id))

/-- The context of an invoker without the credentials that were not asked for. -/
def get (t : TrustedInvokers) (id : InvokerId) (authentication authorization : Bool) :
    Outcome SecurityContext :=
  match t.table.get? id with
  | some c => .ok (c.redacted authentication authorization)
  | none => .error (.notFound (.trustedInvoker id))

/-- Removes the entries that a bulk revocation covers, and the context if none is left. Tells
how many entries went. -/
def revoke (t : TrustedInvokers) (id : InvokerId) (scope : RevocationScope) :
    Nat × TrustedInvokers :=
  match t.table.get? id with
  | none => (0, t)
  | some c =>
    let left := c.revoke scope
    (c.countRevoked scope,
      if left.entries.isEmpty then ⟨t.table.erase id⟩ else ⟨t.table.insert id left⟩)

/-- Removes the context of an invoker and returns it. -/
def remove (t : TrustedInvokers) (id : InvokerId) : Option SecurityContext × TrustedInvokers :=
  (t.table.get? id, ⟨t.table.erase id⟩)

end TrustedInvokers

end ApiExposure
