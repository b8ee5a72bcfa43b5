import ApiExposure.Invoker
import ApiExposure.Registry.Table

/-!
# Clients of the in-process identity provider

The identity provider holds one client for each invoker that it was asked to
register. A client is issued once; removing a client that is not there does
nothing.
-/

namespace ApiExposure

/-- Clients with their secrets. -/
structure Clients where
  /-- Credentials in the order of issue. -/
  table : Table InvokerId ClientCredentials

namespace Clients

/-- The identity provider before its first client. -/
def empty : Clients := ⟨.empty⟩

instance : Inhabited Clients := ⟨empty⟩

/-- The outage of a client that is asked for twice. -/
def alreadyExists (id : InvokerId) : Outage :=
  ⟨.identityProvider, "client " ++ id.text ++ " already exists"⟩

/-- Issues a client with a fresh secret. -/
def register (c : Clients) (id : InvokerId) (secret : String) :
    Except Outage (ClientCredentials × Clients) :=
  if c.table.contains id then .error (alreadyExists id)
  else
    let credentials : ClientCredentials := ⟨id.text, secret⟩
    .ok (credentials, ⟨c.table.insert id credentials⟩)

/-- Removes a client. -/
def remove (c : Clients) (id : InvokerId) : Clients := ⟨c.table.erase id⟩

/-- Whether a secret is the one of the client. -/
def verify (c : Clients) (id : InvokerId) (secret : String) : Bool :=
  (c.table.get? id).any (fun credentials => credentials.clientSecret == secret)

/-- Number of clients. -/
def size (c : Clients) : Nat := c.table.size

end Clients

end ApiExposure
