import ApiExposure.Registry.Ledger
import ApiExposure.Registry.Subscriptions
import ApiExposure.Registry.TrustedInvokers

/-!
# The state of the core

All registries together. The operations of the core read and write this state
and nothing else.
-/

namespace ApiExposure

/-- The registries. -/
structure Core where
  /-- Provider domains and functions. -/
  providers : Providers
  /-- Published APIs. -/
  store : Publications
  /-- Onboarded invokers and their grants. -/
  invokers : Invokers
  /-- Revocations. -/
  ledger : Ledger
  /-- Security contexts. -/
  trusted : TrustedInvokers
  /-- Subscriptions to events. -/
  subscriptions : Subscriptions

namespace Core

/-- The core before its first operation. -/
def fresh : Core := ⟨.empty, .empty, .empty, .empty, .empty, .empty⟩

instance : Inhabited Core := ⟨fresh⟩

end Core

end ApiExposure
