import ApiExposure.Event
import ApiExposure.Registry.Table

/-!
# The registry of subscriptions

Each subscription is named by its subscriber with a running number behind it.
Only its own subscriber can end it. For every event each matching subscription
is owed one notification.
-/

namespace ApiExposure

/-- A subscription with its subscriber. -/
structure SubscriptionEntry where
  /-- Who subscribed. -/
  subscriber : String
  /-- What for. -/
  subscription : EventSubscription
  deriving DecidableEq, Repr, Inhabited

/-- Subscriptions in force. -/
structure Subscriptions where
  /-- Subscriptions in the order of their creation. -/
  table : Table SubscriptionId SubscriptionEntry
  /-- Running number of the last subscription, in 64 bits. -/
  sequence : UInt64

namespace Subscriptions

/-- The registry without subscriptions. -/
def empty : Subscriptions := ⟨.empty, 0⟩

instance : Inhabited Subscriptions := ⟨empty⟩

/-- Enters a subscription under the next running number. -/
def subscribe (r : Subscriptions) (subscriber : String) (s : EventSubscription) :
    Outcome (SubscriptionId × Subscriptions) := do
  require (!Text.isBlank subscriber) .blankSubscriber
  s.validate
  let sequence := r.sequence + 1
  let id := SubscriptionId.forSubscriber subscriber sequence.toNat
  .ok (id, ⟨r.table.insert id ⟨subscriber, s⟩, sequence⟩)

/-- Ends a subscription of its own subscriber. -/
def unsubscribe (r : Subscriptions) (subscriber : String) (id : SubscriptionId) :
    Outcome Subscriptions :=
  if (r.table.get? id).any (fun e => e.subscriber == subscriber) then
    .ok { r with table := r.table.erase id }
  else .error (.notFound (.subscription id subscriber))

/-- The subscription with an identifier. -/
def get? (r : Subscriptions) (id : SubscriptionId) : Option EventSubscription :=
  (r.table.get? id).map (·.subscription)

/-- Number of subscriptions in force. -/
def size (r : Subscriptions) : Nat := r.table.size

/-- Notifications owed for an event, with their destinations, in the order in which the
subscriptions were created. -/
def notificationsFor (r : Subscriptions) (e : Event) : List (String × Notification) :=
  (r.table.entries.filter (fun s => s.2.subscription.matchesEvent e)).map
    (fun s => (s.2.subscription.destination, .ofEvent s.1 e))

end Subscriptions

end ApiExposure
