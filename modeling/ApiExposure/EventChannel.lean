import ApiExposure.Event

/-!
# The event channel

Events wait in a channel of limited room until the listener takes them. When
the room is used up the oldest event is dropped, and the listener learns how
many it missed.
-/

namespace ApiExposure

/-- Events on their way to one listener. -/
structure EventChannel where
  /-- How many events can wait. -/
  room : Nat
  /-- Events that wait, oldest first. -/
  waiting : List Event
  /-- How many events were dropped since the listener last looked. -/
  lost : Nat
  deriving DecidableEq, Repr, Inhabited

namespace EventChannel

/-- The room for a wanted capacity: at least one, and a power of two. -/
def roomFor (capacity : Nat) : Nat := (max capacity 1).nextPowerOfTwo

/-- A channel without events. -/
def withCapacity (capacity : Nat) : EventChannel := ⟨roomFor capacity, [], 0⟩

/-- Puts an event into the channel. -/
def send (c : EventChannel) (e : Event) : EventChannel :=
  if c.waiting.length < c.room then { c with waiting := c.waiting ++ [e] }
  else { c with waiting := c.waiting.drop 1 ++ [e], lost := c.lost + 1 }

/-- Takes all events out: how many were dropped, those that waited, and the channel left. -/
def receive (c : EventChannel) : Nat × List Event × EventChannel :=
  (c.lost, c.waiting, { c with waiting := [], lost := 0 })

end EventChannel

end ApiExposure
