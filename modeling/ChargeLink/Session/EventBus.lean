/-!
# Event buses

A bus hands every event to everyone who had subscribed before it was published.
It keeps a bounded number of events, a power of two, and a subscriber who lags
behind goes on with the oldest one kept. Once the bus is gone, subscribers get
the events still kept and then learn of the end.
-/

namespace ChargeLink

/-- The number of events kept if nothing else is asked for. -/
def defaultBusCapacity : Nat := 256

/-- The least power of two that reaches `n`, found from `p` on by doubling. -/
def powerAtLeast : (fuel p n : Nat) → Nat
  | 0, p, _ => p
  | fuel + 1, p, n => if n ≤ p then p else powerAtLeast fuel (2 * p) n

/-- A bus of events: those kept, how many were dropped before them, and each subscriber with the
number of events before the next one for them. -/
structure EventBus (α : Type) where
  capacity : Nat
  dropped : Nat
  kept : List α
  subscribers : List (String × Nat)
  running : Bool

/-- What a subscriber gets when they ask for the next event. -/
inductive Received (α : Type) where
  | event (e : α)
  | waiting
  | closed
  | unknown

namespace EventBus

variable {α : Type}

/-- A bus for at least so many events; none can be made for zero. -/
def create? (capacity : Nat) : Option (EventBus α) :=
  if capacity = 0 then none else some ⟨powerAtLeast capacity 1 capacity, 0, [], [], true⟩

/-- How many subscribers there are, while the bus is there. -/
def subscriberCount? (b : EventBus α) : Option Nat :=
  if b.running then some b.subscribers.length else none

/-- Adds a subscriber for the events from now on. -/
def subscribe (b : EventBus α) (name : String) : EventBus α :=
  if b.running then
    { b with subscribers :=
        (b.subscribers.filter fun s => s.1 != name) ++ [(name, b.dropped + b.kept.length)] }
  else b

/-- Removes a subscriber, and tells whether there was one. -/
def unsubscribe (b : EventBus α) (name : String) : Bool × EventBus α :=
  (b.subscribers.any fun s => s.1 == name,
    { b with subscribers := b.subscribers.filter fun s => s.1 != name })

/-- Publishes an event, and tells to how many; an event for nobody is not kept. -/
def publish (b : EventBus α) (e : α) : Option Nat × EventBus α :=
  if !b.running then (none, b)
  else if b.subscribers.isEmpty then (some 0, b)
  else
    let kept := b.kept ++ [e]
    let excess := kept.length - b.capacity
    (some b.subscribers.length, { b with kept := kept.drop excess, dropped := b.dropped + excess })

/-- The next event for a subscriber. -/
def receive (b : EventBus α) (name : String) : Received α × EventBus α :=
  match b.subscribers.find? fun s => s.1 == name with
  | none => (.unknown, b)
  | some (_, position) =>
    let position := max position b.dropped
    match b.kept[position - b.dropped]? with
    | some e =>
      let moved := b.subscribers.map fun s => if s.1 == name then (name, position + 1) else s
      (.event e, { b with subscribers := moved })
    | none => (if b.running then .waiting else .closed, b)

/-- Takes the bus away. -/
def stop (b : EventBus α) : EventBus α :=
  { b with running := false }

end EventBus

end ChargeLink
