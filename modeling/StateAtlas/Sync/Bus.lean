import StateAtlas.Sync.Event
/-!
Publishing events to subscribers.

A subscriber sees the events on its topics that are published while it is registered, each once
and in order.  A subscription has two ends: the bus knows it until it is unsubscribed, cleared or
found dropped, and its owner holds it until dropping it.  What was delivered before the bus forgot
a subscription can still be drained.
-/

namespace StateAtlas

/-- One subscription, as seen from both of its ends. -/
structure Subscription where
  id : Nat
  /-- The topics asked for; none of them means all. -/
  topics : List Topic
  /-- Whether the bus knows the subscription. -/
  registered : Bool := true
  /-- Whether the owner still holds the subscription. -/
  held : Bool := true
  /-- What was delivered and not drained yet, oldest first. -/
  inbox : List Event := []

/-- All subscriptions, in the order in which they were made. -/
structure Bus where
  /-- The number of the next subscription. -/
  next : Nat := 0
  subscriptions : List Subscription := []

instance : Inhabited Bus := ⟨{}⟩

namespace Subscription

/-- Whether events on a topic are asked for. -/
def wants (s : Subscription) (t : Topic) : Bool := s.topics.isEmpty || s.topics.contains t

/-- Whether publishing on a topic reaches the owner. -/
def receives (s : Subscription) (t : Topic) : Bool := s.registered && s.wants t && s.held

/-- The subscription after an event is published: delivered if it is wanted, forgotten by the bus if
nobody holds it any more. -/
def deliver (s : Subscription) (e : Event) : Subscription :=
  if s.registered && s.wants e.topic then
    if s.held then { s with inbox := s.inbox ++ [e] } else { s with registered := false }
  else s

end Subscription

namespace Bus

/-- Registers a subscriber; no topics mean every topic. -/
def subscribe (b : Bus) (topics : List Topic) : Bus × Nat :=
  ({ next := b.next + 1, subscriptions := b.subscriptions ++ [{ id := b.next, topics }] }, b.next)

/-- Changes the subscription of a number. -/
def modify (b : Bus) (id : Nat) (f : Subscription → Subscription) : Bus :=
  { b with subscriptions := b.subscriptions.map fun s => if s.id = id then f s else s }

/-- Makes the bus forget a subscription. -/
def unsubscribe (b : Bus) (id : Nat) : Bus := b.modify id fun s => { s with registered := false }

/-- Makes the bus forget every subscription. -/
def clear (b : Bus) : Bus :=
  { b with subscriptions := b.subscriptions.map fun s => { s with registered := false } }

/-- Lets go of a subscription; the bus finds out when it next has something for it. -/
def drop (b : Bus) (id : Nat) : Bus := b.modify id fun s => { s with held := false, inbox := [] }

/-- Everything delivered to a subscription so far. -/
def drain (b : Bus) (id : Nat) : Bus × List Event :=
  (b.modify id fun s => { s with inbox := [] },
    (b.subscriptions.filter fun s => s.id = id).flatMap Subscription.inbox)

/-- Delivers an event to everyone who wants it. -/
def publish (b : Bus) (e : Event) : Bus :=
  { b with subscriptions := b.subscriptions.map fun s => s.deliver e }

/-- How many subscriptions an event reaches. -/
def reach (b : Bus) (e : Event) : Nat := b.subscriptions.countP fun s => s.receives e.topic

/-- How many subscriptions the bus knows. -/
def count (b : Bus) : Nat := b.subscriptions.countP Subscription.registered

end Bus

end StateAtlas
