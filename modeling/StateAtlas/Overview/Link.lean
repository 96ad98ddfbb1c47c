import StateAtlas.Overview.Relay
import StateAtlas.Sync.Bus
/-!
The link to the overview in another process.

A link subscribes to the registry topic and relays every message on it.  What the overview sends back
comes in bytes, from which the complete frames are taken; a stream whose frames cannot be told apart
is broken.  A link whose connection is gone keeps its subscription until it is next asked to forward
something.
-/

namespace StateAtlas

/-- A link to the overview. -/
structure OverviewLink where
  /-- The number of the link's subscription. -/
  subscription : Nat
  relay : Relay
  /-- What has come and is no complete frame yet. -/
  received : List UInt8 := []
deriving DecidableEq, Repr

/-- The message that an event brings to the overview. -/
def Event.message? : Event → Option RegistryMessage
  | .registry m => some m
  | _ => none

namespace OverviewLink

/-- Whether the connection is there. -/
def isConnected (l : OverviewLink) : Bool := l.relay.ending.isNone

/-- The link after things have happened to its relay, with the bodies of the frames that were sent and
with what was reported. -/
def act (l : OverviewLink) (actions : List RelayAction) :
    OverviewLink × List (List UInt8) × List LinkEvent :=
  let r := l.relay.actAll actions
  ({ l with relay := { r with sent := [], events := [] } }, r.sent, r.events)

/-- A link on a bus, to an overview that can or cannot be reached. -/
def start (bus : Bus) (reachable : Bool) : Bus × OverviewLink × List LinkEvent :=
  let (bus, subscription) := bus.subscribe [.registry]
  let relay := if reachable then Relay.start else Relay.finish {} .broken
  let (l, _, events) := act { subscription, relay } []
  (bus, l, events)

/-- Forwards what was published, as long as the connection is there. -/
def transmit (l : OverviewLink) (bus : Bus) :
    Bus × OverviewLink × List (List UInt8) × List LinkEvent :=
  let (bus, events) := bus.drain l.subscription
  let messages := events.filterMap Event.message?
  if l.isConnected then
    (bus, l.act (messages.map .post ++ List.replicate messages.length (.serve .queue)))
  else if messages.isEmpty then (bus, l, [], [])
  else (bus.drop l.subscription, l, [], [])

/-- Forwards what was published; tells the bodies of the frames. -/
def forward (l : OverviewLink) (bus : Bus) : Bus × List (List UInt8) :=
  let (bus, _, frames, _) := l.transmit bus
  (bus, frames)

/-- The link without its connection. -/
def disconnect (l : OverviewLink) : OverviewLink × List LinkEvent :=
  let (l, _, events) := { l with received := [] }.act [.close, .serve .queue]
  (l, events)

/-- Takes in bytes from the overview. -/
def receive (l : OverviewLink) (bs : List UInt8) : OverviewLink × List LinkEvent :=
  if l.isConnected then
    let s := Frame.split (l.received ++ bs)
    let arrivals := s.frames.map .arrive ++ if s.isBroken then [.fail] else []
    let turns := List.replicate (s.frames.length + 1) (.serve .stream)
    let (l, _, events) := { l with received := s.rest }.act (arrivals ++ turns)
    (l, events)
  else (l, [])

/-- The overview hangs up. -/
def hangUp (l : OverviewLink) : OverviewLink × List LinkEvent :=
  let ended := if Frame.canEnd l.received then RelayAction.hangUp else .fail
  let (l, _, events) := { l with received := [] }.act [ended, .serve .stream]
  (l, events)

/-- Closes the link from this end, once what was published before is forwarded. -/
def close (l : OverviewLink) (bus : Bus) : Bus × OverviewLink × List LinkEvent :=
  let (bus, l, _, events) := l.transmit bus
  let (l, ended) := l.disconnect
  (bus.unsubscribe l.subscription, l, events ++ ended)

end OverviewLink

end StateAtlas
