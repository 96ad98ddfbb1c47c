import StateAtlas.Json.Reader
import StateAtlas.Overview.Frame
import StateAtlas.Sync.Event
/-!
A connection to the overview in another process, and what goes through it.

Messages wait in a queue to be sent as frames of JSON, and the frames that the overview sends wait in
the stream to be read.  A relay serves the two sides in turns, in whatever order they are ready, one
message or one frame at a time.  A frame that is no message is reported, and the relay goes on.  It
ends when the queue is closed and empty, when the overview has hung up and all its frames are read,
or when the stream reports an error, as it does for a frame that is too long.
-/

namespace StateAtlas

/-- What happens to a link. -/
inductive LinkEvent
  | connected
  | received (message : RegistryMessage)
  | failed (reason : String)
  | disconnected
deriving DecidableEq, Repr

namespace RegistryMessage

/-- A message as the body of a frame. -/
def frameBody (m : RegistryMessage) : List UInt8 := m.toJson.compact.toUTF8.toList

/-- The message that is the body of a frame. -/
def ofFrame? (frame : List UInt8) : Option RegistryMessage := (Json.ofBytes? frame).bind ofJson?

end RegistryMessage

namespace LinkEvent

/-- A frame is no message. -/
def undecodable : LinkEvent := .failed "decode"

/-- The connection cannot be made or is broken. -/
def broken : LinkEvent := .failed "link"

/-- What happens when a frame is read. -/
def ofFrame (frame : List UInt8) : LinkEvent :=
  match RegistryMessage.ofFrame? frame with
  | some m => .received m
  | none => undecodable

def toJson : LinkEvent → Json
  | .connected => .text "connected"
  | .received m => .record [("received", m.toJson)]
  | .failed reason => .record [("error", .text reason)]
  | .disconnected => .text "disconnected"

instance : ToJson LinkEvent := ⟨LinkEvent.toJson⟩

end LinkEvent

/-- What comes in the stream of a relay behind the frames that have come. -/
inductive Inflow
  /-- More frames may come. -/
  | flowing
  /-- The overview has hung up. -/
  | ended
  /-- The stream reports an error. -/
  | failed
deriving DecidableEq, Repr

/-- What comes once the overview has hung up. -/
def Inflow.hungUp : Inflow → Inflow
  | .flowing => .ended
  | f => f

/-- Why a relay is over. -/
inductive RelayEnd
  /-- All was sent and nothing more can be queued. -/
  | queueClosed
  /-- All was read and the overview has hung up. -/
  | hungUp
  /-- The stream reported an error. -/
  | broken
deriving DecidableEq, Repr

/-- What is reported when a relay is over. -/
def RelayEnd.events : RelayEnd → List LinkEvent
  | .queueClosed | .hungUp => [.disconnected]
  | .broken => [.broken, .disconnected]

/-- The sides that a relay serves in turns. -/
inductive RelaySide
  | queue
  | stream
deriving DecidableEq, Repr

/-- A connection, with what waits to go through it and what has. -/
structure Relay where
  /-- The messages to be sent, the next one first. -/
  queue : List RegistryMessage := []
  /-- Whether nothing more can be queued. -/
  isClosed : Bool := false
  /-- The frames that have come and are not read yet, the next one first. -/
  inbound : List (List UInt8) := []
  inflow : Inflow := .flowing
  ending : Option RelayEnd := none
  /-- The bodies of the frames that were sent. -/
  sent : List (List UInt8) := []
  /-- What was reported. -/
  events : List LinkEvent := []
deriving DecidableEq, Repr

/-- What can happen to a relay. -/
inductive RelayAction
  | post (m : RegistryMessage)
  /-- Nothing more will be queued. -/
  | close
  | arrive (frame : List UInt8)
  | hangUp
  /-- From now on the stream reports an error. -/
  | fail
  | serve (side : RelaySide)
deriving DecidableEq, Repr

namespace Relay

/-- A relay whose connection was just made. -/
def start : Relay := { events := [.connected] }

/-- The relay when it is over. -/
def finish (r : Relay) (e : RelayEnd) : Relay :=
  { r with ending := some e, events := r.events ++ e.events }

/-- Sends the next message; the stream refuses a frame that is too long. -/
def serveQueue (r : Relay) : Relay :=
  match r.queue with
  | m :: queue =>
    if r.inflow = .failed || Frame.maxLength < m.frameBody.length then r.finish .broken
    else { r with queue, sent := r.sent ++ [m.frameBody] }
  | [] => if r.isClosed then r.finish .queueClosed else r

/-- Reads the next frame. -/
def serveStream (r : Relay) : Relay :=
  match r.inbound with
  | frame :: inbound => { r with inbound, events := r.events ++ [.ofFrame frame] }
  | [] =>
    match r.inflow with
    | .flowing => r
    | .ended => r.finish .hungUp
    | .failed => r.finish .broken

/-- One turn of one side; a side on which nothing has happened is left to wait. -/
def serve (r : Relay) (side : RelaySide) : Relay :=
  if r.ending.isSome then r
  else match side with
    | .queue => r.serveQueue
    | .stream => r.serveStream

/-- The relay after something has happened.  What comes when nothing more can come is lost. -/
def act (r : Relay) : RelayAction → Relay
  | .post m => { r with queue := r.queue ++ if r.isClosed then [] else [m] }
  | .close => { r with isClosed := true }
  | .arrive frame =>
    { r with inbound := r.inbound ++ if r.inflow = .flowing then [frame] else [] }
  | .hangUp => { r with inflow := r.inflow.hungUp }
  | .fail => { r with inflow := .failed }
  | .serve side => r.serve side

/-- The relay after one thing after the other has happened. -/
def actAll (r : Relay) (actions : List RelayAction) : Relay := actions.foldl act r

end Relay

end StateAtlas
