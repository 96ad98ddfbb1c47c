import StateAtlas.Brush.Basic
/-!
What is announced to the rest of a session, and the part of it that an overview in another process
is told.
-/

namespace StateAtlas

/-- News of the pane table for the overview. -/
inductive RegistryMessage
  | paneAdded (id : PaneId) (color : String) (nodes : List NodeId) (spawners : List PaneId)
      (spawnerNodes : List NodeId)
  | paneRemoved (id : PaneId)
  | activePane (id : PaneId)
  | duplicatePaneIds (ids : List PaneId)
  | resetPaneNodeMarkings
deriving DecidableEq, Repr

namespace RegistryMessage

/-- The message's type in data. -/
def typeName : RegistryMessage → String
  | .paneAdded .. => "pane-added"
  | .paneRemoved _ => "pane-removed"
  | .activePane _ => "active-pane"
  | .duplicatePaneIds _ => "duplicate-pane-ids"
  | .resetPaneNodeMarkings => "reset-pane-node-markings"

/-- The message's parts; empty lists of spawners are left out. -/
def data? : RegistryMessage → Option Json
  | .paneAdded id color nodes spawners spawnerNodes =>
    some <| .record <|
      [("id", id.toJson), ("color", .text color), ("nodeIds", NodeId.listToJson nodes)] ++
      (if spawners.isEmpty then [] else [("spawnerIds", PaneId.listToJson spawners)]) ++
      (if spawnerNodes.isEmpty then [] else [("spawnerNodeIds", NodeId.listToJson spawnerNodes)])
  | .paneRemoved id | .activePane id => some (.record [("id", id.toJson)])
  | .duplicatePaneIds ids => some (.record [("ids", PaneId.listToJson ids)])
  | .resetPaneNodeMarkings => none

def toJson (m : RegistryMessage) : Json :=
  .record (("type", .text m.typeName) :: m.data?.toList.map fun j => ("data", j))

instance : ToJson RegistryMessage := ⟨RegistryMessage.toJson⟩

/-- The message of a type with the given parts. -/
def ofData? (type : String) (data : Option Json) : Option RegistryMessage :=
  match type with
  | "pane-added" => do
    let f ← (← data).fields? ["id", "color", "nodeIds", "spawnerIds", "spawnerNodeIds"]
    let id ← Json.required PaneId.ofJson? (f "id")
    let color ← Json.required Json.text? (f "color")
    let nodes ← Json.required (Json.list? NodeId.ofJson?) (f "nodeIds")
    let spawners ← Json.orElse [] (Json.list? PaneId.ofJson?) (f "spawnerIds")
    let spawnerNodes ← Json.orElse [] (Json.list? NodeId.ofJson?) (f "spawnerNodeIds")
    some (.paneAdded id color nodes spawners spawnerNodes)
  | "pane-removed" => do
    let f ← (← data).fields? ["id"]
    (Json.required PaneId.ofJson? (f "id")).map .paneRemoved
  | "active-pane" => do
    let f ← (← data).fields? ["id"]
    (Json.required PaneId.ofJson? (f "id")).map .activePane
  | "duplicate-pane-ids" => do
    let f ← (← data).fields? ["ids"]
    (Json.required (Json.list? PaneId.ofJson?) (f "ids")).map .duplicatePaneIds
  | "reset-pane-node-markings" =>
    match data with
    | none | some .null => some .resetPaneNodeMarkings
    | _ => none
  | _ => none

/-- Whether the parts come before the type. -/
def dataFirst (fields : List (String × Json)) : Bool :=
  (fields.find? fun f => f.1 = "type" || f.1 = "data").any fun f => f.1 = "data"

/-- A message is a record of its type and its parts, or a list of the two.  Parts that come before
their type have to be readable down to the last of them. -/
def ofJson? : Json → Option RegistryMessage
  | .record fields => do
    let f ← (Json.record fields).fields? ["type", "data"]
    let type ← Json.required Json.text? (f "type")
    if dataFirst fields && !(f "data").all Json.isReadable then none
    else ofData? type (f "data")
  | .list [.text type, data] => ofData? type (some data)
  | _ => none

end RegistryMessage

/-- What subscribers ask for. -/
inductive Topic
  | registry
  | marks
  | selection
  | layout
  | recurrence
  | warnings
deriving DecidableEq, Repr

namespace Topic

/-- The topic in one word. -/
def name : Topic → String
  | .registry => "registry"
  | .marks => "marks"
  | .selection => "selection"
  | .layout => "layout"
  | .recurrence => "recurrence"
  | .warnings => "warnings"

/-- The topic of that name. -/
def ofName? : String → Option Topic
  | "registry" => some .registry
  | "marks" => some .marks
  | "selection" => some .selection
  | "layout" => some .layout
  | "recurrence" => some .recurrence
  | "warnings" => some .warnings
  | _ => none

theorem ofName?_name (t : Topic) : ofName? t.name = some t := by
  cases t <;> rfl

end Topic

/-- What is announced. -/
inductive Event
  | registry (message : RegistryMessage)
  | marksChanged (added removed : List NodeId)
  /-- Panes derive their marks anew. -/
  | propagate
  | linkedSelection (linked : LinkedSelection Float)
  | relayout (pane : PaneId)
  | recurringUpdated (ids : List NodeId) (panes : List PaneId)
  | warning (pane : Option PaneId) (message : String)

namespace Event

/-- The topic that an event belongs to. -/
def topic : Event → Topic
  | .registry _ => .registry
  | .marksChanged .. | .propagate => .marks
  | .linkedSelection _ => .selection
  | .relayout _ => .layout
  | .recurringUpdated .. => .recurrence
  | .warning .. => .warnings

/-- The event's type in data. -/
def typeName : Event → String
  | .registry _ => "registry"
  | .marksChanged .. => "marks-changed"
  | .propagate => "propagate"
  | .linkedSelection _ => "linked-selection"
  | .relayout _ => "relayout"
  | .recurringUpdated .. => "recurring-updated"
  | .warning .. => "warning"

/-- The event's parts. -/
def data? : Event → Option Json
  | .registry message => some message.toJson
  | .marksChanged added removed =>
    some (.record [("added", NodeId.listToJson added), ("removed", NodeId.listToJson removed)])
  | .propagate => none
  | .linkedSelection linked => some linked.toJson
  | .relayout pane => some (.record [("pane", pane.toJson)])
  | .recurringUpdated ids panes =>
    some (.record [("ids", NodeId.listToJson ids), ("panes", PaneId.listToJson panes)])
  | .warning pane message =>
    some (.record [("pane", .optional PaneId.toJson pane), ("message", .text message)])

def toJson (e : Event) : Json :=
  .record (("type", .text e.typeName) :: e.data?.toList.map fun j => ("data", j))

instance : ToJson Event := ⟨Event.toJson⟩

end Event

end StateAtlas
