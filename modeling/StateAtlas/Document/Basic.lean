import StateAtlas.Json.Reader
import StateAtlas.Pane.Basic
/-!
Pane documents: one pane's graph together with the settings that a copy takes along.

A document is written as JSON with its fields in the order of the structure.  It carries the version
of the format, and only documents of the supported version are read.
-/

namespace StateAtlas

/-- Why documents cannot be read or written. -/
inductive DocumentError
  /-- The file cannot be read or written, or its bytes are damaged. -/
  | file
  /-- The text is not that of a document. -/
  | malformed
  /-- The archive is not one. -/
  | archive
  | version (found : Nat)
deriving DecidableEq, Repr

/-- A stored pane. -/
structure PaneDocument where
  version : Nat
  pane : PaneId
  spawners : List PaneId := []
  spawnerNodes : List NodeId := []
  nodes : List Node
  edges : List Edge
  view : ViewState := {}
  brush : BrushState Float := {}

namespace PaneDocument

/-- The supported version of the format. -/
def supportedVersion : Nat := 1

end PaneDocument

/-- What a person is told; of files, text and archives only what failed. -/
def DocumentError.message : DocumentError → String
  | .file => "IO error"
  | .malformed => "JSON error"
  | .archive => "archive error"
  | .version found =>
    s!"unsupported document version {found} (expected {PaneDocument.supportedVersion})"

/-- The error as data; of files, text and archives only what failed. -/
def DocumentError.toJson : DocumentError → Json
  | .file => .failure "Io"
  | .malformed => .failure "Json"
  | .archive => .failure "Archive"
  | .version found => .failure "Version" (some (DocumentError.version found).message)

instance : ToJson DocumentError := ⟨DocumentError.toJson⟩

namespace PaneDocument

/-- The nodes that a document of a pane keeps: without a selection all of them, with one those that
are selected or not on display. -/
def keptNodes (p : Pane) : Option (List NodeId) → List Node
  | none => p.store.nodes
  | some chosen => p.store.nodes.filter fun n => !p.view.mode.admits n.kind || chosen.contains n.id

/-- The edges between nodes. -/
def edgesBetween (nodes : List Node) (edges : List Edge) : List Edge :=
  let kept (id : NodeId) : Bool := nodes.any fun n => n.id = id
  edges.filter fun e => kept e.source && kept e.target

/-- The document of a pane, or of the part of it that a selection leaves. -/
def ofPane (p : Pane) (selection : Option (List NodeId)) : PaneDocument :=
  let nodes := keptNodes p selection
  { version := supportedVersion
    pane := p.id
    spawners := p.spawners
    spawnerNodes := p.spawnerNodes
    nodes
    edges := edgesBetween nodes p.store.edges
    view := p.view
    brush := p.brush.state }

/-- The nodes and edges of the document. -/
def fragment (d : PaneDocument) : Fragment := ⟨d.nodes, d.edges⟩

/-! ## Attributes that are referred to -/

/-- Whether a node of the document carries an attribute. -/
def carries (d : PaneDocument) (category name : String) : Bool :=
  d.nodes.any fun n => (n.attributes.find? category name).isSome

/-- Whether a node of the document carries an attribute of that name in any category. -/
def carriesName (d : PaneDocument) (name : String) : Bool :=
  d.nodes.any fun n => n.attributes.values.any fun attrs => attrs.contains name

/-- Whether a key means an attribute that a node carries, by its category and name or by its bare
name. -/
def carriesKey (d : PaneDocument) (key : String) : Bool :=
  d.carriesName key ||
    match key.toList.span (· ≠ '/') with
    | (category, _ :: name) => d.carries (String.ofList category) (String.ofList name)
    | (_, []) => false

/-- The constraints, then the enabled details, that refer to attributes no node carries. -/
def mismatches (d : PaneDocument) : List String :=
  d.brush.constraints.keys.filter (fun key => !d.carriesKey key) ++
    (d.view.details.enabled.filter fun (category, name) => !d.carries category name).map
      fun (category, name) => dimensionKey category name

/-! ## Text -/

def toJson (d : PaneDocument) : Json :=
  .record [("version", .count d.version), ("pane", d.pane.toJson),
    ("spawners", PaneId.listToJson d.spawners), ("spawnerNodes", NodeId.listToJson d.spawnerNodes),
    ("nodes", .list (d.nodes.map Node.toJson)), ("edges", .list (d.edges.map Edge.toJson)),
    ("view", d.view.toJson), ("brush", d.brush.toJson)]

/-- The document that a value is, of whatever version. -/
def ofJson? (j : Json) : Option PaneDocument := do
  let f ← j.fields?
    ["version", "pane", "spawners", "spawnerNodes", "nodes", "edges", "view", "brush"]
  let version ← Json.required (Json.count? 32) (f "version")
  let pane ← Json.required PaneId.ofJson? (f "pane")
  let spawners ← Json.orElse [] (Json.list? PaneId.ofJson?) (f "spawners")
  let spawnerNodes ← Json.orElse [] (Json.list? NodeId.ofJson?) (f "spawnerNodes")
  let nodes ← Json.required (Json.list? Node.ofJson?) (f "nodes")
  let edges ← Json.required (Json.list? Edge.ofJson?) (f "edges")
  let view ← Json.orElse {} ViewState.ofJson? (f "view")
  let brush ← Json.orElse {} BrushState.ofJson? (f "brush")
  some { version, pane, spawners, spawnerNodes, nodes, edges, view, brush }

/-- The document as text over several lines. -/
def text (d : PaneDocument) : String := d.toJson.pretty

/-- The document that bytes are the text of. -/
def read (bs : List UInt8) : Except DocumentError PaneDocument :=
  match (Json.ofBytes? bs).bind ofJson? with
  | none => .error .malformed
  | some d => if d.version = supportedVersion then .ok d else .error (.version d.version)

/-- What a report on a document shows. -/
def report (d : PaneDocument) : Json :=
  .record [("pretty", .text d.text), ("mismatches", .texts d.mismatches),
    ("state_ids", NodeId.listToJson d.fragment.stateIds), ("empty", .bool d.fragment.isEmpty)]

end PaneDocument

end StateAtlas
