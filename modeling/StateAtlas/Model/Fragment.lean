import StateAtlas.Model.Node
/-!
Edges, and fragments: the nodes and edges that the backend answers with and that documents hold.
-/

namespace StateAtlas

/-- The name of the edge from `source` to `target` with a label, whatever name it was sent under. -/
def EdgeId.derive (source : NodeId) (label : String) (target : NodeId) : EdgeId :=
  ⟨source.text ++ "-" ++ label ++ "->" ++ target.text⟩

/-- A labelled edge between two nodes. -/
structure Edge where
  id : EdgeId := ⟨""⟩
  source : NodeId
  target : NodeId
  label : String := ""
deriving DecidableEq, Repr, Inhabited

namespace Edge

/-- The name that follows from the edge's ends and label. -/
def key (e : Edge) : EdgeId := .derive e.source e.label e.target

/-- The edge under its derived name. -/
def normalized (e : Edge) : Edge := { e with id := e.key }

@[simp] theorem key_normalized (e : Edge) : e.normalized.key = e.key := rfl

@[simp] theorem id_normalized (e : Edge) : e.normalized.id = e.key := rfl

/-- The edge between two nodes with a label, under its derived name. -/
def between (source : NodeId) (label : String) (target : NodeId) : Edge :=
  { id := .derive source label target, source, target, label }

def toJson (e : Edge) : Json :=
  .record [("id", e.id.toJson), ("source", e.source.toJson), ("target", e.target.toJson),
    ("label", .text e.label)]

instance : ToJson Edge := ⟨Edge.toJson⟩

def ofJson? (j : Json) : Option Edge := do
  let f ← j.fields? ["id", "source", "target", "label"]
  let id ← Json.orElse ⟨""⟩ EdgeId.ofJson? (f "id")
  let source ← Json.required NodeId.ofJson? (f "source")
  let target ← Json.required NodeId.ofJson? (f "target")
  let label ← Json.orElse "" Json.text? (f "label")
  some { id, source, target, label }

end Edge

/-- Nodes and edges that belong together. -/
structure Fragment where
  nodes : List Node := []
  edges : List Edge := []
deriving Inhabited

namespace Fragment

/-- Whether there is neither node nor edge. -/
def isEmpty (g : Fragment) : Bool := g.nodes.isEmpty && g.edges.isEmpty

/-- The names of the states. -/
def stateIds (g : Fragment) : List NodeId := (g.nodes.filter Node.isState).map Node.id

def toJson (g : Fragment) : Json :=
  .record [("nodes", .list (g.nodes.map Node.toJson)), ("edges", .list (g.edges.map Edge.toJson))]

instance : ToJson Fragment := ⟨Fragment.toJson⟩

def ofJson? (j : Json) : Option Fragment := do
  let f ← j.fields? ["nodes", "edges"]
  let nodes ← Json.orElse [] (Json.list? Node.ofJson?) (f "nodes")
  let edges ← Json.orElse [] (Json.list? Edge.ofJson?) (f "edges")
  some { nodes, edges }

end Fragment

end StateAtlas
