import StateAtlas.Brush.Interaction
import StateAtlas.Graph.Exploration
import StateAtlas.Pane.Geometry
import StateAtlas.Pane.View
import StateAtlas.Text.Quoted
/-!
One pane: a store with a brush, a view, a selection and a place in the lineage of panes.

A pane is expanding while somebody holds the lease on its expansion.  Leases are numbered, so that
letting go of an old lease does nothing to a pane that has since given out another.  The phase that
a pane shows is worked out when it is looked at: a pane whose lease was let go shows whether it
holds anything.
-/

namespace StateAtlas

/-- Where a pane stands in its exploration. -/
inductive Phase
  /-- Holds nothing. -/
  | collapsed
  | seeded
  | expanding
  | closed
deriving DecidableEq, Repr, Inhabited

namespace Phase

/-- The phase in one word. -/
def name : Phase → String
  | .collapsed => "collapsed"
  | .seeded => "seeded"
  | .expanding => "expanding"
  | .closed => "closed"

/-- The phase as it is written under inspection. -/
def inspect : Phase → String
  | .collapsed => "Collapsed"
  | .seeded => "Seeded"
  | .expanding => "Expanding"
  | .closed => "Closed"

end Phase

/-- The right to expand a pane. -/
structure Lease where
  pane : PaneId
  number : Nat
deriving DecidableEq, Repr, Inhabited

/-- A pane. -/
structure Pane where
  id : PaneId
  color : String
  geometry : Geometry := {}
  store : Store := {}
  /-- The panes that this one was spawned from. -/
  spawners : List PaneId := []
  /-- The panes spawned from this one. -/
  spawned : OrderedSet PaneId := {}
  /-- The nodes that the pane was spawned to explore. -/
  spawnerNodes : List NodeId := []
  /-- The nodes that count for recurrence. -/
  everAdded : OrderedSet NodeId := {}
  view : ViewState := {}
  brush : Brush Float
  history : History := {}
  /-- The nodes shown as marked. -/
  marked : OrderedSet NodeId := {}
  /-- The nodes shown as recurring. -/
  recurring : OrderedSet NodeId := {}
  selection : List NodeId := []
  /-- The phase entered last; `Pane.phase` is the one to show. -/
  entered : Phase := .collapsed
  /-- The number of the lease that is out. -/
  lease : Option Nat := none

namespace Pane

/-! ## Phases -/

/-- The phase of a pane that nobody expands. -/
def restingPhase (p : Pane) : Phase := if p.store.isEmpty then .collapsed else .seeded

/-- The phase that the pane shows. -/
def phase (p : Pane) : Phase :=
  if p.entered = .expanding ∧ p.lease.isNone then p.restingPhase else p.entered

/-- Gives out the lease of a number, unless one is out. -/
def beginExpansion (p : Pane) (number : Nat) : Except ExploreError Pane :=
  match p.phase with
  | .expanding | .closed => .error (.busy p.id)
  | _ => .ok { p with entered := .expanding, lease := some number }

/-- Ends the expansion, if there is one. -/
def endExpansion (p : Pane) : Pane :=
  if p.entered = .expanding then { p with entered := p.restingPhase, lease := none } else p

/-- Takes back the lease of a number, if it is the one that is out. -/
def release (p : Pane) (number : Nat) : Pane :=
  if p.lease = some number then { p with lease := none } else p

/-- Brings the resting phase up to date. -/
def settle (p : Pane) : Pane :=
  if p.phase = .expanding then p else { p with entered := p.restingPhase }

/-- The capacity for nodes on display. -/
def capacity (p : Pane) (ceiling : Nat) : Capacity := ⟨ceiling, p.view.mode⟩

/-! ## Contents -/

/-- Takes note of added nodes for recurrence. -/
def noteAdded (p : Pane) (ids : List NodeId) : Pane :=
  { p with everAdded := p.everAdded.insertMany ids }.settle

/-- Replaces the selection, leaving out repetitions and nodes that the pane does not hold. -/
def setSelection (p : Pane) (ids : List NodeId) : Pane :=
  { p with selection := (ids.filter p.store.hasNode).eraseDups }

/-- Replaces the selection and, if that changes it, records the one before. -/
def select (p : Pane) (ids : List NodeId) : Pane :=
  let q := p.setSelection ids
  if q.selection = p.selection then q else { q with history := q.history.record p.selection }

/-- Goes back to the selection recorded last, as far as its nodes are held. -/
def undo? (p : Pane) : Option Pane :=
  (p.history.undo? p.selection).map fun (history, ids) => { p with history }.setSelection ids

/-- Goes forward to the selection that was left by going back. -/
def redo? (p : Pane) : Option Pane :=
  (p.history.redo? p.selection).map fun (history, ids) => { p with history }.setSelection ids

/-- The pane with its rows and dimensions rebuilt. -/
def project (p : Pane) (schema : Schema) : Pane :=
  { p with brush := p.brush.projectStore p.store p.view.mode p.view.details schema }

/-! ## Inspection -/

/-- A pane's name as it is written under inspection. -/
def inspectId (id : PaneId) : String := "PaneId(" ++ Text.QuoteStyle.value.quote id.text ++ ")"

/-- Names one after the other. -/
def inspectIds (ids : List PaneId) : String := String.intercalate ", " (ids.map inspectId)

/-- The pane in one line. -/
def inspect (p : Pane) : String :=
  s!"Pane \x7b id: {inspectId p.id}, nodes: {p.store.nodes.length}, " ++
  s!"edges: {p.store.edges.length}, spawners: [{inspectIds p.spawners}], " ++
  s!"spawned: \x7b{inspectIds p.spawned.toList}\x7d, state: {p.phase.inspect} \x7d"

/-- What a list of panes shows of the pane. -/
def summary (p : Pane) : Json :=
  .record [("id", p.id.toJson), ("color", .text p.color), ("state", .text p.phase.name),
    ("nodes", .count p.store.nodes.length), ("edges", .count p.store.edges.length),
    ("selected", .count p.selection.length), ("brushed", .count p.brush.selected.length),
    ("marked", .count p.marked.size), ("recurring", .count p.recurring.size),
    ("spawners", PaneId.listToJson p.spawners), ("spawned", PaneId.listToJson p.spawned.toList)]

/-- Everything that an inspector shows of the pane; nodes and edges by name. -/
def report (p : Pane) : Json :=
  .record [("id", p.id.toJson), ("color", .text p.color), ("state", .text p.phase.name),
    ("geometry", p.geometry.toJson), ("collapsed", .bool p.geometry.isCollapsed),
    ("nodes", NodeId.listToJson p.store.nodeIds),
    ("edges", .list (p.store.edgeIds.map EdgeId.toJson)),
    ("spawners", PaneId.listToJson p.spawners), ("spawned", PaneId.listToJson p.spawned.toList),
    ("spawner_nodes", NodeId.listToJson p.spawnerNodes),
    ("ever_added", NodeId.listToJson p.everAdded.toList), ("view", p.view.toJson),
    ("brush", p.brush.state.toJson), ("brush_pane", p.brush.pane.toJson),
    ("brushed", NodeId.listToJson p.brush.selected), ("history_empty", .bool p.history.isEmpty),
    ("marked", NodeId.listToJson p.marked.toList),
    ("recurring", NodeId.listToJson p.recurring.toList),
    ("selection", NodeId.listToJson p.selection)]

end Pane

end StateAtlas
