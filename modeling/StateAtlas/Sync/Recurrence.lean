import StateAtlas.Model.Id
/-!
Nodes that more than one pane holds.
-/

namespace StateAtlas

/-- The nodes that recur, with the panes that hold them. -/
structure Recurrence where
  panesOf : Dictionary NodeId (List PaneId) := {}
deriving Inhabited

namespace Recurrence

/-- Whether no node recurs. -/
def isEmpty (r : Recurrence) : Bool := r.panesOf.isEmpty

/-- The nodes that recur. -/
def ids (r : Recurrence) : List NodeId := r.panesOf.keys

/-- The panes that hold a node that recurs. -/
def panes (r : Recurrence) : List PaneId := (OrderedSet.ofList r.panesOf.values.flatten).toList

/-- The nodes that recur and that a pane holds. -/
def forPane (r : Recurrence) (pane : PaneId) : OrderedSet NodeId :=
  .ofList (r.panesOf.filter fun _ panes => panes.contains pane).keys

/-- Puts a pane behind the panes that hold a node. -/
def note (pane : PaneId) (seen : Dictionary NodeId (List PaneId)) (id : NodeId) :
    Dictionary NodeId (List PaneId) :=
  seen.update id [] fun panes => panes ++ [pane]

/-- The nodes that at least two of the panes hold, given which nodes each pane lists. -/
def gather (panes : List (PaneId × List NodeId)) : Recurrence :=
  let seen := panes.foldl (fun seen p => p.2.foldl (note p.1) seen) {}
  ⟨seen.filter fun _ panes => 1 < panes.length⟩

/-- The nodes that recur among panes. -/
def detect (panes : List (PaneId × OrderedSet NodeId)) : Recurrence :=
  gather (panes.map fun p => (p.1, p.2.toList))

/-- The nodes of a query that recur among panes. -/
def detectAmong (panes : List (PaneId × OrderedSet NodeId)) (queried : OrderedSet NodeId) :
    Recurrence :=
  gather (panes.map fun p => (p.1, queried.toList.filter p.2.contains))

def toJson (r : Recurrence) : Json :=
  .record [("by_id", .record (r.panesOf.entries.map fun e => (e.1.text, PaneId.listToJson e.2))),
    ("ids", NodeId.listToJson r.ids), ("panes", PaneId.listToJson r.panes),
    ("empty", .bool r.isEmpty)]

instance : ToJson Recurrence := ⟨Recurrence.toJson⟩

end Recurrence

end StateAtlas
