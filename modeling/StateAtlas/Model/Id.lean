import StateAtlas.Json.Fields
/-!
Names of nodes, edges and panes.

The three kinds of names are texts that are never mixed up; each kind is ordered by code points.
-/

namespace StateAtlas

/-- The name of a node, given by the backend. -/
structure NodeId where
  text : String
deriving DecidableEq, Hashable, Repr, Inhabited

/-- The name of an edge. -/
structure EdgeId where
  text : String
deriving DecidableEq, Hashable, Repr, Inhabited

/-- The name of a pane. -/
structure PaneId where
  text : String
deriving DecidableEq, Hashable, Repr, Inhabited

namespace NodeId

instance : Ord NodeId := ⟨compareOn NodeId.text⟩

instance : Std.TransOrd NodeId := inferInstanceAs (Std.TransCmp (compareOn NodeId.text))

instance : Std.LawfulEqOrd NodeId where
  eq_of_compare {a b} h := by
    cases a; cases b
    exact congrArg NodeId.mk (Std.compare_eq_iff_eq.mp h)

def toJson (id : NodeId) : Json := .text id.text

instance : ToJson NodeId := ⟨NodeId.toJson⟩

def ofJson? (j : Json) : Option NodeId := j.text?.map NodeId.mk

end NodeId

namespace EdgeId

instance : Ord EdgeId := ⟨compareOn EdgeId.text⟩

instance : Std.TransOrd EdgeId := inferInstanceAs (Std.TransCmp (compareOn EdgeId.text))

instance : Std.LawfulEqOrd EdgeId where
  eq_of_compare {a b} h := by
    cases a; cases b
    exact congrArg EdgeId.mk (Std.compare_eq_iff_eq.mp h)

def toJson (id : EdgeId) : Json := .text id.text

instance : ToJson EdgeId := ⟨EdgeId.toJson⟩

def ofJson? (j : Json) : Option EdgeId := j.text?.map EdgeId.mk

end EdgeId

namespace PaneId

instance : Ord PaneId := ⟨compareOn PaneId.text⟩

instance : Std.TransOrd PaneId := inferInstanceAs (Std.TransCmp (compareOn PaneId.text))

instance : Std.LawfulEqOrd PaneId where
  eq_of_compare {a b} h := by
    cases a; cases b
    exact congrArg PaneId.mk (Std.compare_eq_iff_eq.mp h)

def toJson (id : PaneId) : Json := .text id.text

instance : ToJson PaneId := ⟨PaneId.toJson⟩

def ofJson? (j : Json) : Option PaneId := j.text?.map PaneId.mk

end PaneId

/-- A list of node names. -/
def NodeId.listToJson (ids : List NodeId) : Json := .list (ids.map NodeId.toJson)

/-- A list of pane names. -/
def PaneId.listToJson (ids : List PaneId) : Json := .list (ids.map PaneId.toJson)

end StateAtlas
