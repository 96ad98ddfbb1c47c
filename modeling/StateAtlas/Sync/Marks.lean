import StateAtlas.Graph.Store
/-!
The nodes marked in a session.  Marks outlive the panes that show them.
-/

namespace StateAtlas

/-- The marked nodes. -/
structure MarkSet where
  ids : OrderedSet NodeId := {}
deriving Inhabited

namespace MarkSet

/-- Whether a node is marked. -/
def contains (m : MarkSet) (id : NodeId) : Bool := m.ids.contains id

/-- Marks nodes; tells which were not marked before. -/
def mark (m : MarkSet) (ids : List NodeId) : MarkSet × List NodeId :=
  (⟨m.ids.insertMany ids⟩, (ids.filter fun id => !m.contains id).eraseDups)

/-- Takes marks away; tells which nodes were marked. -/
def unmark (m : MarkSet) (ids : List NodeId) : MarkSet × List NodeId :=
  (⟨ids.foldl OrderedSet.erase m.ids⟩, (ids.filter m.contains).eraseDups)

/-- The nodes of a store that are marked. -/
def decorate (m : MarkSet) (s : Store) : OrderedSet NodeId :=
  .ofList (s.nodeIds.filter m.contains)

end MarkSet

end StateAtlas
