import StateAtlas.Session.Basic
/-!
Marking nodes and watching for nodes that recur, across all panes of a session.
-/

namespace StateAtlas.Session

/-! ## Marks -/

/-- Marks nodes; tells which were not marked before. -/
def mark (s : Session) (ids : List NodeId) : Session × List NodeId :=
  let (marks, added) := s.marks.mark ids
  let s := { s with marks }
  (if added.isEmpty then s else (s.publish (.marksChanged added [])).propagate, added)

/-- Takes marks away; tells which nodes were marked. -/
def unmark (s : Session) (ids : List NodeId) : Session × List NodeId :=
  let (marks, removed) := s.marks.unmark ids
  let s := { s with marks }
  (if removed.isEmpty then s else (s.publish (.marksChanged [] removed)).propagate, removed)

/-- The marked nodes of all panes with the actions between them. -/
def strategy (s : Session) : Fragment := s.marks.strategy (s.table.panes.map Pane.store)

/-! ## Recurrence -/

/-- Watches nodes from now on. -/
def addWatched (s : Session) (ids : List NodeId) : Session :=
  { s with watched := s.watched.insertMany ids }

/-- Finds all nodes that recur and watches them from now on. -/
def detectRecurrence (s : Session) : Session × Recurrence :=
  let r := Recurrence.detect s.holdings
  let s := (s.addWatched r.ids).applyRecurrence r
  (s.publish (.registry (.duplicatePaneIds r.panes)), r)

/-- Watches nodes; tells which of the watched nodes recur. -/
def watchRecurrence (s : Session) (ids : List NodeId) : Session × Recurrence :=
  let s := (s.addWatched ids).recomputeWatched
  (s, .detectAmong s.holdings s.watched)

/-- Watches no node any more. -/
def clearRecurrence (s : Session) : Session :=
  ({ s with watched := {} }.modifyAll fun p => { p with recurring := {} }).publish
    (.registry .resetPaneNodeMarkings)

end StateAtlas.Session
