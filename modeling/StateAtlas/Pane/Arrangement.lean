import StateAtlas.Pane.Table
/-!
Arranging the panes on screen.  Every change of a footprint is announced.
-/

namespace StateAtlas.PaneTable

/-- Changes the footprint of a pane and announces it. -/
def reshape (t : PaneTable) (id : PaneId) (f : Geometry → Geometry) : PaneTable :=
  (t.modify id fun p => { p with geometry := f p.geometry }).publish (.relayout id)

/-- Changes the footprint of a live pane. -/
def arrange (t : PaneTable) (id : PaneId) (f : Geometry → Geometry) :
    Except PaneError PaneTable := do
  let _ ← t.get id
  return t.reshape id f

/-- Collapses or opens a pane.  If that leaves every pane collapsed, the last other pane in display
order is opened. -/
def toggle (t : PaneTable) (id : PaneId) : Except PaneError PaneTable := do
  let t ← t.arrange id Geometry.toggle
  if t.live.values.all fun p => p.geometry.isCollapsed then
    match (t.ids.filter fun other => other ≠ id).getLast? with
    | some other => return t.reshape other Geometry.expand
    | none => return t
  else return t

/-- Opens a pane, collapses all others and makes it the active one. -/
def highlight (t : PaneTable) (id : PaneId) : Except PaneError PaneTable := do
  let _ ← t.get id
  let others := t.ids.filter fun other => other ≠ id
  let t := others.foldl (fun t other => t.reshape other Geometry.collapse) t
  return (t.reshape id Geometry.expand).setActive id

/-- The table in one line. -/
def inspect (t : PaneTable) : String :=
  let optionalId : Option PaneId → String
    | some id => s!"Some({Pane.inspectId id})"
    | none => "None"
  s!"PaneManager \x7b order: [{Pane.inspectIds t.ids}], primary: {optionalId t.primary}, " ++
  s!"active: {optionalId t.active}, max_panes: {t.maxPanes} \x7d"

/-- What an overview shows of the table. -/
def report (t : PaneTable) : Json :=
  .record [("order", PaneId.listToJson t.ids), ("active", .optional PaneId.toJson t.active),
    ("primary", .optional PaneId.toJson t.primary), ("len", .count t.live.size),
    ("states", .texts (t.panes.map fun p => p.phase.name))]

end StateAtlas.PaneTable
