import StateAtlas.Session.Basic
/-!
Selecting and brushing in the panes of a session, and their view settings.

Whenever the brush's selection is recomputed, it is announced, and applied to the pane if the pane
asks for that.
-/

namespace StateAtlas.Session

/-! ## Selection -/

/-- Selects nodes in a pane. -/
def select (s : Session) (pane : PaneId) (ids : List NodeId) : Except SessionError Session :=
  s.modifyLive pane fun p => p.select ids

/-- Goes back to an earlier selection; tells whether there is one. -/
def undo (s : Session) (pane : PaneId) : Except SessionError (Session × Bool) := do
  match (← s.get pane).undo? with
  | some p => return (s.modify pane fun _ => p, true)
  | none => return (s, false)

/-- Goes forward to a selection that was left; tells whether there is one. -/
def redo (s : Session) (pane : PaneId) : Except SessionError (Session × Bool) := do
  match (← s.get pane).redo? with
  | some p => return (s.modify pane fun _ => p, true)
  | none => return (s, false)

/-- Selects the states of a pane in which an atomic proposition holds. -/
def selectWhere (s : Session) (pane : PaneId) (proposition : String) :
    Except SessionError Session :=
  s.modifyLive pane fun p =>
    p.select ((p.store.nodes.filter fun n => n.isState && n.satisfies proposition).map Node.id)

/-- Applies the brush's selection of a pane to the pane if the pane asks for that; tells whether it
does. -/
def sync (s : Session) (l : LinkedSelection Float) : Except SessionError (Session × Bool) := do
  let p ← s.get l.pane
  return (s.syncSelection l, p.view.autoSync)

/-! ## Brushing -/

/-- Changes the brush of a pane without announcing anything. -/
def modifyBrush (s : Session) (pane : PaneId) (f : Brush Float → Brush Float) : Session :=
  s.modify pane fun p => { p with brush := f p.brush }

/-- Sets or clears the constraint of a dimension. -/
def brush (s : Session) (pane : PaneId) (dimension : String) (c : Option (Constraint Float)) :
    Except SessionError Session := do
  let _ ← s.get pane
  return (s.modifyBrush pane fun b => b.brush dimension c).publishBrush pane

/-- Stores a constraint now and recomputes at most once per window; tells whether it did. -/
def brushCoalesced (s : Session) (pane : PaneId) (dimension : String)
    (c : Option (Constraint Float)) (now : Nat) : Except SessionError (Session × Bool) := do
  let p ← s.get pane
  let (b, ran) := p.brush.brushCoalesced dimension c now
  let s := s.modifyBrush pane fun _ => b
  return (if ran then s.publishBrush pane else s, ran)

/-- Recomputes every selection that is pending and whose window has passed; tells how many. -/
def pollBrushes (s : Session) (now : Nat) : Session × Nat :=
  let ready := (s.table.panes.filter fun p => (p.brush.poll now).2).map Pane.id
  let s := s.modifyAll fun p => { p with brush := (p.brush.poll now).1 }
  (ready.foldl publishBrush s, ready.length)

/-- Selects the rows at one end of a dimension; tells whether there are any. -/
def selectExtreme (s : Session) (pane : PaneId) (dimension : String) (which : Extreme) :
    Except SessionError (Session × Bool) := do
  match (← s.get pane).brush.selectExtreme? dimension which with
  | some b => return ((s.modifyBrush pane fun _ => b).publishBrush pane, true)
  | none => return (s, false)

/-! ## View settings -/

/-- Changes the view of a live pane. -/
def modifyView (s : Session) (pane : PaneId) (f : ViewState → ViewState) :
    Except SessionError Session :=
  s.modifyLive pane fun p => { p with view := f p.view }

/-- Sets the kinds of nodes that a pane shows. -/
def setMode (s : Session) (pane : PaneId) (mode : DisplayMode) : Except SessionError Session := do
  return (← s.modifyView pane fun v => { v with mode }).reproject pane

/-- Sets the policy that guides the best path of a pane. -/
def setPolicy (s : Session) (pane : PaneId) (policy : Option String) :
    Except SessionError Session :=
  s.modifyView pane fun v => { v with policy }

/-- Sets which attributes a pane projects. -/
def setDetails (s : Session) (pane : PaneId) (details : DetailSelection) :
    Except SessionError Session := do
  return (← s.modifyView pane fun v => { v with details }).reproject pane

/-- Sets whether the brush's selection of a pane becomes the pane's own. -/
def setAutoSync (s : Session) (pane : PaneId) (on : Bool) : Except SessionError Session :=
  s.modifyView pane fun v => { v with autoSync := on }

end StateAtlas.Session
