import StateAtlas.Session.Basic
/-!
Destroying, merging and copying the panes of a session, and opening panes from documents.
-/

namespace StateAtlas.Session

/-- The session with a changed table. -/
def withTable {α : Type} (s : Session) : Except PaneError (PaneTable × α) →
    Except SessionError (Session × α)
  | .error e => .error (.pane e)
  | .ok (table, a) => .ok ({ s with table }, a)

/-- Derives what a new pane shows. -/
def settle (s : Session) (id : PaneId) : Session := s.afterGrowth id []

/-- Destroys a pane, and on request all of its descendants; tells which panes were removed. -/
def destroy (s : Session) (pane : PaneId) (cascade : Bool) :
    Except SessionError (Session × List PaneId) := do
  let (s, removed) ← s.withTable (s.table.destroy pane cascade true)
  return (s.recomputeWatched, removed)

/-- Opens a pane that holds the union of others. -/
def merge (s : Session) (panes : List PaneId) (keep : Bool) :
    Except SessionError (Session × PaneId) := do
  let (s, id) ← s.withTable (s.table.merge panes keep)
  return (s.settle id, id)

/-- Copies a pane. -/
def duplicate (s : Session) (pane : PaneId) : Except SessionError (Session × PaneId) := do
  let (s, id) ← s.withTable (s.table.duplicate pane)
  return (s.settle id, id)

/-- Copies several panes at once. -/
def duplicateMany (s : Session) (panes : List PaneId) :
    Except SessionError (Session × List PaneId) := do
  let (s, ids) ← s.withTable (s.table.duplicateMany panes)
  return (ids.foldl settle s, ids)

/-- Handles a message that the overview sends back: a click on a pane highlights it. -/
def receive (s : Session) : RegistryMessage → Except SessionError Session
  | .activePane id => do
    return { s with table := ← (s.table.highlight id).mapError .pane }
  | _ => .ok s

/-! ## Documents -/

/-- The documents of panes, or of what is selected in them. -/
def documents (s : Session) (panes : List PaneId) (selectionOnly : Bool) :
    Except SessionError (List PaneDocument) :=
  panes.mapM fun id => do
    let p ← s.get id
    return .ofPane p (if selectionOnly then some p.selection else none)

/-- Warns of attributes that a document refers to and no node of it carries. -/
def warnMismatches (s : Session) (d : PaneDocument) : Session :=
  if d.mismatches.isEmpty then s
  else s.warn none <|
    s!"document {d.pane.text} references absent attributes: " ++
      String.intercalate ", " d.mismatches

/-- The pane that a document asks for. -/
def documentRequest (d : PaneDocument) : SpawnRequest :=
  { seed := d.fragment, spawnerNodes := d.spawnerNodes, insert := .atEnd, view := d.view }

/-- Opens a pane from a document. -/
def openDocument (s : Session) (d : PaneDocument) : Session × PaneId :=
  let s := s.warnMismatches d
  let (table, id) := s.table.openPane (documentRequest d)
  let s := { s with table }.modify id fun p => { p with brush := p.brush.replaceState d.brush }
  (s.settle id, id)

/-- Opens a pane from a further document. -/
def openNext (opened : Session × List PaneId) (d : PaneDocument) : Session × List PaneId :=
  let (s, id) := opened.1.openDocument d
  (s, opened.2 ++ [id])

/-- Opens one pane per document. -/
def openDocuments (s : Session) (docs : List PaneDocument) : Session × List PaneId :=
  let (s, ids) := docs.foldl openNext (s, [])
  ({ s with started := true }, ids)

end StateAtlas.Session
