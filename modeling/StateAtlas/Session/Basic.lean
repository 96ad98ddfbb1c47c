import StateAtlas.Document.File
import StateAtlas.Document.Strategy
import StateAtlas.Pane.Arrangement
import StateAtlas.Pane.Copies
import StateAtlas.Pane.Lineage
import StateAtlas.Session.Config
import StateAtlas.Sync.Recurrence
/-!
A session: the pane table together with the marks, the watched nodes and the schema that all panes
share.

What panes show of the session is derived: their marks from the mark set, the recurring nodes from
what the other panes hold, rows and dimensions from schema and view.  Whenever a pane grows,
`afterGrowth` derives all of it anew.

Operations are functions from session to session.  Where an operation can fail after it has changed
something, it returns the changed session beside the error.
-/

namespace StateAtlas

/-- Why an operation on a session fails. -/
inductive SessionError
  | explore (error : ExploreError)
  | pane (error : PaneError)
  | document (error : DocumentError)
  | notStarted
deriving DecidableEq, Repr

/-- What a person is told. -/
def SessionError.message : SessionError → String
  | .explore e => e.message
  | .pane e => e.message
  | .document e => e.message
  | .notStarted => "session not started"

def SessionError.toJson : SessionError → Json
  | .explore e => e.toJson
  | .pane e => e.toJson
  | .document e => e.toJson
  | .notStarted => .failure "NotStarted" (some SessionError.notStarted.message)

instance : ToJson SessionError := ⟨SessionError.toJson⟩

/-- A session. -/
structure Session where
  options : SessionOptions
  table : PaneTable
  marks : MarkSet := {}
  /-- The nodes whose recurrence is kept up to date. -/
  watched : OrderedSet NodeId := {}
  schema : Schema := {}
  started : Bool := false

namespace Session

/-- A session without panes. -/
def init (options : SessionOptions) : Session :=
  { options, table := .start options.maxPanes options.brushWindow }

/-! ## Small changes -/

/-- Announces an event. -/
def publish (s : Session) (e : Event) : Session := { s with table := s.table.publish e }

/-- Announces a warning. -/
def warn (s : Session) (pane : Option PaneId) (message : String) : Session :=
  s.publish (.warning pane message)

/-- Changes the pane of a name. -/
def modify (s : Session) (id : PaneId) (f : Pane → Pane) : Session :=
  { s with table := s.table.modify id f }

/-- Changes every pane. -/
def modifyAll (s : Session) (f : Pane → Pane) : Session :=
  { s with table := s.table.modifyAll f }

/-- The pane of a name, or the reason why there is none. -/
def get (s : Session) (id : PaneId) : Except SessionError Pane :=
  (s.table.get id).mapError .pane

/-- Changes a live pane. -/
def modifyLive (s : Session) (id : PaneId) (f : Pane → Pane) : Except SessionError Session := do
  let _ ← s.get id
  return s.modify id f

/-! ## Deriving what panes show -/

/-- What each pane holds for recurrence, in display order. -/
def holdings (s : Session) : List (PaneId × OrderedSet NodeId) :=
  s.table.panes.map fun p => (p.id, p.everAdded)

/-- Lets every pane show which of its nodes recur. -/
def applyRecurrence (s : Session) (r : Recurrence) : Session :=
  (s.modifyAll fun p => { p with recurring := r.forPane p.id }).publish
    (.recurringUpdated r.ids r.panes)

/-- Brings the watched nodes up to date. -/
def recomputeWatched (s : Session) : Session :=
  if s.watched.isEmpty then s else s.applyRecurrence (.detectAmong s.holdings s.watched)

/-- Lets every pane show which of its nodes are marked. -/
def propagate (s : Session) : Session :=
  (s.publish .propagate).modifyAll fun p => { p with marked := s.marks.decorate p.store }

/-- Makes the brush's selection of a pane the pane's own if the pane asks for that. -/
def syncSelection (s : Session) (l : LinkedSelection Float) : Session :=
  s.modify l.pane fun p => if p.view.autoSync then p.select l.ids else p

/-- Announces the brush's selection of a pane and applies it to the pane. -/
def publishSelection (s : Session) (l : LinkedSelection Float) : Session :=
  (s.publish (.linkedSelection l)).syncSelection l

/-- Announces the brush's selection of the pane of a name. -/
def publishBrush (s : Session) (id : PaneId) : Session :=
  match s.table.pane? id with
  | some p => s.publishSelection p.brush.linked
  | none => s

/-- A pane to which nodes were added, with everything that depends on what it holds derived anew. -/
def derived (s : Session) (added : List NodeId) (p : Pane) : Pane :=
  { (p.noteAdded added).project s.schema with marked := s.marks.decorate p.store }

/-- Derives everything that depends on what a pane holds, after nodes were added to it. -/
def afterGrowth (s : Session) (id : PaneId) (added : List NodeId) : Session :=
  ((s.modify id (s.derived added)).publishBrush id).recomputeWatched

/-- Rebuilds the rows and dimensions of a pane. -/
def reproject (s : Session) (id : PaneId) : Session :=
  (s.modify id fun p => p.project s.schema).publishBrush id

/-! ## Beginning and end -/

/-- The settings of a pane that starts a session. -/
def defaultView (s : Session) : ViewState :=
  { mode := s.options.defaultMode
    policy := none
    details := .initial s.schema
    autoSync := s.options.autoSync
    insertPolicy := s.options.insertPolicy }

/-- Opens the first pane. -/
def openFirst (s : Session) (seed : Fragment) : Session × PaneId :=
  let (table, id) := s.table.openPane (.seeded seed s.defaultView)
  ({ s with table, started := true }.afterGrowth id [], id)

/-- Loads the schema and opens the initial fragment in the primary pane, unless there is one. -/
def start {m : Type → Type} [Monad m] (s : Session) (backend : Backend m) :
    m (Session × Except SessionError PaneId) := do
  match s.table.primary with
  | some id => return (s, .ok id)
  | none =>
    match ← backend.status with
    | .error e => return (s, .error (.explore e))
    | .ok project =>
      let s := { s with schema := project.schema }
      match ← backend.initial with
      | .error e => return (s, .error (.explore e))
      | .ok seed =>
        let (s, id) := s.openFirst seed
        return (s, .ok id)

/-- Closes every pane, forgets marks and watched nodes and lets go of all subscribers.  The schema
stays until the next start. -/
def teardown (s : Session) : Session :=
  let s := { s with table := s.table.clear.1, marks := {}, watched := {}, started := false }
  let s := s.publish (.registry .resetPaneNodeMarkings)
  { s with table := { s.table with bus := s.table.bus.clear } }

/-- The primary pane of a session that has panes. -/
def primary (s : Session) : Except SessionError PaneId :=
  match s.table.primary with
  | some id => if s.table.isEmpty then .error .notStarted else .ok id
  | none => .error .notStarted

/-- The panes in display order, in short. -/
def summary (s : Session) : Json := .list (s.table.panes.map Pane.summary)

end Session

end StateAtlas
