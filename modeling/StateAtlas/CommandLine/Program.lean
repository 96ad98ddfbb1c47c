import StateAtlas.CommandLine.Client
import StateAtlas.CommandLine.Files
import StateAtlas.CommandLine.Flags
import StateAtlas.Session.Annotation
import StateAtlas.Session.BestPath
import StateAtlas.Session.Lifecycle
import StateAtlas.Session.Selection
/-!
The program, run once with the arguments of a command line.

It reads the configuration, opens a session from a file of documents or from the backend, does what
the flags ask for in a fixed order, prints the panes and writes them to a file.  The first failure
ends the run; a failure while the best path is followed only ends the path.

Files and configuration are reached through a `Host`, so the same program runs against the real
system and against files in memory.
-/

namespace StateAtlas

/-- What the program needs of the system that it runs on. -/
structure Host (m : Type → Type) where
  readFile : String → m (Option (List UInt8))
  /-- Writes a file; tells whether that went well. -/
  writeFile : String → List UInt8 → m Bool
  readConfig : m (Option (List UInt8))
  /-- Writes the user's configuration; tells whether that went well. -/
  writeConfig : String → m Bool
  /-- The directory for sockets. -/
  runtimeDir : Option String

namespace Host

variable {m : Type → Type} [Monad m]

/-- The documents of the file at a path, with archives in a format. -/
def load (host : Host m) (format : Archive.Format) (path : String) :
    ExceptT DocumentError m (List PaneDocument) := do
  match ← host.readFile path with
  | none => throw .file
  | some bytes => ExceptT.mk (pure (DocumentFile.readIn format bytes))

/-- Writes documents to the file at a path, with archives in a format. -/
def save (host : Host m) (format : Archive.Format) (path : String) (docs : List PaneDocument) :
    ExceptT DocumentError m Unit := do
  if !(← host.writeFile path (DocumentFile.writeIn format docs)) then throw .file

end Host

/-- Why the program fails. -/
inductive ProgramError
  | flags (error : FlagError)
  | configTooLarge
  | configNotWritten
  | session (error : SessionError)
deriving DecidableEq, Repr

/-- What a person is told. -/
def ProgramError.message : ProgramError → String
  | .flags e => e.message
  | .configTooLarge => "failed to serialize engine config"
  | .configNotWritten => "failed to write engine config"
  | .session e => e.message

/-- The first line of what a person is told. -/
def ProgramError.headline (e : ProgramError) : String :=
  let (line, rest) := e.message.toList.span (· ≠ '\n')
  .ofList (if !rest.isEmpty && line.getLast? = some '\r' then line.dropLast else line)

/-- How a run ended. -/
structure RunReport where
  /-- What was printed. -/
  output : String := ""
  failure : Option ProgramError := none
deriving DecidableEq, Repr

namespace Program

variable {m : Type → Type} [Monad m]

/-- The text that bytes are. -/
def textOf? (bytes : List UInt8) : Option String := String.fromUTF8? bytes.toByteArray

/-- The configuration that a run starts from, with what the flags override. -/
def configure (host : Host m) (f : Flags) : ExceptT ProgramError m Config := do
  let bytes ← match f.config with
    | some path => host.readFile path
    | none => host.readConfig
  let config := f.apply (.load (bytes.bind textOf?)) host.runtimeDir
  if f.saveConfig then
    match config.text? with
    | none => throw .configTooLarge
    | some text => if !(← host.writeConfig text) then throw .configNotWritten
  return config

/-- What an operation on a session makes of it, or why it failed. -/
def settled {α : Type} (r : m (Session × Except SessionError α)) :
    ExceptT ProgramError m (Session × α) := do
  match ← (r : ExceptT ProgramError m _) with
  | (s, .ok a) => return (s, a)
  | (_, .error e) => throw (.session e)

/-- What an operation on a session makes of it, or why it was refused. -/
def accepted {α : Type} (r : Except SessionError α) : ExceptT ProgramError m α :=
  match r with
  | .ok a => pure a
  | .error e => throw (.session e)

/-- What became of documents, or why they could not be read or written. -/
def documented {α : Type} (r : ExceptT DocumentError m α) : ExceptT ProgramError m α :=
  r.adapt fun e => .session (.document e)

/-- A session with the panes of a file, or else with the initial pane of the backend. -/
def openSession (host : Host m) (backend : Backend m) (f : Flags) (config : Config) :
    ExceptT ProgramError m (Session × PaneId) := do
  let s := Session.init config.options
  match f.importPath with
  | none => settled (s.start backend)
  | some path =>
    let docs ← documented (host.load Archive.plain path)
    let (s, _) := s.openDocuments docs
    return (s, ← accepted s.primary)

/-- Settles an expansion of a pane that was held back, as the flags say. -/
def settlePending (f : Flags) (s : Session) (pane : PaneId) (pending : Pending) :
    ExceptT ProgramError m Session := do
  let (s, _) ← accepted (s.resolve pane pending f.onCapacity)
  return s

/-- Expands the nodes that the flags name, all at once. -/
def expand (backend : Backend m) (f : Flags) (s : Session) (pane : PaneId) :
    ExceptT ProgramError m Session := do
  if f.expand.isEmpty then return s
  let (s, outcome) ← settled (s.expand backend pane (f.expand.map NodeId.mk))
  match outcome with
  | .merged _ => return s
  | .capacityExceeded pending => settlePending f s pane pending

/-- Follows the best path from the expanded nodes, or else from the initial states. -/
def followBestPath (backend : Backend m) (f : Flags) (s : Session) (pane : PaneId) :
    ExceptT ProgramError m Session := do
  match f.bestPath with
  | none => return s
  | some steps =>
    let s ← if f.expand.isEmpty then accepted (s.selectWhere pane Proposition.init) else pure s
    let sources ←
      if f.expand.isEmpty then accepted ((s.get pane).map Pane.selection)
      else pure (f.expand.map NodeId.mk)
    let (s, report) ← settled (s.bestPath backend pane sources (some steps))
    match report.stop with
    | .capacity pending => settlePending f s pane pending
    | _ => return s

/-- Marks nodes and looks for nodes that recur, as the flags say. -/
def annotate (f : Flags) (s : Session) : Session :=
  let s := if f.mark.isEmpty then s else (s.mark (f.mark.map NodeId.mk)).1
  if f.recurrence then s.detectRecurrence.1 else s

/-- Everything up to printing. -/
def explore (host : Host m) (backend : Backend m) (f : Flags) :
    ExceptT ProgramError m Session := do
  let config ← configure host f
  let (s, primary) ← openSession host backend f config
  let s ← match f.policy with
    | some policy => accepted (s.setPolicy primary (some policy))
    | none => pure s
  let s ← expand backend f s primary
  let s ← followBestPath backend f s primary
  return annotate f s

/-- Writes all panes to a file, if the flags ask for that. -/
def writeDocuments (host : Host m) (f : Flags) (s : Session) : ExceptT ProgramError m Unit := do
  match f.exportPath with
  | none => return ()
  | some path =>
    let docs ← accepted (s.documents s.table.ids false)
    documented (host.save Archive.plain path docs)

/-- Runs the program. -/
def run (host : Host m) (backend : Backend m) (args : List String) : m RunReport := do
  match Flags.ofArguments args with
  | .error e => return { failure := some (.flags e) }
  | .ok f =>
    match ← (explore host backend f).run with
    | .error e => return { failure := some e }
    | .ok s =>
      let output := s.summary.pretty ++ "\n"
      match ← (writeDocuments host f s).run with
      | .error e => return { output, failure := some e }
      | .ok () => return { output }

end Program

end StateAtlas
