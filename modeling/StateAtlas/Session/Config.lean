import StateAtlas.Pane.View
import StateAtlas.Toml.Printer
import StateAtlas.Toml.Reader
/-!
The configuration of the program, as it stands in a TOML file or in JSON.

Every setting may be missing.  A file that cannot be understood counts as an empty one, so that a
damaged configuration never keeps the program from starting.
-/

namespace StateAtlas

/-- The settings of the program. -/
structure Config where
  /-- The root of the backend's addresses; the project's name is appended to it. -/
  backendUrl : String := "http://localhost:8080"
  project : String := "default"
  requestTimeoutSecs : Nat := 30
  maxPanes : Nat := 6
  /-- How many nodes on display a pane may hold before an expansion asks for a decision. -/
  paneNodeCeiling : Nat := 500
  defaultMode : DisplayMode := .states
  insertPolicy : InsertPolicy := .afterSpawner
  bestPathMaxSteps : Nat := 5
  brushWindowMs : Nat := 50
  overviewSocket : Option String := none
  autoSync : Bool := false
deriving DecidableEq, Repr, Inhabited

/-- What a session takes from the configuration. -/
structure SessionOptions where
  maxPanes : Nat
  paneNodeCeiling : Nat
  bestPathMaxSteps : Nat
  /-- The window of the panes' brushes, in milliseconds. -/
  brushWindow : Nat
  defaultMode : DisplayMode
  insertPolicy : InsertPolicy
  autoSync : Bool
deriving DecidableEq, Repr

namespace Config

/-- What a session takes from the configuration. -/
def options (c : Config) : SessionOptions :=
  { maxPanes := c.maxPanes
    paneNodeCeiling := c.paneNodeCeiling
    bestPathMaxSteps := c.bestPathMaxSteps
    brushWindow := c.brushWindowMs
    defaultMode := c.defaultMode
    insertPolicy := c.insertPolicy
    autoSync := c.autoSync }

/-- A text without the slashes at its end. -/
def withoutTrailingSlashes (s : String) : String :=
  String.ofList (s.toList.reverse.dropWhile (· = '/')).reverse

/-- A text without the slashes at either end. -/
def withoutSlashes (s : String) : String :=
  withoutTrailingSlashes (String.ofList (s.toList.dropWhile (· = '/')))

/-- The address of the project at the backend, without a slash at its end. -/
def backendBase (c : Config) : String :=
  let root := withoutTrailingSlashes c.backendUrl
  let project := withoutSlashes c.project
  if project.isEmpty then root else root ++ "/" ++ project

/-- How many seconds a request may take; at least one. -/
def timeoutSecs (c : Config) : Nat := max 1 c.requestTimeoutSecs

/-- The socket of the overview where none is configured. -/
def defaultSocket (runtimeDir : Option String) : String :=
  runtimeDir.getD "/tmp" ++ "/statespace-overview.sock"

/-- The socket of the overview. -/
def socketPath (c : Config) (runtimeDir : Option String) : String :=
  c.overviewSocket.getD (defaultSocket runtimeDir)

/-! ## Reading -/

/-- The names of the settings. -/
def fieldNames : List String :=
  ["backend_url", "project", "request_timeout_secs", "max_panes", "pane_node_ceiling",
    "default_mode", "insert_policy", "best_path_max_steps", "brush_window_ms", "overview_socket",
    "auto_sync"]

/-- The settings that fields give, with the given ways to read words. -/
def ofFields? (mode : Json → Option DisplayMode) (insert : Json → Option InsertPolicy)
    (f : Json.Fields) : Option Config := do
  let usual : Config := {}
  let backendUrl ← Json.orElse usual.backendUrl Json.text? (f "backend_url")
  let project ← Json.orElse usual.project Json.text? (f "project")
  let requestTimeoutSecs ←
    Json.orElse usual.requestTimeoutSecs (Json.count? 64) (f "request_timeout_secs")
  let maxPanes ← Json.orElse usual.maxPanes (Json.count? 64) (f "max_panes")
  let paneNodeCeiling ← Json.orElse usual.paneNodeCeiling (Json.count? 64) (f "pane_node_ceiling")
  let defaultMode ← Json.orElse usual.defaultMode mode (f "default_mode")
  let insertPolicy ← Json.orElse usual.insertPolicy insert (f "insert_policy")
  let bestPathMaxSteps ←
    Json.orElse usual.bestPathMaxSteps (Json.count? 64) (f "best_path_max_steps")
  let brushWindowMs ← Json.orElse usual.brushWindowMs (Json.count? 64) (f "brush_window_ms")
  let overviewSocket ← Json.maybe Json.text? (f "overview_socket")
  let autoSync ← Json.orElse usual.autoSync Json.bool? (f "auto_sync")
  some ⟨backendUrl, project, requestTimeoutSecs, maxPanes, paneNodeCeiling, defaultMode,
    insertPolicy, bestPathMaxSteps, brushWindowMs, overviewSocket, autoSync⟩

def ofJson? (j : Json) : Option Config := do
  ofFields? DisplayMode.ofJson? InsertPolicy.ofJson? (← j.fields? fieldNames)

/-- A word in TOML: a text, or the only key of a table with nothing under it. -/
def wordInToml? {α : Type} (read : String → Option α) : Json → Option α
  | .text s => read s
  | .record [(s, .record [])] => read s
  | .record [(s, .list [])] => read s
  | _ => none

/-- The settings of a TOML text, if it is one. -/
def ofText? (text : String) : Option Config := do
  let f ← (← Toml.ofText? text).toJson.fields? fieldNames
  ofFields? (wordInToml? DisplayMode.ofName?) (wordInToml? InsertPolicy.ofName?) f

/-- The settings of a file, by its text where there is one. -/
def load (text : Option String) : Config := (text.bind ofText?).getD {}

/-! ## Writing -/

def toJson (c : Config) : Json :=
  .record [("backend_url", .text c.backendUrl), ("project", .text c.project),
    ("request_timeout_secs", .count c.requestTimeoutSecs), ("max_panes", .count c.maxPanes),
    ("pane_node_ceiling", .count c.paneNodeCeiling), ("default_mode", c.defaultMode.toJson),
    ("insert_policy", c.insertPolicy.toJson), ("best_path_max_steps", .count c.bestPathMaxSteps),
    ("brush_window_ms", .count c.brushWindowMs),
    ("overview_socket", .optional .text c.overviewSocket), ("auto_sync", .bool c.autoSync)]

/-- A setting as a line of TOML; a number has at most 63 bits. -/
def line? : String × Json → Option String
  | (key, .text s) => some s!"{key} = {Toml.quote s}\n"
  | (key, .bool b) => some s!"{key} = {b}\n"
  | (key, .number (.whole n)) =>
    if n < Toml.Grammar.numberBound then some s!"{key} = {n}\n" else none
  | _ => some ""

/-- The TOML text of the settings, unless a number is too large for it. -/
def text? (c : Config) : Option String :=
  match c.toJson with
  | .record fields => (fields.mapM line?).map String.join
  | _ => none

end Config

def SessionOptions.toJson (o : SessionOptions) : Json :=
  .record [("max_panes", .count o.maxPanes), ("pane_node_ceiling", .count o.paneNodeCeiling),
    ("best_path_max_steps", .count o.bestPathMaxSteps), ("brush_window_ms", .count o.brushWindow),
    ("default_mode", o.defaultMode.toJson), ("insert_policy", o.insertPolicy.toJson),
    ("auto_sync", .bool o.autoSync)]

/-- Everything that follows from the configuration. -/
def Config.report (c : Config) : Json :=
  .record [("config", c.toJson), ("backend_base", .text c.backendBase),
    ("timeout_secs", .count c.timeoutSecs), ("window_ms", .count c.brushWindowMs),
    ("socket", .text (c.socketPath none)), ("options", c.options.toJson)]

end StateAtlas
