import StateAtlas.Graph.Exploration
import StateAtlas.Session.Config
import StateAtlas.Text.Quoted
/-!
The flags of the command line.

Arguments are read from the left: a flag is a switch, or it takes the next argument as its value,
whatever that looks like.  Of a flag that is given twice the last value counts, except that nodes to
expand and to mark add up.
-/

namespace StateAtlas

/-- Why a text is no count. -/
inductive CountError
  | empty
  | invalidDigit
  | tooLarge
deriving DecidableEq, Repr

/-- What a person is told. -/
def CountError.message : CountError → String
  | .empty => "cannot parse integer from empty string"
  | .invalidDigit => "invalid digit found in string"
  | .tooLarge => "number too large to fit in target type"

/-- Why arguments are refused. -/
inductive FlagError
  | missingValue (flag expected : String)
  | invalidMode (value : String)
  | invalidInsert (value : String)
  | invalidDecision (value : String)
  | invalidCount (error : CountError)
  | unknown (argument : String)
deriving DecidableEq, Repr

/-- What a person is told. -/
def FlagError.message : FlagError → String
  | .missingValue flag expected => s!"{flag} expects {expected}"
  | .invalidMode value => s!"invalid mode: {value} (expected s|t|s+t)"
  | .invalidInsert value => s!"invalid insert policy: {value} (expected after|end)"
  | .invalidDecision value =>
    s!"invalid capacity decision: {value} (expected redirect|proceed|cancel)"
  | .invalidCount error => error.message
  | .unknown argument => "unknown argument: " ++ Text.QuoteStyle.argument.quote argument

/-! ## Values -/

/-- How many counts there are. -/
def countBound : Nat := Nat.pow 2 64

/-- Takes in one more character of a count. -/
def countStep (n : Nat) (c : Char) : Except CountError Nat :=
  if '0' ≤ c ∧ c ≤ '9' then
    let n := n * 10 + (c.toNat - 0x30)
    if n < countBound then .ok n else .error .tooLarge
  else .error .invalidDigit

/-- The count that a text is: decimal digits, with or without a plus in front. -/
def readCount (s : String) : Except CountError Nat :=
  match s.toList with
  | [] => .error .empty
  | ['+'] => .error .invalidDigit
  | '+' :: digits => digits.foldlM countStep 0
  | digits => digits.foldlM countStep 0

namespace CapacityDecision

/-- The decision in one word. -/
def name : CapacityDecision → String
  | .redirect => "redirect"
  | .proceed => "proceed"
  | .cancel => "cancel"

/-- The decision of that name. -/
def ofName? : String → Option CapacityDecision
  | "redirect" => some .redirect
  | "proceed" => some .proceed
  | "cancel" => some .cancel
  | _ => none

theorem ofName?_name (d : CapacityDecision) : ofName? d.name = some d := by
  cases d <;> rfl

end CapacityDecision

/-! ## Flags -/

/-- What the arguments ask for.  What is no action overrides the configuration. -/
structure Flags where
  config : Option String := none
  url : Option String := none
  project : Option String := none
  mode : Option DisplayMode := none
  insert : Option InsertPolicy := none
  maxPanes : Option Nat := none
  policy : Option String := none
  /-- The nodes to expand. -/
  expand : List String := []
  /-- For how many steps to follow the best path. -/
  bestPath : Option Nat := none
  onCapacity : CapacityDecision := .redirect
  /-- The nodes to mark. -/
  mark : List String := []
  recurrence : Bool := false
  importPath : Option String := none
  exportPath : Option String := none
  overview : Bool := false
  saveConfig : Bool := false
deriving DecidableEq, Repr, Inhabited

namespace Flags

/-- What a flag does. -/
inductive Action
  | switch (set : Flags → Flags)
  /-- Takes a value, described by `expected`. -/
  | value (expected : String) (set : Flags → String → Except FlagError Flags)

/-- A value that is read in some way. -/
def reading {α : Type} (read : String → Except FlagError α) (set : Flags → α → Flags)
    (f : Flags) (v : String) : Except FlagError Flags := (read v).map (set f)

/-- The value of an option, or an error. -/
def orError {α : Type} (e : String → FlagError) (read : String → Option α) (v : String) :
    Except FlagError α :=
  match read v with
  | some a => .ok a
  | none => .error (e v)

/-- What the flag of a name does. -/
def action? : String → Option Action
  | "--config" => some <| .value "a path" fun f v => .ok { f with config := some v }
  | "--url" => some <| .value "a URL" fun f v => .ok { f with url := some v }
  | "--project" => some <| .value "a project name" fun f v => .ok { f with project := some v }
  | "--mode" => some <| .value "s|t|s+t" <|
    reading (orError .invalidMode DisplayMode.ofWord?) fun f v => { f with mode := some v }
  | "--insert" => some <| .value "after|end" <|
    reading (orError .invalidInsert InsertPolicy.ofWord?) fun f v => { f with insert := some v }
  | "--max-panes" => some <| .value "a count" <|
    reading (fun v => (readCount v).mapError .invalidCount) fun f v => { f with maxPanes := some v }
  | "--policy" => some <| .value "a scheduler name" fun f v => .ok { f with policy := some v }
  | "--expand" => some <| .value "a node id" fun f v => .ok { f with expand := f.expand ++ [v] }
  | "--best-path" => some <| .value "a step count" <|
    reading (fun v => (readCount v).mapError .invalidCount) fun f v => { f with bestPath := some v }
  | "--on-capacity" => some <| .value "redirect|proceed|cancel" <|
    reading (orError .invalidDecision CapacityDecision.ofName?) fun f v =>
      { f with onCapacity := v }
  | "--mark" => some <| .value "a node id" fun f v => .ok { f with mark := f.mark ++ [v] }
  | "--recurrence" => some <| .switch fun f => { f with recurrence := true }
  | "--import" => some <| .value "a path" fun f v => .ok { f with importPath := some v }
  | "--export" => some <| .value "a path" fun f v => .ok { f with exportPath := some v }
  | "--overview" => some <| .switch fun f => { f with overview := true }
  | "--save-config" => some <| .switch fun f => { f with saveConfig := true }
  | _ => none

/-- Takes in arguments from the left. -/
def readFrom (f : Flags) : List String → Except FlagError Flags
  | [] => .ok f
  | arg :: rest =>
    match action? arg, rest with
    | none, _ => .error (.unknown arg)
    | some (.switch set), rest => readFrom (set f) rest
    | some (.value expected _), [] => .error (.missingValue arg expected)
    | some (.value _ set), v :: rest =>
      match set f v with
      | .ok f => readFrom f rest
      | .error e => .error e

/-- The flags that arguments are. -/
def ofArguments (args : List String) : Except FlagError Flags := readFrom {} args

/-- The configuration with what the flags override.  The overview needs a socket. -/
def apply (f : Flags) (c : Config) (runtimeDir : Option String) : Config :=
  { c with
    backendUrl := f.url.getD c.backendUrl
    project := f.project.getD c.project
    defaultMode := f.mode.getD c.defaultMode
    insertPolicy := f.insert.getD c.insertPolicy
    maxPanes := f.maxPanes.getD c.maxPanes
    overviewSocket := if f.overview then some (c.socketPath runtimeDir) else c.overviewSocket }

def toJson (f : Flags) : Json :=
  .record [("config", .optional .text f.config), ("url", .optional .text f.url),
    ("project", .optional .text f.project), ("mode", .optional DisplayMode.toJson f.mode),
    ("insert", .optional InsertPolicy.toJson f.insert), ("max_panes", .optional .count f.maxPanes),
    ("policy", .optional .text f.policy), ("expand", .texts f.expand),
    ("best_path", .optional .count f.bestPath), ("on_capacity", .text f.onCapacity.name),
    ("mark", .texts f.mark), ("recurrence", .bool f.recurrence),
    ("import", .optional .text f.importPath), ("export", .optional .text f.exportPath),
    ("overview", .bool f.overview), ("save_config", .bool f.saveConfig)]

end Flags

end StateAtlas
