import StateAtlas.Model.Node
/-!
Which kinds of nodes a pane shows, counts and projects.
-/

namespace StateAtlas

/-- The kinds of nodes on display. -/
inductive DisplayMode
  | states
  | actions
  | both
deriving DecidableEq, Repr

namespace DisplayMode

instance : Inhabited DisplayMode := ⟨.states⟩

/-- Whether nodes of a kind are on display. -/
def admits : DisplayMode → NodeKind → Bool
  | .states, kind => kind = .state
  | .actions, kind => kind = .action
  | .both, _ => true

/-- The mode's name in data. -/
def name : DisplayMode → String
  | .states => "s"
  | .actions => "t"
  | .both => "s+t"

/-- The mode of that name. -/
def ofName? : String → Option DisplayMode
  | "s" => some .states
  | "t" => some .actions
  | "s+t" => some .both
  | _ => none

/-- The mode that a person asks for, by its name in data or in words. -/
def ofWord? : String → Option DisplayMode
  | "states" => some .states
  | "actions" => some .actions
  | "both" => some .both
  | s => ofName? s

theorem ofName?_name (m : DisplayMode) : ofName? m.name = some m := by
  cases m <;> rfl

theorem ofWord?_name (m : DisplayMode) : ofWord? m.name = some m := by
  cases m <;> rfl

def toJson (m : DisplayMode) : Json := .text m.name

instance : ToJson DisplayMode := ⟨DisplayMode.toJson⟩

def ofJson? : Json → Option DisplayMode := Json.word? ofName?

end DisplayMode

end StateAtlas
