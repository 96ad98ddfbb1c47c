import StateAtlas.Model.Attribute
/-!
What the backend declares about attributes: their type, their bounds and whether they are ready.
-/

namespace StateAtlas

/-- The declaration of one attribute. -/
structure Declaration where
  type : Option String := none
  /-- Declared bounds come as numbers or as texts such as `Infinity`. -/
  min : Option Json := none
  max : Option Json := none
  status : Option String := none
deriving Inhabited

/-- The declared attributes: category, then name, then declaration. -/
abbrev Schema := Dictionary String (Dictionary String Declaration)

namespace Declaration

/-- A declared bound, if it is a finite number. -/
def finite? : Option Json → Option Float
  | some (.number n) => if n.toFloat.isFinite then some n.toFloat else none
  | some (.text s) => (Decimal.ofText? s).filter Float.isFinite
  | _ => none

/-- The lower bound, if it is finite. -/
def lower? (d : Declaration) : Option Float := finite? d.min

/-- The upper bound, if it is finite. -/
def upper? (d : Declaration) : Option Float := finite? d.max

/-- Whether the attribute's values can be used; they can unless the status says otherwise. -/
def isReady (d : Declaration) : Bool := d.status.all (· = "ready")

/-- A declared bound: any readable value, `null` meaning none. -/
def bound? : Json → Option (Option Json) :=
  Json.nullable fun j => if j.isReadable then some j.canonical else none

def toJson (d : Declaration) : Json :=
  .record <| (d.type.toList.map fun s => ("type", .text s)) ++
    (d.min.toList.map fun j => ("min", j)) ++ (d.max.toList.map fun j => ("max", j)) ++
    (d.status.toList.map fun s => ("status", .text s))

instance : ToJson Declaration := ⟨Declaration.toJson⟩

def ofJson? (j : Json) : Option Declaration := do
  let f ← j.fields? ["type", "min", "max", "status"]
  let type ← Json.maybe Json.text? (f "type")
  let min ← Json.orElse none bound? (f "min")
  let max ← Json.orElse none bound? (f "max")
  let status ← Json.maybe Json.text? (f "status")
  some { type, min, max, status }

end Declaration

namespace Schema

/-- The declaration under a category and a name. -/
def find? (s : Schema) (category name : String) : Option Declaration :=
  (s.get? category).bind fun attrs => attrs.get? name

/-- The declarations of `s` put over those of `base`, attribute by attribute. -/
def overlay (base s : Schema) : Schema :=
  s.entries.foldl (fun out c => out.update c.1 {} fun attrs => attrs.override c.2) base

def toJson (s : Schema) : Json := Json.ofDictionary (Json.ofDictionary Declaration.toJson) s

def ofJson? : Json → Option Schema := Json.dictionary? (Json.dictionary? Declaration.ofJson?)

end Schema

/-- The backend's description of a project. -/
structure Project where
  id : Option String := none
  states : Schema := {}
  actions : Schema := {}
deriving Inhabited

namespace Project

/-- All declared attributes; where states and actions declare the same one the states' counts. -/
def schema (p : Project) : Schema := p.actions.overlay p.states

def toJson (p : Project) : Json :=
  .record <| (p.id.toList.map fun s => ("id", .text s)) ++
    [("s", p.states.toJson), ("t", p.actions.toJson)]

instance : ToJson Project := ⟨Project.toJson⟩

def ofJson? (j : Json) : Option Project := do
  let f ← j.fields? ["id", "s", "t"]
  let id ← Json.maybe Json.text? (f "id")
  let states ← Json.orElse {} Schema.ofJson? (f "s")
  let actions ← Json.orElse {} Schema.ofJson? (f "t")
  some { id, states, actions }

/-- The project described by an answer to a status request. -/
def ofStatus? (j : Json) : Option Project := do
  let f ← j.fields? ["info"]
  Json.orElse {} ofJson? (f "info")

end Project

end StateAtlas
