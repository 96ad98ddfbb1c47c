import StateAtlas.Brush.Scale
/-!
Constraints on one dimension, and the state of a brush that can be copied and stored.
-/

namespace StateAtlas

/-- Which readings a brush admits on one dimension, in domain units. -/
inductive Constraint (α : Type)
  /-- The readings whose number lies between two bounds.  A pinned range is kept even if it has no
  width. -/
  | range (lo hi : α) (pinned : Bool)
  /-- The readings with one of some labels. -/
  | categories (values : OrderedSet String)

namespace Constraint

variable {α : Type} [AxisNumber α]

open AxisNumber

/-- The range between two numbers, given in any order. -/
def between (a b : α) : Constraint α := .range (least a b) (greatest a b) false

omit [AxisNumber α] in
/-- The readings with one of the given labels. -/
def oneOf (values : List String) : Constraint α := .categories (.ofList values)

/-- Whether a reading is admitted. -/
def admits : Constraint α → Reading α → Bool
  | .range lo hi _, r => r.ordinal?.any fun v => le lo v && le v hi
  | .categories values, r => values.contains r.label

def toJson : Constraint Float → Json
  | .range lo hi pinned =>
    .record [("kind", .text "range"), ("lo", .real lo), ("hi", .real hi), ("pinned", .bool pinned)]
  | .categories values =>
    .record [("kind", .text "categories"), ("values", .texts values.toList)]

instance : ToJson (Constraint Float) := ⟨Constraint.toJson⟩

/-- The parts of a constraint of a kind, from a record or from a list. -/
def ofParts? (kind : String) (parts : Json) : Option (Constraint Float) :=
  match kind with
  | "range" => do
    let f ← parts.fields? ["lo", "hi", "pinned"]
    let lo ← Json.required Json.float? (f "lo")
    let hi ← Json.required Json.float? (f "hi")
    let pinned ← Json.orElse false Json.bool? (f "pinned")
    some (.range lo hi pinned)
  | "categories" => do
    let f ← parts.fields? ["values"]
    let values ← Json.required (Json.list? Json.text?) (f "values")
    some (.oneOf values)
  | _ => none

/-- A constraint names its kind among its parts, or in front of them in a list. -/
def ofJson? (j : Json) : Option (Constraint Float) :=
  if j.isReadable then
    match j with
    | .list (.text kind :: parts) => ofParts? kind (.list parts)
    | j => do
      let f ← j.fields? ["kind"]
      let kind ← Json.required Json.text? (f "kind")
      match j with
      | .record _ => ofParts? kind j
      | _ => none
  else none

end Constraint

/-- The constraints of a brush by dimension key, and the display order of the dimensions. -/
structure BrushState (α : Type) where
  constraints : Dictionary String (Constraint α) := {}
  order : List String := []

namespace BrushState

instance {α : Type} : Inhabited (BrushState α) := ⟨{}⟩

def toJson (s : BrushState Float) : Json :=
  .record [("constraints", Json.ofDictionary Constraint.toJson s.constraints),
    ("order", .texts s.order)]

instance : ToJson (BrushState Float) := ⟨BrushState.toJson⟩

def ofJson? (j : Json) : Option (BrushState Float) := do
  let f ← j.fields? ["constraints", "order"]
  let constraints ← Json.orElse {} (Json.dictionary? Constraint.ofJson?) (f "constraints")
  let order ← Json.orElse [] (Json.list? Json.text?) (f "order")
  some { constraints, order }

end BrushState

end StateAtlas
