import StateAtlas.Brush.Constraint
import StateAtlas.Brush.Details
import StateAtlas.Graph.Store
import StateAtlas.Sync.Debounce
/-!
The brush of one pane: rows of readings, dimensions, constraints, and the selected rows.

Projecting a pane's nodes rebuilds the rows and the dimensions; the constraints and the display
order of the dimensions outlive it.  The selection holds the rows that every constraint admits, as
of the last time it was recomputed.
-/

namespace StateAtlas

/-- A node as the brush sees it: its readings by category and name. -/
structure Profile (α : Type) where
  id : NodeId
  kind : NodeKind
  readings : List (String × String × Reading α)

/-- The enabled attributes of a node that show something. -/
def Node.profile (n : Node) (details : DetailSelection) : Profile Float :=
  { id := n.id
    kind := n.kind
    readings := n.attributes.toList.filterMap fun (category, name, value) =>
      if details.isEnabled category name then
        (Reading.ofValue? value).map fun r => (category, name, r)
      else none }

/-- A node with its readings by dimension key. -/
structure Row (α : Type) where
  id : NodeId
  kind : NodeKind
  values : Dictionary String (Reading α)

namespace Row

/-- The row of a profile. -/
def ofProfile {α : Type} (p : Profile α) : Row α :=
  { id := p.id
    kind := p.kind
    values := .ofList (p.readings.map fun (category, name, r) => (dimensionKey category name, r)) }

def toJson (r : Row Float) : Json :=
  .record [("id", r.id.toJson), ("kind", r.kind.toJson),
    ("values", Json.ofDictionary Reading.toJson r.values)]

def ofJson? (j : Json) : Option (Row Float) := do
  let f ← j.fields? ["id", "kind", "values"]
  let id ← Json.required NodeId.ofJson? (f "id")
  let kind ← Json.required NodeKind.ofJson? (f "kind")
  let values ← Json.required (Json.dictionary? Reading.ofJson?) (f "values")
  some { id, kind, values }

end Row

/-- The selected rows of one pane, in the order of its store. -/
structure LinkedSelection (α : Type) where
  pane : PaneId
  rows : List (Row α)

namespace LinkedSelection

/-- The names of the selected nodes. -/
def ids {α : Type} (l : LinkedSelection α) : List NodeId := l.rows.map Row.id

def toJson (l : LinkedSelection Float) : Json :=
  .record [("pane", l.pane.toJson), ("selection", .list (l.rows.map Row.toJson))]

instance : ToJson (LinkedSelection Float) := ⟨LinkedSelection.toJson⟩

def ofJson? (j : Json) : Option (LinkedSelection Float) := do
  let f ← j.fields? ["pane", "selection"]
  let pane ← Json.required PaneId.ofJson? (f "pane")
  let rows ← Json.required (Json.list? Row.ofJson?) (f "selection")
  some { pane, rows }

end LinkedSelection

/-- Which end of a dimension to select. -/
inductive Extreme
  | least
  | greatest
deriving DecidableEq, Repr

/-- Multivariate brushing over the nodes of one pane. -/
structure Brush (α : Type) where
  pane : PaneId
  state : BrushState α := {}
  /-- The dimensions, in the order in which the rows first show them. -/
  dimensions : List (Dimension α) := []
  rows : List (Row α) := []
  /-- The rows selected at the last recomputation. -/
  selected : List NodeId := []
  /-- The length of the axes in pixels. -/
  axisLength : α
  debounce : Debounce

namespace Brush

variable {α : Type} [AxisNumber α]

/-- A brush without rows. -/
def start (pane : PaneId) (state : BrushState α) (window : Nat) : Brush α :=
  { pane, state, axisLength := AxisNumber.ofNat 1, debounce := { window } }

/-! ## Dimensions by name -/

omit [AxisNumber α] in
/-- The dimension of a key, or else the only one with that bare name. -/
def dimension? (b : Brush α) (name : String) : Option (Dimension α) :=
  match b.dimensions.find? fun d => d.key = name with
  | some d => some d
  | none =>
    match b.dimensions.filter fun d => d.name = name with
    | [d] => some d
    | _ => none

omit [AxisNumber α] in
/-- The key of the dimension that a name means; the name itself if it means none. -/
def keyFor (b : Brush α) (name : String) : String :=
  ((b.dimension? name).map Dimension.key).getD name

omit [AxisNumber α] in
/-- The dimensions in display order. -/
def displayed (b : Brush α) : List (Dimension α) :=
  b.state.order.filterMap fun key => b.dimensions.find? fun d => d.key = key

omit [AxisNumber α] in
/-- The constraint on the dimension that a name means. -/
def constraint? (b : Brush α) (name : String) : Option (Constraint α) :=
  b.state.constraints.get? (b.keyFor name)

omit [AxisNumber α] in
/-- The keys of constraints that mean no dimension. -/
def mismatches (b : Brush α) : List String :=
  b.state.constraints.keys.filter fun key => (b.dimension? key).isNone

/-! ## The selection -/

/-- Whether every constraint admits a row. -/
def admitsRow (b : Brush α) (r : Row α) : Bool :=
  b.state.constraints.entries.all fun (key, c) => (r.values.get? key).any c.admits

/-- The brush with its selection brought up to date. -/
def recompute (b : Brush α) : Brush α :=
  { b with
    debounce := b.debounce.settle
    selected := (b.rows.filter b.admitsRow).map Row.id }

omit [AxisNumber α] in
/-- The selected rows. -/
def linked (b : Brush α) : LinkedSelection α :=
  ⟨b.pane, b.rows.filter fun r => b.selected.contains r.id⟩

/-! ## Projection -/

/-- Adds the keys of dimensions that the display order lacks. -/
def orderDimensions (dimensions : List (Dimension α)) (order : List String) : List String :=
  dimensions.foldl (fun order d => if order.contains d.key then order else order ++ [d.key]) order

/-- Replaces the bare name `old` by the key of the dimension that it means, in the constraints and
in the display order. -/
def qualify (s : BrushState α) (old key : String) : BrushState α :=
  let constraints := match s.constraints.get? old with
    | some c => (s.constraints.erase old).insertIfNew key c
    | none => s.constraints
  let order := if s.order.contains key then s.order.filter fun k => k ≠ old
    else s.order.replace old key
  { constraints, order }

omit [AxisNumber α] in
/-- The bare names that the state uses for dimensions, each with the key it means. -/
def bareNames (b : Brush α) : List (String × String) :=
  (b.state.constraints.keys ++ b.state.order).filterMap fun name =>
    (b.dimension? name).bind fun d => if d.key = name then none else some (name, d.key)

/-- The brush with a state whose names are keys and whose order holds every dimension. -/
def adopt (b : Brush α) (state : BrushState α) : Brush α :=
  let b := { b with state }
  let state := b.bareNames.foldl (fun s (old, key) => qualify s old key) b.state
  { b with state := { state with order := orderDimensions b.dimensions state.order } }

/-- The axis of an attribute over the rows that show it. -/
def dimensionOf (rows : List (Row α)) (declared : Option (AxisDeclaration α))
    (category name : String) : Dimension α :=
  let observed := rows.filterMap fun r => r.values.get? (dimensionKey category name)
  let kind := (declared.bind AxisDeclaration.kind).getD (.infer observed)
  let scale := match kind with
    | .numeric => .numeric (observed.filterMap Reading.ordinal?) (declared.getD {})
    | .boolean => .boolean
    | .nominal => .point (observed.map Reading.label).eraseDups
  { name, category, kind, scale }

/-- The attributes that profiles show, each key once, in first-seen order. -/
def declaredBy (profiles : List (Profile α)) : List (String × String) :=
  (profiles.flatMap Profile.readings).foldl (fun seen (category, name, _) =>
    if seen.any fun (c, n) => dimensionKey c n = dimensionKey category name then seen
    else seen ++ [(category, name)]) []

/-- Rebuilds rows and dimensions from profiles, and the selection from them. -/
def project (b : Brush α) (profiles : List (Profile α))
    (declared : String → String → Option (AxisDeclaration α)) : Brush α :=
  let rows := profiles.map Row.ofProfile
  let dimensions := (declaredBy profiles).map fun (category, name) =>
    dimensionOf rows (declared category name) category name
  ({ b with rows, dimensions }.adopt b.state).recompute

/-- Projects the nodes of a store that a mode admits. -/
def projectStore (b : Brush Float) (s : Store) (mode : DisplayMode) (details : DetailSelection)
    (schema : Schema) : Brush Float :=
  b.project ((s.nodes.filter fun n => mode.admits n.kind).map fun n => n.profile details)
    fun category name => (schema.find? category name).map Declaration.axis

/-- Takes over a stored state. -/
def replaceState (b : Brush α) (state : BrushState α) : Brush α := (b.adopt state).recompute

/-! ## The predicate on nodes -/

/-- A node's attribute under a key, or under a bare name in the first category that has it. -/
def valueOf? (n : Node) (key : String) : Option AttrValue :=
  let qualified := match key.toList.span (· ≠ '/') with
    | (category, _ :: name) => n.attributes.find? (String.ofList category) (String.ofList name)
    | (_, []) => none
  match qualified with
  | some v => some v
  | none => n.attributes.values.findSome? fun attrs => attrs.get? key

/-- Whether every constraint admits a node. -/
def matchesNode (b : Brush Float) (n : Node) : Bool :=
  b.state.constraints.entries.all fun (key, c) =>
    ((valueOf? n key).bind Reading.ofValue?).any c.admits

end Brush

end StateAtlas
