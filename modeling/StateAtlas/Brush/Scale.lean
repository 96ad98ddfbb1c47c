import StateAtlas.Brush.Reading
import StateAtlas.Model.Schema
/-!
Axes: the kinds of dimensions and the scales that place readings on them.

Positions run from 0 to 1.  A linear scale has its greatest value at 0 and its least at 1; a point
scale spaces its values evenly, leaving as much room at the two ends as between neighbours.
-/

namespace StateAtlas

/-- How the readings of a dimension are laid out. -/
inductive DimensionKind
  | nominal
  | boolean
  | numeric
deriving DecidableEq, Repr, Inhabited

namespace DimensionKind

/-- The kind that a declared type asks for, if it is one of the known types. -/
def ofType? : String → Option DimensionKind
  | "number" | "numeric" | "int" | "float" | "double" => some .numeric
  | "boolean" | "bool" => some .boolean
  | "string" | "nominal" | "enum" => some .nominal
  | _ => none

/-- The kind that readings ask for: boolean or numeric if all of them are, nominal otherwise. -/
def infer {α : Type} (readings : List (Reading α)) : DimensionKind :=
  if readings.isEmpty then .nominal
  else if readings.all Reading.isBool then .boolean
  else if readings.all Reading.isNumber then .numeric
  else .nominal

/-- The kind in one word. -/
def name : DimensionKind → String
  | .nominal => "nominal"
  | .boolean => "boolean"
  | .numeric => "numeric"

end DimensionKind

/-- What the schema says of an axis. -/
structure AxisDeclaration (α : Type) where
  kind : Option DimensionKind := none
  lower : Option α := none
  upper : Option α := none

/-- What the declaration of an attribute says of its axis. -/
def Declaration.axis (d : Declaration) : AxisDeclaration Float :=
  ⟨d.type.bind DimensionKind.ofType?, d.lower?, d.upper?⟩

/-- Everything that an inspector shows of a declaration. -/
def Declaration.report (d : Declaration) : Json :=
  .record [("json", d.toJson), ("min", .optional .real d.lower?), ("max", .optional .real d.upper?),
    ("ready", .bool d.isReady), ("kind", .of (d.axis.kind.map DimensionKind.name))]

/-- Where readings stand on an axis. -/
inductive Scale (α : Type)
  | linear (lo hi : α)
  | point (values : List String)

/-- What an interval of positions covers. -/
inductive Covered (α : Type)
  | range (lo hi : α)
  | values (values : List String)

namespace Scale

variable {α : Type} [AxisNumber α]

open AxisNumber

/-- The linear scale of observed numbers.  Declared bounds go before the observed extent; a domain
of width zero is widened by one, and zero always belongs to the domain. -/
def numeric (observed : List α) (declared : AxisDeclaration α) : Scale α :=
  let zero : α := ofNat 0
  let lo := declared.lower.getD ((least? observed).getD zero)
  let hi := declared.upper.getD ((greatest? observed).getD zero)
  let (lo, hi) := if lt hi lo then (hi, lo) else (lo, hi)
  let hi := if equal lo hi then hi + ofNat 1 else hi
  .linear (least lo zero) (greatest hi zero)

omit [AxisNumber α] in
/-- The scale of the two truth values. -/
def boolean : Scale α := .point ["false", "true"]

/-- The position of the `i`-th of `n` points. -/
def pointAt (i n : Nat) : α := ofNat (i + 1) / ofNat (n + 1)

/-- The position of a number on a linear scale. -/
def positionOf? : Scale α → α → Option α
  | .linear lo hi, v => some ((hi - v) / (hi - lo))
  | .point _, _ => none

/-- The position of a label on a point scale. -/
def pointPosition? : Scale α → String → Option α
  | .point values, label => (values.idxOf? label).map fun i => pointAt i values.length
  | .linear _ _, _ => none

/-- The position of a reading. -/
def position? (scale : Scale α) (r : Reading α) : Option α :=
  match scale with
  | .linear _ _ => r.ordinal?.bind scale.positionOf?
  | .point _ => scale.pointPosition? r.label

/-- What lies between two positions, given in any order. -/
def invert (scale : Scale α) (a b : α) : Covered α :=
  let (p, q) := if le a b then (a, b) else (b, a)
  match scale with
  | .linear lo hi =>
    let span := hi - lo
    .range (hi - q * span) (hi - p * span)
  | .point values =>
    .values ((values.zipIdx.filter fun (_, i) =>
      let at_ : α := pointAt i values.length
      le p at_ && le at_ q).map Prod.fst)

omit [AxisNumber α] in
/-- The ends of a linear scale. -/
def domain? : Scale α → Option (α × α)
  | .linear lo hi => some (lo, hi)
  | .point _ => none

omit [AxisNumber α] in
/-- The values of a point scale. -/
def points? : Scale α → Option (List String)
  | .point values => some values
  | .linear _ _ => none

end Scale

/-- One axis: an attribute, by category and name, and how it is laid out. -/
structure Dimension (α : Type) where
  name : String
  category : String
  kind : DimensionKind
  scale : Scale α

/-- The key of an attribute's axis. -/
def dimensionKey (category name : String) : String := category ++ "/" ++ name

/-- The key of the axis. -/
def Dimension.key {α : Type} (d : Dimension α) : String := dimensionKey d.category d.name

def Dimension.toJson (d : Dimension Float) : Json :=
  .record [("key", .text d.key), ("name", .text d.name), ("category", .text d.category),
    ("kind", .text d.kind.name),
    ("domain", .optional (fun (lo, hi) => .list [.real lo, .real hi]) d.scale.domain?),
    ("points", .optional .texts d.scale.points?)]

instance : ToJson (Dimension Float) := ⟨Dimension.toJson⟩

end StateAtlas
