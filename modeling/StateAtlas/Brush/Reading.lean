import StateAtlas.Model.Attribute
/-!
Readings: the values that nodes show on an axis.

Axes are drawn over any type of numbers with the operations of `AxisNumber`.  The order need not
relate every two numbers: a number that is not even below itself is passed over where the least or
the greatest is sought.
-/

namespace StateAtlas

/-- What axes need to know of numbers. -/
class AxisNumber (α : Type) extends Add α, Sub α, Mul α, Div α where
  ofNat : Nat → α
  le : α → α → Bool
  isFinite : α → Bool
  /-- The position in a list that a number names, by its whole part. -/
  index : α → Nat
  label : α → String
  /-- The number that a text is, blanks around it aside. -/
  ofText? : String → Option α

namespace AxisNumber

variable {α : Type} [AxisNumber α]

def lt (a b : α) : Bool := le a b && !le b a

def equal (a b : α) : Bool := le a b && le b a

/-- The lesser of two numbers, the first if they are equal. -/
def least (a b : α) : α := if !le a a || lt b a then b else a

/-- The greater of two numbers, the first if they are equal. -/
def greatest (a b : α) : α := if !le a a || lt a b then b else a

/-- The least of the numbers of a list that are related to themselves. -/
def least? (xs : List α) : Option α :=
  match xs.filter fun x => le x x with
  | [] => none
  | x :: rest => some (rest.foldl least x)

/-- The greatest of the numbers of a list that are related to themselves. -/
def greatest? (xs : List α) : Option α :=
  match xs.filter fun x => le x x with
  | [] => none
  | x :: rest => some (rest.foldl greatest x)

end AxisNumber

instance : AxisNumber Float where
  ofNat := Float.ofNat
  le x y := x ≤ y
  isFinite := Float.isFinite
  index x := x.toUInt64.toNat
  label := Decimal.label
  ofText? := Decimal.ofTrimmed?

/-- The value of a node on one axis. -/
inductive Reading (α : Type)
  | bool (b : Bool)
  | number (x : α)
  | text (s : String)

namespace Reading

variable {α : Type} [AxisNumber α]

/-- The reading as a number, a truth value counting as one or zero. -/
def ordinal? : Reading α → Option α
  | .number x => some x
  | .bool b => some (AxisNumber.ofNat (if b then 1 else 0))
  | .text s => AxisNumber.ofText? s

/-- The reading as it is written on an axis. -/
def label : Reading α → String
  | .bool b => if b then "true" else "false"
  | .number x => AxisNumber.label x
  | .text s => s

omit [AxisNumber α] in
/-- Whether the reading is a truth value. -/
def isBool : Reading α → Bool
  | .bool _ => true
  | _ => false

omit [AxisNumber α] in
/-- Whether the reading is a number. -/
def isNumber : Reading α → Bool
  | .number _ => true
  | _ => false

/-- What an attribute value shows; structured values and numbers that are not finite show
nothing. -/
def ofValue? : AttrValue → Option (Reading Float)
  | .bool b => some (.bool b)
  | .number x => if x.isFinite then some (.number x) else none
  | .text s => some (.text s)
  | .structured _ => none

def toJson : Reading Float → Json
  | .bool b => .bool b
  | .number x => .real x
  | .text s => .text s

instance : ToJson (Reading Float) := ⟨Reading.toJson⟩

def ofJson? : Json → Option (Reading Float)
  | .bool b => some (.bool b)
  | .number n => some (.number n.toFloat)
  | .text s => some (.text s)
  | _ => none

/-- A reading as axes use it. -/
def report (r : Reading Float) : Json :=
  .record [("ordinal", .optional .real r.ordinal?), ("label", .text r.label)]

end Reading

/-- Everything that an inspector shows of an attribute value. -/
def AttrValue.report (v : AttrValue) : Json :=
  let projected (r : Reading Float) : Json :=
    .record [("json", r.toJson), ("ordinal", .optional .real r.ordinal?), ("label", .text r.label)]
  .record [("kind", .text v.kindName), ("f64", .optional .real v.toFloat?),
    ("truthy", .bool v.isTruthy), ("display", .text v.display), ("json", v.toJson),
    ("projected", .optional projected (Reading.ofValue? v))]

end StateAtlas
