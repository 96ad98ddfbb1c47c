import StateAtlas.Decimal.Reading
import StateAtlas.Json.Printer
import StateAtlas.Model.Id
/-!
Attribute values and the names of the categories and propositions that have a meaning of their
own.
-/

namespace StateAtlas

/-! ## Reserved names -/

namespace Category

/-- Results of model checking. -/
def results : String := "Model Checking Results"

/-- Atomic propositions that hold in a state. -/
def propositions : String := "Atomic Propositions"

/-- The variables of the model. -/
def variableValues : String := "Variable Values"

/-- Data about the data; projected only on request. -/
def metadata : String := "metadata"

end Category

namespace Proposition

/-- Holds in initial states. -/
def init : String := "init"

/-- Holds in states without successors. -/
def deadlock : String := "deadlock"

/-- Holds in the states where a run ends. -/
def finished : String := "finished"

end Proposition

/-! ## Values -/

/-- The value of one attribute of a node. -/
inductive AttrValue
  | bool (b : Bool)
  | number (x : Float)
  | text (s : String)
  /-- A value with parts, such as a distribution. -/
  | structured (j : Json)

instance : Inhabited AttrValue := ⟨.bool false⟩

/-- The attributes of a node: category, then name, then value. -/
abbrev Attributes := Dictionary String (Dictionary String AttrValue)

namespace AttrValue

/-- The value as a number, a truth value counting as one or zero. -/
def toFloat? : AttrValue → Option Float
  | .number x => some x
  | .bool b => some (if b then 1 else 0)
  | .text s => Decimal.ofTrimmed? s
  | .structured _ => none

/-- Whether the value says yes: `true`, a number other than zero, the text `true`, or a structured
value whose part `value` is `true`. -/
def isTruthy : AttrValue → Bool
  | .bool b => b
  | .number x => x != 0
  | .text s => s = "true"
  | .structured j =>
    match j.get? "value" with
    | some (.bool b) => b
    | _ => false

/-- The value as a person reads it. -/
def display : AttrValue → String
  | .bool b => if b then "true" else "false"
  | .number x => Decimal.label x
  | .text s => s
  | .structured j => j.compact

/-- The kind of the value in one word. -/
def kindName : AttrValue → String
  | .bool _ => "bool"
  | .number _ => "number"
  | .text _ => "text"
  | .structured _ => "other"

def toJson : AttrValue → Json
  | .bool b => .bool b
  | .number x => .number (.real x)
  | .text s => .text s
  | .structured j => j

instance : ToJson AttrValue := ⟨AttrValue.toJson⟩

/-- Every readable JSON value is an attribute value; numbers are doubles. -/
def ofJson? : Json → Option AttrValue
  | .bool b => some (.bool b)
  | .number n => some (.number n.toFloat)
  | .text s => some (.text s)
  | j => if j.isReadable then some (.structured j.canonical) else none

end AttrValue

namespace Attributes

/-- The value under a category and a name. -/
def find? (a : Attributes) (category name : String) : Option AttrValue :=
  (a.get? category).bind fun attrs => attrs.get? name

/-- All attributes as category, name and value, in the order of category and name. -/
def toList (a : Attributes) : List (String × String × AttrValue) :=
  a.entries.flatMap fun c => c.2.entries.map fun e => (c.1, e.1, e.2)

theorem mem_toList_iff {a : Attributes} {category name : String} {v : AttrValue} :
    (category, name, v) ∈ a.toList ↔ a.find? category name = some v := by
  rw [toList, find?, List.mem_flatMap, Option.bind_eq_some_iff]
  constructor
  · rintro ⟨⟨c, attrs⟩, hattrs, hmem⟩
    obtain ⟨⟨n, w⟩, hw, heq⟩ := List.mem_map.1 hmem
    cases heq
    exact ⟨attrs, Dictionary.get?_eq_some_iff.2 hattrs, Dictionary.get?_eq_some_iff.2 hw⟩
  · rintro ⟨attrs, hattrs, hv⟩
    exact ⟨(category, attrs), Dictionary.get?_eq_some_iff.1 hattrs,
      List.mem_map.2 ⟨(name, v), Dictionary.get?_eq_some_iff.1 hv, rfl⟩⟩

def toJson (a : Attributes) : Json := Json.ofDictionary (Json.ofDictionary AttrValue.toJson) a

def ofJson? : Json → Option Attributes := Json.dictionary? (Json.dictionary? AttrValue.ofJson?)

end Attributes

end StateAtlas
