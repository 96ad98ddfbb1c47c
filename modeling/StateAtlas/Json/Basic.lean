import StateAtlas.Decimal.Layout
/-!
JSON values.

A number is either a whole number of at most 64 bits or a double; the two are written differently
and both can be read where a double is wanted.  A record keeps its fields in the order in which
they were written, repeated keys included: who reads a record decides what a repetition means.

`Json.unreadable` stands for a piece of JSON text that is well formed but has no value, such as a
text with half a surrogate pair.  Text with such a piece is still accepted where nobody looks at
the piece.
-/

namespace StateAtlas

/-- A JSON number. -/
inductive Json.Number
  | whole (n : Int)
  | real (x : Float)

/-- A JSON value. -/
inductive Json
  | null
  | bool (b : Bool)
  | number (n : Json.Number)
  | text (s : String)
  | list (items : List Json)
  | record (fields : List (String × Json))
  /-- Well-formed text without a value. -/
  | unreadable

instance : Inhabited Json := ⟨.null⟩

namespace Json

/-- The double that a number stands for. -/
def Number.toFloat : Number → Float
  | .whole n => Float.ofInt n
  | .real x => x

/-- A whole number as a value. -/
def whole (n : Int) : Json := .number (.whole n)

/-- A count as a value. -/
def count (n : Nat) : Json := whole n

/-- A double as a value; doubles that are no numbers are named by a text. -/
def real (x : Float) : Json :=
  if x.isFinite then .number (.real x) else .text (Decimal.label x)

/-- A list of texts. -/
def texts (ss : List String) : Json := .list (ss.map .text)

/-- The value of an optional part, `null` where it is missing. -/
def optional {α : Type} (f : α → Json) : Option α → Json
  | none => .null
  | some a => f a

/-- A failure as a value: its kind and what a person is told of it. -/
def failure (kind : String) (message : Option String := none) : Json :=
  .record (("error", .text kind) :: message.toList.map fun m => ("message", .text m))

/-- The last value under a key of a record. -/
def get? : Json → String → Option Json
  | .record fields, key => (fields.reverse.find? fun f => f.1 = key).map Prod.snd
  | _, _ => none

mutual

/-- Whether every piece has a value. -/
def isReadable : Json → Bool
  | .list items => allReadable items
  | .record fields => allFieldsReadable fields
  | .unreadable => false
  | _ => true

def allReadable : List Json → Bool
  | [] => true
  | j :: rest => isReadable j && allReadable rest

def allFieldsReadable : List (String × Json) → Bool
  | [] => true
  | (_, j) :: rest => isReadable j && allFieldsReadable rest

end

/-- Puts a field into a list of fields sorted by key, over a field of that key. -/
def putField (key : String) (value : Json) : List (String × Json) → List (String × Json)
  | [] => [(key, value)]
  | f :: rest =>
    if key < f.1 then (key, value) :: f :: rest
    else if key = f.1 then (key, value) :: rest
    else f :: putField key value rest

mutual

/-- The value with the fields of every record sorted by key; of repeated fields the last counts. -/
def canonical : Json → Json
  | .list items => .list (canonicalEach items)
  | .record fields => .record (canonicalFields fields [])
  | j => j

def canonicalEach : List Json → List Json
  | [] => []
  | j :: rest => canonical j :: canonicalEach rest

def canonicalFields : List (String × Json) → List (String × Json) → List (String × Json)
  | [], done => done
  | (key, j) :: rest, done => canonicalFields rest (putField key (canonical j) done)

end

end Json

/-! ## Values as JSON -/

/-- Types whose values are written as JSON. -/
class ToJson (α : Type) where
  toJson : α → Json

/-- A value as JSON. -/
def Json.of {α : Type} [ToJson α] (a : α) : Json := ToJson.toJson a

instance : ToJson Json := ⟨id⟩
instance : ToJson Bool := ⟨.bool⟩
instance : ToJson Nat := ⟨.count⟩
instance : ToJson Float := ⟨.real⟩
instance : ToJson String := ⟨.text⟩

/-- What is missing is `null`. -/
instance {α : Type} [ToJson α] : ToJson (Option α) := ⟨.optional Json.of⟩

instance {α : Type} [ToJson α] : ToJson (List α) := ⟨fun items => .list (items.map Json.of)⟩

/-- A pair is a list of two. -/
instance {α β : Type} [ToJson α] [ToJson β] : ToJson (α × β) := ⟨fun p => .list [.of p.1, .of p.2]⟩

end StateAtlas
