import StateAtlas.Dictionary
import StateAtlas.Json.Basic
/-!
Reading typed data out of JSON values.

A structure is read from a record, whose unknown fields are passed over, or from the list of its
fields in their declared order, which may stop early.  Naming a known field twice in a record is an
error.  Every reader answers `none` when the value has the wrong shape.
-/

namespace StateAtlas.Json

/-- The fields of a structure by name. -/
abbrev Fields := String → Option Json

/-- The fields of a structure with the given field names. -/
def fields? (names : List String) : Json → Option Fields
  | .record fields =>
    if names.all fun n => (fields.filter fun f => f.1 = n).length ≤ 1 then
      some fun n => if n ∈ names then (fields.find? fun f => f.1 = n).map Prod.snd else none
    else none
  | .list items =>
    if items.length ≤ names.length then
      some fun n => ((names.zip items).find? fun f => f.1 = n).map Prod.snd
    else none
  | _ => none

variable {α : Type}

/-- A field that has to be there. -/
def required (read : Json → Option α) (j : Option Json) : Option α := j.bind read

/-- A field that stands for `fallback` when it is missing. -/
def orElse (fallback : α) (read : Json → Option α) : Option Json → Option α
  | none => some fallback
  | some j => read j

/-- A value or `null`. -/
def nullable (read : Json → Option α) : Json → Option (Option α)
  | .null => some none
  | j => (read j).map some

/-- A field that may be missing or `null`. -/
def maybe (read : Json → Option α) : Option Json → Option (Option α) := orElse none (nullable read)

/-- A truth value. -/
def bool? : Json → Option Bool
  | .bool b => some b
  | _ => none

/-- A text. -/
def text? : Json → Option String
  | .text s => some s
  | _ => none

/-- A double; whole numbers are taken as doubles. -/
def float? : Json → Option Float
  | .number n => some n.toFloat
  | _ => none

/-- A double as `Json.real` writes it. -/
def real? : Json → Option Float
  | .text "NaN" => some (0 / 0)
  | .text "inf" => some (1 / 0)
  | .text "-inf" => some (-1 / 0)
  | j => j.float?

/-- A count below `2 ^ bits`. -/
def count? (bits : Nat) : Json → Option Nat
  | .number (.whole n) => if 0 ≤ n ∧ n < Nat.pow 2 bits then some n.toNat else none
  | _ => none

/-- A list. -/
def list? (read : Json → Option α) : Json → Option (List α)
  | .list items => items.mapM read
  | _ => none

/-- A dictionary; of two entries under one key the later counts. -/
def dictionary? (read : Json → Option α) : Json → Option (Dictionary String α)
  | .record fields => (fields.mapM fun f => (read f.2).map fun v => (f.1, v)).map .ofList
  | _ => none

/-- One of a fixed set of words, as a text or as the only key of a record with nothing under it. -/
def word? (read : String → Option α) : Json → Option α
  | .text s => read s
  | .record [(s, .null)] => read s
  | _ => none

/-- The record of a dictionary. -/
def ofDictionary (write : α → Json) (d : Dictionary String α) : Json :=
  .record (d.entries.map fun e => (e.1, write e.2))

end StateAtlas.Json
