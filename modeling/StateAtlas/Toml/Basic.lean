import StateAtlas.Json.Basic
/-!
TOML values, and the rules for what may be added to a table once it was begun.

A table remembers how it came to be, because that decides who may add to it: a table that was
written out in braces is complete; one with a header of its own can be extended by headers of
subtables only; one that exists because a longer header or a dotted key passed through it is still
open.
-/

namespace StateAtlas

namespace Toml

/-- How a table came to be. -/
inductive Origin
  /-- Written out in braces. -/
  | inBraces
  /-- Begun by a header of its own. -/
  | header
  /-- Passed through by a longer header. -/
  | throughHeader
  /-- Passed through by a dotted key. -/
  | throughKey
deriving DecidableEq, Repr

end Toml

/-- A TOML value. -/
inductive Toml
  | text (s : String)
  | integer (n : Int)
  | real (x : Float)
  | bool (b : Bool)
  /-- A date, a time, or both. -/
  | moment
  | list (items : List Toml)
  | table (origin : Toml.Origin) (entries : List (String × Toml))
  /-- Tables that were begun one after the other by headers in double brackets. -/
  | tables (items : List Toml)

namespace Toml

instance : Inhabited Toml := ⟨.table .header []⟩

/-- The entries of a table. -/
abbrev Entries := List (String × Toml)

/-- Puts a value under a key, in the place of the one that is there. -/
def put (key : String) (v : Toml) (es : Entries) : Entries :=
  if es.any fun e => e.1 = key then es.map fun e => if e.1 = key then (key, v) else e
  else es ++ [(key, v)]

/-- Whether a path that is or is not a dotted key may pass through a table. -/
def Origin.isPassable (dotted : Bool) : Origin → Bool
  | .inBraces => false
  | .header => !dotted
  | .throughHeader | .throughKey => true

/-- Changes the table at the end of a path of keys.  Tables that are missing on the way are begun;
of tables in a row the last one is meant. -/
def change (dotted : Bool) (f : Origin → Entries → Option Entries) :
    List String → Origin → Entries → Option Entries
  | [], origin, es => f origin es
  | key :: path, _, es =>
    match es.lookup key with
    | none => do
      let origin : Origin := if dotted then .throughKey else .throughHeader
      return es ++ [(key, .table origin (← change dotted f path origin []))]
    | some (.table origin inner) =>
      if origin.isPassable dotted then do
        return put key (.table origin (← change dotted f path origin inner)) es
      else none
    | some (.tables items) =>
      match items.getLast? with
      | some (.table origin inner) => do
        let last := .table origin (← change dotted f path origin inner)
        return put key (.tables (items.dropLast ++ [last])) es
      | _ => none
    | some _ => none

/-- Adds a value under a key with its path to a table.  Every value has a key of its own, and a
dotted key adds to no table but those that dotted keys have begun. -/
def add (path : List String) (key : String) (v : Toml) (origin : Origin) (es : Entries) :
    Option Entries :=
  change true (fun origin es =>
      if (path.isEmpty || origin = .throughKey) && (es.lookup key).isNone then
        some (es ++ [(key, v)])
      else none)
    path origin es

/-- Begins a table at a header. -/
def beginTable (path : List String) (key : String) (es : Entries) : Option Entries :=
  change false (fun _ es =>
      match es.lookup key with
      | none => some (es ++ [(key, .table .header [])])
      | some (.table .throughHeader inner) => some (put key (.table .header inner) es)
      | some _ => none)
    path .header es

/-- Begins a further table at a header in double brackets. -/
def beginElement (path : List String) (key : String) (es : Entries) : Option Entries :=
  change false (fun _ es =>
      match es.lookup key with
      | none => some (es ++ [(key, .tables [.table .header []])])
      | some (.tables items) => some (put key (.tables (items ++ [.table .header []])) es)
      | some _ => none)
    path .header es

mutual

/-- The value in the form of JSON; dates and times have none. -/
def toJson : Toml → Json
  | .text s => .text s
  | .integer n => .whole n
  | .real x => .number (.real x)
  | .bool b => .bool b
  | .moment => .unreadable
  | .list items => .list (eachToJson items)
  | .table _ entries => .record (entriesToJson entries)
  | .tables items => .list (eachToJson items)

def eachToJson : List Toml → List Json
  | [] => []
  | v :: rest => toJson v :: eachToJson rest

def entriesToJson : List (String × Toml) → List (String × Json)
  | [] => []
  | (key, v) :: rest => (key, toJson v) :: entriesToJson rest

end

end Toml

end StateAtlas
