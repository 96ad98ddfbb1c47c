import StateAtlas.Toml.Basic
import StateAtlas.Toml.Number
/-!
Reading TOML text: lines that hold a key with its value, or a header that says which table the
following keys belong to.
-/

namespace StateAtlas.Toml

/-- How many levels deep lists and tables in braces can be nested, and how many parts a dotted key
can have. -/
def maxDepth : Nat := 79

/-- What a line says. -/
inductive Line
  /-- Nothing. -/
  | blank
  | pair (path : List String) (key : String) (value : Toml)
  | table (path : List String) (key : String)
  | element (path : List String) (key : String)

namespace Grammar

/-! ## Keys -/

/-- Whether a character can stand in a key without quotation marks. -/
def isBare (c : Char) : Bool :=
  isDigit c || ('a' ≤ c && c ≤ 'z') || ('A' ≤ c && c ≤ 'Z') || c = '-' || c = '_'

/-- One part of a key. -/
def simpleKey : Grammar String := fun cs =>
  match cs with
  | '"' :: _ | '\'' :: _ => lineText cs
  | _ =>
    let name := cs.takeWhile isBare
    if name.isEmpty then none else some (String.ofList name, cs.drop name.length)

/-- A key: the path to its table, and its last part. -/
def key : Grammar (List String × String) :=
  .filterMap (fun parts =>
      if parts.length ≤ maxDepth then parts.getLast?.map fun last => (parts.dropLast, last)
      else none)
    (.separated (.char '.') (padded simpleKey))

/-! ## Values -/

/-- The table in braces that keys with values make. -/
def tableOf? (pairs : List ((List String × String) × Toml)) : Option Toml :=
  let entries := pairs.foldlM (fun es ((path, last), v) => add path last v .inBraces es) []
  entries.map (.table .inBraces)

/-- A value that holds no others. -/
def scalar : Grammar Toml := fun cs =>
  match cs with
  | '"' :: _ | '\'' :: _ => Grammar.filterMap (fun s => some (.text s)) text cs
  | 't' :: _ => Grammar.filterMap (fun _ => some (.bool true)) (.word "true") cs
  | 'f' :: _ => Grammar.filterMap (fun _ => some (.bool false)) (.word "false") cs
  | _ =>
    Grammar.either (.filterMap (fun _ => some .moment) moment)
      (.either (.filterMap (fun x => some (.real x)) (.either real special))
        (.filterMap (fun n => some (.integer n)) integer)) cs

/-- The parts of a list, with or without a comma behind the last one. -/
def listParts (value : Grammar Toml) : Grammar (List Toml) := fun cs => do
  let (parts, rest) ← Grammar.optional (.separated (.char ',') (spaced value)) cs
  match parts with
  | none =>
    let (_, rest) ← gap cs
    some ([], rest)
  | some parts =>
    let (_, rest) ← Grammar.optional (.char ',') rest
    let (_, rest) ← gap rest
    some (parts, rest)

/-- A key with its value, as it stands in braces. -/
def pair (value : Grammar Toml) : Grammar ((List String × String) × Toml) := fun cs => do
  let (k, rest) ← key cs
  let (_, rest) ← Grammar.char '=' rest
  let (v, rest) ← padded value rest
  some ((k, v), rest)

/-- The parts of a table in braces. -/
def tableParts (value : Grammar Toml) : Grammar Toml := fun cs => do
  let (pairs, rest) ← Grammar.optional (.separated (.char ',') (pair value)) cs
  some (← tableOf? (pairs.getD []), skipBlanks rest)

/-- A value nested at most `depth` levels deep. -/
def value : Nat → Grammar Toml
  | 0 => fun cs =>
    match cs with
    | '[' :: _ | '\x7b' :: _ => none
    | _ => scalar cs
  | depth + 1 => fun cs =>
    match cs with
    | '[' :: rest => do
      let (items, rest) ← listParts (value depth) rest
      let (_, rest) ← Grammar.char ']' rest
      some (.list items, rest)
    | '\x7b' :: rest => do
      let (v, rest) ← tableParts (value depth) rest
      let (_, rest) ← Grammar.char '\x7d' rest
      some (v, rest)
    | _ => scalar cs

/-! ## Lines -/

/-- A header between brackets. -/
def header (opening closing : String) : Grammar (List String × String) := fun cs => do
  let (_, rest) ← Grammar.word opening cs
  let (k, rest) ← key rest
  let (_, rest) ← Grammar.word closing rest
  some (k, rest)

/-- What a line says, without the end of the line. -/
def lineContent : Grammar Line := fun cs =>
  match cs with
  | [] | '#' :: _ | '\n' :: _ | '\r' :: _ => some (.blank, cs)
  | '[' :: '[' :: _ =>
    Grammar.filterMap (fun (path, last) => some (.element path last)) (header "[[" "]]") cs
  | '[' :: _ => Grammar.filterMap (fun (path, last) => some (.table path last)) (header "[" "]") cs
  | _ => do
    let (k, rest) ← key cs
    let (_, rest) ← Grammar.char '=' rest
    let (v, rest) ← value maxDepth (skipBlanks rest)
    some (.pair k.1 k.2 v, rest)

/-- A line with its end. -/
def wholeLine : Grammar Line := fun cs => do
  let (l, rest) ← lineContent (skipBlanks cs)
  let (_, rest) ← lineEnd rest
  some (l, rest)

end Grammar

/-- The tables read so far, and the path of the table that the last header began. -/
structure Sheet where
  entries : Entries := []
  current : List String := []

namespace Sheet

/-- Takes in one line. -/
def step? (s : Sheet) : Line → Option Sheet
  | .blank => some s
  | .pair path k v => do
    return { s with entries := ← change false (add path k v) s.current .header s.entries }
  | .table path k => do return ⟨← beginTable path k s.entries, path ++ [k]⟩
  | .element path k => do return ⟨← beginElement path k s.entries, path ++ [k]⟩

end Sheet

/-- The table that a text is. -/
def ofText? (s : String) : Option Toml := do
  let cs := s.toList
  let cs := if cs.head? = some '\ufeff' then cs.drop 1 else cs
  let (lines, rest) := Grammar.many Grammar.wholeLine cs
  if rest.isEmpty then
    let sheet ← lines.foldlM Sheet.step? {}
    return .table .header sheet.entries
  else none

end StateAtlas.Toml
