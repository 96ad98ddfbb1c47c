import StateAtlas.Json.Token
/-!
Reading JSON text.

The reader takes one token at a time and keeps the lists and records that are still open on a
stack.  A value nested deeper than `maxDepth` levels is accepted as text but has no value, and a
record one of whose keys has no value has none either.
-/

namespace StateAtlas.Json

/-- How deep lists and records can be nested and still have a value. -/
def maxDepth : Nat := 127

/-- A list or record that is still open, with what it holds so far, last first. -/
inductive Frame
  | list (done : List Json)
  /-- `key` is the key whose value is being read; `none` for one without a value. -/
  | record (done : List (Option String × Json)) (key : Option String)

/-- What can come next. -/
inductive Expect
  /-- A value. -/
  | value
  /-- The first value of a list, or its end. -/
  | firstItem
  /-- The first key of a record, or its end. -/
  | firstKey
  /-- A key. -/
  | key
  /-- The colon between a key and its value. -/
  | colon
  /-- A comma, or the end of the innermost list or record. -/
  | separator
  /-- Nothing: the value is complete. -/
  | nothing (value : Json)

/-- The reader's state: the open lists and records, innermost first, and what can come next. -/
structure Reader where
  frames : List Frame
  expect : Expect

/-- A record with a value, if all of its keys have one. -/
def recordOf (done : List (Option String × Json)) : Json :=
  match done.reverse.mapM fun (k, j) => k.map fun k => (k, j) with
  | some fields => .record fields
  | none => .unreadable

namespace Reader

/-- Puts a complete value into the innermost open list or record. -/
def complete (frames : List Frame) (j : Json) : Reader :=
  match frames with
  | [] => ⟨[], .nothing j⟩
  | .list done :: outer => ⟨.list (j :: done) :: outer, .separator⟩
  | .record done key :: outer => ⟨.record ((key, j) :: done) none :: outer, .separator⟩

/-- Closes a list or record whose inside, `outer` levels deep, is `j`. -/
def close (outer : List Frame) (j : Json) : Reader :=
  complete outer (if outer.length < maxDepth then j else .unreadable)

/-- A token where a value has to start. -/
def value? (frames : List Frame) : Token → Option Reader
  | .openList => some ⟨.list [] :: frames, .firstItem⟩
  | .openRecord => some ⟨.record [] none :: frames, .firstKey⟩
  | .null => some (complete frames .null)
  | .bool b => some (complete frames (.bool b))
  | .number n => some (complete frames (match n with | some n => .number n | none => .unreadable))
  | .text s => some (complete frames (match s with | some s => .text s | none => .unreadable))
  | _ => none

/-- One token. -/
def step? (r : Reader) (t : Token) : Option Reader :=
  match r.expect, r.frames, t with
  | .firstItem, .list [] :: outer, .closeList => some (close outer (.list []))
  | .firstItem, frames, t => value? frames t
  | .value, frames, t => value? frames t
  | .firstKey, .record _ _ :: outer, .closeRecord => some (close outer (.record []))
  | .firstKey, .record done _ :: outer, .text k => some ⟨.record done k :: outer, .colon⟩
  | .key, .record done _ :: outer, .text k => some ⟨.record done k :: outer, .colon⟩
  | .colon, frames, .colon => some ⟨frames, .value⟩
  | .separator, .list done :: outer, .closeList => some (close outer (.list done.reverse))
  | .separator, .list done :: outer, .comma => some ⟨.list done :: outer, .value⟩
  | .separator, .record done _ :: outer, .closeRecord => some (close outer (recordOf done))
  | .separator, .record done k :: outer, .comma => some ⟨.record done k :: outer, .key⟩
  | _, _, _ => none

/-- The reader before the first token. -/
def start : Reader := ⟨[], .value⟩

end Reader

/-- The value that a list of tokens is. -/
def ofTokens? (tokens : List Token) : Option Json :=
  match tokens.foldlM Reader.step? Reader.start with
  | some ⟨[], .nothing j⟩ => some j
  | _ => none

/-- The value that bytes are the text of. -/
def ofBytes? (bs : List UInt8) : Option Json := (Token.scan? bs).bind ofTokens?

/-- The value of a JSON text. -/
def ofText? (s : String) : Option Json := ofBytes? s.toUTF8.toList

end StateAtlas.Json
