import StateAtlas.Json.Basic
/-!
Writing JSON text, on one line or indented by two blanks a level.

In a text only the quotation mark, the backslash and the control characters below the blank are
escaped.  A double always shows that it is one; a double that is no number has no JSON text and is
written `null`.
-/

namespace StateAtlas.Json

/-- The digits of a hexadecimal number, in lower case. -/
def hexDigits (n width : Nat) : String :=
  let digits := Nat.toDigits 16 n
  "".pushn '0' (width - digits.length) ++ String.ofList digits

/-- A character as it stands inside a written text. -/
def escape (c : Char) : String :=
  match c with
  | '"' => "\\\""
  | '\\' => "\\\\"
  | '\n' => "\\n"
  | '\r' => "\\r"
  | '\t' => "\\t"
  | '\x08' => "\\b"
  | '\x0c' => "\\f"
  | c => if c.toNat < 0x20 then "\\u" ++ hexDigits c.toNat 4 else c.toString

/-- A text between quotation marks. -/
def quote (s : String) : String :=
  "\"" ++ s.toList.foldl (fun out c => out ++ escape c) "" ++ "\""

/-- The text of a number. -/
def Number.toText : Number → String
  | .whole n => toString n
  | .real x => if x.isFinite then Decimal.Layout.data.text x else "null"

mutual

/-- The value on one line, without blanks. -/
def compact : Json → String
  | .null => "null"
  | .bool b => if b then "true" else "false"
  | .number n => n.toText
  | .text s => quote s
  | .list items => "[" ++ String.intercalate "," (compactEach items) ++ "]"
  | .record fields => "\x7b" ++ String.intercalate "," (compactFields fields) ++ "\x7d"
  | .unreadable => "null"

def compactEach : List Json → List String
  | [] => []
  | j :: rest => compact j :: compactEach rest

def compactFields : List (String × Json) → List String
  | [] => []
  | (key, j) :: rest => (quote key ++ ":" ++ compact j) :: compactFields rest

end

/-- Written parts on lines of their own between two brackets, one level deeper than `level`. -/
def block (opening closing : String) (level : Nat) (parts : List String) : String :=
  if parts.isEmpty then opening ++ closing
  else
    let inner := "\n".pushn ' ' (2 * (level + 1))
    opening ++ inner ++ String.intercalate ("," ++ inner) parts ++ "\n".pushn ' ' (2 * level) ++
      closing

mutual

/-- The value on lines of its own, as it stands `level` levels deep. -/
def prettyAt (level : Nat) : Json → String
  | .list items => block "[" "]" level (prettyEach (level + 1) items)
  | .record fields => block "\x7b" "\x7d" level (prettyFields (level + 1) fields)
  | j => compact j

def prettyEach (level : Nat) : List Json → List String
  | [] => []
  | j :: rest => prettyAt level j :: prettyEach level rest

def prettyFields (level : Nat) : List (String × Json) → List String
  | [] => []
  | (key, j) :: rest => (quote key ++ ": " ++ prettyAt level j) :: prettyFields level rest

end

/-- The value over several lines. -/
def pretty (j : Json) : String := prettyAt 0 j

end StateAtlas.Json
