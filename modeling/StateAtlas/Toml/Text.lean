import StateAtlas.Toml.Grammar
/-!
Texts: between quotation marks with escapes, between apostrophes without, either on one line or,
with the mark written three times, over several lines.
-/

namespace StateAtlas.Toml.Grammar

/-- The number of a hexadecimal digit. -/
def hexDigit? (c : Char) : Option Nat :=
  if '0' ≤ c ∧ c ≤ '9' then some (c.toNat - 0x30)
  else if 'a' ≤ c ∧ c ≤ 'f' then some (c.toNat - 0x61 + 10)
  else if 'A' ≤ c ∧ c ≤ 'F' then some (c.toNat - 0x41 + 10)
  else none

/-- The number that digits to a base are. -/
def ofDigits (base : Nat) (digits : List Char) : Nat :=
  digits.foldl (fun n c => n * base + (hexDigit? c).getD 0) 0

/-- The character of a number, if it has one. -/
def charOf? (n : Nat) : Option Char :=
  if n < 0xD800 ∨ (0xDFFF < n ∧ n < 0x110000) then some (Char.ofNat n) else none

/-- A character given by `n` hexadecimal digits. -/
def hexChar (n : Nat) : Grammar Char :=
  .filterMap (fun digits => charOf? (ofDigits 16 digits))
    (.exactly n fun c => (hexDigit? c).isSome)

/-- What follows the backslash of an escape. -/
def escape : Grammar Char
  | 'b' :: rest => some ('\x08', rest)
  | 't' :: rest => some ('\t', rest)
  | 'n' :: rest => some ('\n', rest)
  | 'f' :: rest => some ('\x0c', rest)
  | 'r' :: rest => some ('\r', rest)
  | '"' :: rest => some ('"', rest)
  | '\\' :: rest => some ('\\', rest)
  | 'u' :: rest => hexChar 4 rest
  | 'U' :: rest => hexChar 8 rest
  | _ => none

/-- One character of a text on one line between quotation marks. -/
def quotedChar : Grammar Char
  | '"' :: _ => none
  | '\\' :: rest => escape rest
  | c :: rest => if isPlain c then some (c, rest) else none
  | [] => none

/-- One character of a text on one line between apostrophes. -/
def literalChar : Grammar Char
  | c :: rest => if isPlain c && c ≠ '\'' then some (c, rest) else none
  | [] => none

/-- A text on one line. -/
def line (mark : Char) (part : Grammar Char) : Grammar String :=
  Grammar.after (.char mark) fun cs => do
    let (chars, rest) := Grammar.many part cs
    let (_, rest) ← Grammar.char mark rest
    some (String.ofList chars, rest)

/-- The end of a line with the blanks and further ends of lines behind it. -/
def fold : Grammar Unit := fun cs => do
  let (_, rest) ← newline (skipBlanks cs)
  let (_, rest) := Grammar.many (fun cs => newline (skipBlanks cs)) rest
  some ((), skipBlanks rest)

/-- One or two marks that do not close a text. -/
def looseMarks (mark : Char) : Grammar (List Char) := fun cs =>
  let marks := cs.takeWhile (· = mark)
  if marks.length = 1 ∨ marks.length = 2 then some (marks, cs.drop marks.length) else none

/-- A part of a text over several lines. -/
def blockPart (mark : Char) (escapes : Bool) : Grammar (List Char) := fun cs =>
  match newline cs, cs with
  | some (_, rest), _ => some (['\n'], rest)
  | none, '\\' :: rest =>
    if escapes then
      match fold rest with
      | some (_, rest) => some ([], rest)
      | none => (escape rest).map fun (c, rest) => ([c], rest)
    else some (['\\'], rest)
  | none, c :: rest =>
    if c = mark then looseMarks mark cs
    else if isPlain c then some ([c], rest) else none
  | none, [] => none

/-- The text up to three to five marks in a row, of which the last three close it. -/
def block (mark : Char) (escapes : Bool) : Grammar String := fun cs => do
  let (_, rest) ← Grammar.word (String.ofList [mark, mark, mark]) cs
  let (_, rest) ← Grammar.optional newline rest
  let (parts, rest) := Grammar.many (blockPart mark escapes) rest
  let marks := rest.takeWhile (· = mark)
  if 3 ≤ marks.length ∧ marks.length ≤ 5 then
    some (String.ofList (parts.flatten ++ marks.drop 3), rest.drop marks.length)
  else none

/-- A text on one line. -/
def lineText : Grammar String :=
  .either (line '"' quotedChar) (line '\'' literalChar)

/-- A text.  One that starts with three marks is never a text on one line. -/
def text : Grammar String := fun cs =>
  match cs with
  | '"' :: '"' :: '"' :: _ => block '"' true cs
  | '\'' :: '\'' :: '\'' :: _ => block '\'' false cs
  | _ => lineText cs

end StateAtlas.Toml.Grammar
