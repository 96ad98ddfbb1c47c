import StateAtlas.Json.Printer
/-!
Writing texts in TOML.

A text is written in the plainest way that needs no escapes: between quotation marks, between
apostrophes, and then over several lines with the marks written three times.  Only where none of
these will do is it written with escapes.
-/

namespace StateAtlas.Toml

/-- How a text is written. -/
inductive TextForm
  | quoted
  | literal
  | quotedBlock
  | literalBlock
deriving DecidableEq, Repr

/-- The length of the longest run of a character. -/
def longestRun (c : Char) (cs : List Char) : Nat :=
  (cs.foldl (fun (run, longest) d =>
    let run := if d = c then run + 1 else 0
    (run, max run longest)) (0, 0)).2

/-- Whether a character can only be written as an escape. -/
def isControl (c : Char) : Bool :=
  (c.toNat < 0x20 && c ≠ '\t' && c ≠ '\n') || c.toNat = 0x7f

namespace TextForm

/-- The form in which a text is written. -/
def of (cs : List Char) : TextForm :=
  let controls := cs.any isControl
  let backslashes := cs.contains '\\'
  let lines := cs.contains '\n'
  let quotes := longestRun '"' cs
  let apostrophes := longestRun '\'' cs
  if !controls && !backslashes && !lines && quotes = 0 then .quoted
  else if !controls && !lines && apostrophes = 0 then .literal
  else if !controls && !backslashes && quotes ≤ 2 then .quotedBlock
  else if !controls && apostrophes ≤ 2 then .literalBlock
  else if lines then .quotedBlock
  else .quoted

/-- The marks around a text. -/
def mark : TextForm → String
  | .quoted => "\""
  | .literal => "'"
  | .quotedBlock => "\"\"\""
  | .literalBlock => "'''"

/-- How many quotation marks in a row are written as they are. -/
def looseQuotes : TextForm → Nat
  | .quotedBlock => 2
  | _ => 0

end TextForm

/-- A character other than a quotation mark, as it stands between quotation marks. -/
def escaped (form : TextForm) (c : Char) : String :=
  match c with
  | '\x08' => "\\b"
  | '\t' => "\\t"
  | '\n' => if form = .quotedBlock then "\n" else "\\n"
  | '\x0c' => "\\f"
  | '\r' => "\\r"
  | '\\' => "\\\\"
  | c => if isControl c then "\\u" ++ (Json.hexDigits c.toNat 4).toUpper else c.toString

/-- A text with escapes; `run` quotation marks stand in front of it. -/
def escapedText (form : TextForm) : Nat → List Char → String
  | _, [] => ""
  | run, '"' :: rest =>
    if run < form.looseQuotes then "\"" ++ escapedText form (run + 1) rest
    else "\\\"" ++ escapedText form 0 rest
  | _, c :: rest => escaped form c ++ escapedText form 0 rest

/-- A text as it is written. -/
def quote (s : String) : String :=
  let cs := s.toList
  let form := TextForm.of cs
  let body := match form with
    | .quoted | .quotedBlock => escapedText form 0 cs
    | .literal | .literalBlock => s
  let lead := match form with
    | .quotedBlock | .literalBlock => if cs.contains '\n' then "\n" else ""
    | _ => ""
  form.mark ++ lead ++ body ++ form.mark

end StateAtlas.Toml
