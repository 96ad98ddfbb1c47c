/-!
Recognizing text from the left.

A `Grammar α` takes what it recognizes off the front of a text and gives its meaning and the rest,
or refuses the text.  A repetition goes on for as long as its part is recognized and takes something
off, so it always ends.
-/

namespace StateAtlas.Toml

/-- Recognizes the front of a text. -/
abbrev Grammar (α : Type) := List Char → Option (α × List Char)

namespace Grammar

variable {α β : Type}

/-- As many parts as there are. -/
def many (g : Grammar α) (cs : List Char) : List α × List Char :=
  match g cs with
  | none => ([], cs)
  | some (a, rest) =>
    if rest.length < cs.length then
      let (more, rest) := many g rest
      (a :: more, rest)
    else ([a], rest)
termination_by cs.length

/-- One character. -/
def char (c : Char) : Grammar Unit
  | d :: rest => if d = c then some ((), rest) else none
  | [] => none

/-- The characters of a word. -/
def word (w : String) : Grammar Unit := fun cs =>
  if w.toList.isPrefixOf cs then some ((), cs.drop w.length) else none

/-- The first of two that recognizes the text. -/
def either (g h : Grammar α) : Grammar α := fun cs =>
  match g cs with
  | some r => some r
  | none => h cs

/-- One part and then another; the first has no meaning. -/
def after (g : Grammar Unit) (h : Grammar α) : Grammar α := fun cs => do
  let (_, rest) ← g cs
  h rest

/-- At least one part, with separators between the parts. -/
def separated (separator : Grammar Unit) (g : Grammar α) : Grammar (List α) := fun cs => do
  let (a, rest) ← g cs
  let (more, rest) := many (after separator g) rest
  some (a :: more, rest)

/-- Exactly `n` characters that pass a test. -/
def exactly (n : Nat) (test : Char → Bool) : Grammar (List Char) := fun cs =>
  let front := cs.take n
  if front.length = n ∧ front.all test then some (front, cs.drop n) else none

/-- What is recognized, with its meaning replaced if that is possible. -/
def filterMap (f : α → Option β) (g : Grammar α) : Grammar β := fun cs => do
  let (a, rest) ← g cs
  let b ← f a
  some (b, rest)

/-- What is recognized, if there is such a thing. -/
def optional (g : Grammar α) : Grammar (Option α) := fun cs =>
  match g cs with
  | some (a, rest) => some (some a, rest)
  | none => some (none, cs)

end Grammar

/-! ## Lines -/

/-- Whether a character is a blank within a line. -/
def isBlank (c : Char) : Bool := c = ' ' || c = '\t'

/-- The text without the blanks in front of it. -/
def skipBlanks (cs : List Char) : List Char := cs.dropWhile isBlank

/-- Whether a character can stand in a comment, and in a text between apostrophes. -/
def isPlain (c : Char) : Bool := c = '\t' || (0x20 ≤ c.toNat && c.toNat ≠ 0x7f)

/-- The end of a line. -/
def newline : Grammar Unit
  | '\n' :: rest => some ((), rest)
  | '\r' :: '\n' :: rest => some ((), rest)
  | _ => none

/-- The text without the comment that it may start with. -/
def skipComment : List Char → List Char
  | '#' :: rest => rest.dropWhile isPlain
  | cs => cs

/-- What may stand behind an expression: blanks, a comment, and the end of the line or of the
text. -/
def lineEnd : Grammar Unit := fun cs =>
  match skipComment (skipBlanks cs) with
  | [] => some ((), [])
  | cs => newline cs

/-- Blanks, comments and ends of lines; a comment needs the end of its line. -/
def gap : Grammar Unit := fun cs =>
  let (_, rest) := Grammar.many (fun cs => newline (skipComment (skipBlanks cs))) cs
  match skipBlanks rest with
  | '#' :: _ | '\r' :: _ => none
  | rest => some ((), rest)

/-- A part with blanks around it. -/
def padded {α : Type} (g : Grammar α) : Grammar α := fun cs => do
  let (a, rest) ← g (skipBlanks cs)
  some (a, skipBlanks rest)

/-- A part with gaps around it. -/
def spaced {α : Type} (g : Grammar α) : Grammar α := fun cs => do
  let (_, rest) ← gap cs
  let (a, rest) ← g rest
  let (_, rest) ← gap rest
  some (a, rest)

end StateAtlas.Toml
