import StateAtlas.Json.Printer
import StateAtlas.Text.Printable
/-!
Texts quoted for messages and inspection.

A quoted text stands between quotation marks and shows what would otherwise be invisible or
ambiguous: quotation marks and backslashes behind a backslash, a few controls by a letter, and
characters that do not show on their own by their code point.
-/

namespace StateAtlas.Text

/-- Which quotation marks are escaped. -/
structure QuoteStyle where
  apostrophe : Bool
deriving DecidableEq, Repr

/-- Values under inspection leave the apostrophe alone. -/
def QuoteStyle.value : QuoteStyle := ⟨false⟩

/-- Arguments that are quoted back escape it as well. -/
def QuoteStyle.argument : QuoteStyle := ⟨true⟩

/-- A character by its code point. -/
def codePoint (c : Char) : String := "\\u\x7b" ++ Json.hexDigits c.toNat 1 ++ "\x7d"

/-- A character as it stands in a quoted text. -/
def QuoteStyle.escape (style : QuoteStyle) (c : Char) : String :=
  match c with
  | '\x00' => "\\0"
  | '\t' => "\\t"
  | '\r' => "\\r"
  | '\n' => "\\n"
  | '\\' => "\\\\"
  | '"' => "\\\""
  | '\'' => if style.apostrophe then "\\'" else "'"
  | c => if isExtending c || isShapeless c then codePoint c else c.toString

/-- A text in quotation marks. -/
def QuoteStyle.quote (style : QuoteStyle) (s : String) : String :=
  "\"" ++ s.toList.foldl (fun out c => out ++ style.escape c) "" ++ "\""

end StateAtlas.Text
