import StateAtlas.Decimal.Reading
import StateAtlas.Json.Basic
/-!
The tokens of JSON text.

The scanner reads bytes one at a time.  Between tokens it skips blanks; a word of letters, digits,
signs and points runs up to the first other byte and must be a number, `true`, `false` or `null`; a
text runs up to its closing quotation mark.  Texts and numbers without a value are tokens all the
same (`text none`, `number none`), for whoever reads the tokens to refuse.

A number without point or exponent that fits in 64 bits is whole.  Any other number is read as its
leading digits, as many as fit in 64 bits, scaled by one power of ten in double arithmetic.
-/

namespace StateAtlas.Json

/-- A token of JSON text. -/
inductive Token
  | openList
  | closeList
  | openRecord
  | closeRecord
  | comma
  | colon
  | null
  | bool (b : Bool)
  | number (n : Option Number)
  | text (s : Option String)

/-! ## Numbers -/

/-- The greatest unsigned number of 64 bits. -/
def maxWord : Nat := Nat.pow 2 64 - 1

/-- Leading digits read as one number while it fits in 64 bits; says how many were read. -/
def leadingDigits : Nat → List Char → Nat × Nat
  | n, [] => (n, 0)
  | n, c :: rest =>
    let next := 10 * n + (c.toNat - '0'.toNat)
    if next ≤ maxWord then
      let (n, taken) := leadingDigits next rest
      (n, taken + 1)
    else (n, 0)

/-- A power of ten as a double. -/
def powerOfTen (n : Nat) : Float := Float.ofScientific 1 false n

/-- `x / 10 ^ n` by divisions by at most `10 ^ 308` each. -/
def scaleDown (x : Float) (n : Nat) : Float :=
  if n ≤ 308 then x / powerOfTen n
  else if x == 0 then x
  else scaleDown (x / powerOfTen 308) (n - 308)
termination_by n

/-- `x · 10 ^ n`; what is beyond the doubles is infinite. -/
def scaleUp (x : Float) (n : Nat) : Float :=
  if n ≤ 308 then x * powerOfTen n
  else if x == 0 then x
  else 1 / 0

/-- The double of a magnitude given by its whole digits, its fraction digits and its exponent. -/
def realMagnitude (whole fraction : List Char) (exponent : Int) : Float :=
  let (n, taken) := leadingDigits 0 whole
  let (n, decimals) := leadingDigits n fraction
  let e := exponent + (whole.length - taken : Nat) - decimals
  if 0 ≤ e then scaleUp (Float.ofNat n) e.toNat else scaleDown (Float.ofNat n) (-e).toNat

/-- A double as a number; what is beyond the doubles is none. -/
def Number.ofFloat? (x : Float) : Option Number := if x.isFinite then some (.real x) else none

/-- Whether digits are those of a whole number without needless zeros in front. -/
def isPlainWhole : List Char → Bool
  | [] => false
  | ['0'] => true
  | '0' :: _ => false
  | _ => true

/-- The fraction digits at the head of a text, `none` if a point stands there without any, and
what follows them. -/
def splitFraction : List Char → Option (List Char) × List Char
  | '.' :: rest =>
    let (digits, rest) := Decimal.splitDigits rest
    (if digits.isEmpty then none else some digits, rest)
  | rest => (some [], rest)

/-- The number with the given digits and without fraction and exponent: whole if it fits in 64
bits. -/
def wholeNumber? (negative : Bool) (digits : List Char) (asReal : Option Number) :
    Option Number :=
  let n := Decimal.ofDigits digits
  if negative then
    if 0 < n && n ≤ Nat.pow 2 63 then some (.whole (-(n : Int))) else asReal
  else if n ≤ maxWord then some (.whole n) else asReal

/-- The number that a word of JSON text is; `some none` if it is one without a value. -/
def numberOfWord? (word : List Char) : Option (Option Number) :=
  let (negative, rest) := match word with
    | '-' :: rest => (true, rest)
    | _ => (false, word)
  let (digits, rest) := Decimal.splitDigits rest
  let (fraction, rest) := splitFraction rest
  match isPlainWhole digits, fraction, Decimal.exponent? rest with
  | true, some fraction, some exponent =>
    let x := realMagnitude digits fraction exponent
    let asReal := Number.ofFloat? (if negative then -x else x)
    if fraction.isEmpty && rest.isEmpty then some (wholeNumber? negative digits asReal)
    else some asReal
  | _, _, _ => none

/-! ## Texts -/

/-- A part of a text between quotation marks: a byte as it stands, or a code unit given by an
escape. -/
inductive Piece
  | byte (b : UInt8)
  | unit (u : Nat)

/-- The bytes of a text given by its parts, unless half of a surrogate pair stands alone. -/
def textBytes? : List Piece → Option (List UInt8)
  | [] => some []
  | .byte b :: rest => (textBytes? rest).map (b :: ·)
  | .unit u :: rest =>
    if 0xD800 ≤ u ∧ u < 0xDC00 then
      match rest with
      | .unit v :: rest =>
        if 0xDC00 ≤ v ∧ v < 0xE000 then
          let c := Char.ofNat (0x10000 + (u - 0xD800) * 0x400 + (v - 0xDC00))
          (textBytes? rest).map ((String.singleton c).toUTF8.toList ++ ·)
        else none
      | _ => none
    else if 0xDC00 ≤ u ∧ u < 0xE000 then none
    else (textBytes? rest).map ((String.singleton (Char.ofNat u)).toUTF8.toList ++ ·)

/-- The text that bytes encode. -/
def textOfBytes? (bs : List UInt8) : Option String := String.fromUTF8? ⟨bs.toArray⟩

/-! ## The scanner -/

/-- Where the scanner stands. -/
inductive Scan
  /-- Between tokens. -/
  | blank
  /-- Inside a word, with its characters so far, last first. -/
  | word (done : List Char)
  /-- Inside a text, with its parts so far, last first. -/
  | quoted (done : List Piece)
  /-- Behind a backslash inside a text. -/
  | escaped (done : List Piece)
  /-- Behind `\u` and `digits` hexadecimal digits of the given value. -/
  | hex (done : List Piece) (digits value : Nat)

/-- Whether a byte can stand in a word. -/
def isWordByte (b : UInt8) : Bool :=
  let c := Char.ofNat b.toNat
  c.isAlphanum || c = '-' || c = '+' || c = '.'

/-- The token that a word is. -/
def wordToken? (done : List Char) : Option Token :=
  let word := done.reverse
  match String.ofList word with
  | "null" => some .null
  | "true" => some (.bool true)
  | "false" => some (.bool false)
  | _ => (numberOfWord? word).map .number

/-- The token that a text is. -/
def textToken (done : List Piece) : Token :=
  .text ((textBytes? done.reverse).bind textOfBytes?)

/-- The value of a hexadecimal digit. -/
def hexValue? (b : UInt8) : Option Nat :=
  let c := Char.ofNat b.toNat
  if '0' ≤ c ∧ c ≤ '9' then some (c.toNat - '0'.toNat)
  else if 'a' ≤ c ∧ c ≤ 'f' then some (c.toNat - 'a'.toNat + 10)
  else if 'A' ≤ c ∧ c ≤ 'F' then some (c.toNat - 'A'.toNat + 10)
  else none

/-- The code that a character behind a backslash stands for. -/
def simpleEscape? (b : UInt8) : Option UInt8 :=
  match Char.ofNat b.toNat with
  | '"' => some 0x22
  | '\\' => some 0x5C
  | '/' => some 0x2F
  | 'b' => some 0x08
  | 'f' => some 0x0C
  | 'n' => some 0x0A
  | 'r' => some 0x0D
  | 't' => some 0x09
  | _ => none

/-- A byte met between tokens: the scanner's next place, and the token if the byte is one. -/
def scanBlank? (b : UInt8) : Option (Scan × Option Token) :=
  match Char.ofNat b.toNat with
  | ' ' | '\t' | '\n' | '\r' => some (.blank, none)
  | '[' => some (.blank, some .openList)
  | ']' => some (.blank, some .closeList)
  | '\x7b' => some (.blank, some .openRecord)
  | '\x7d' => some (.blank, some .closeRecord)
  | ',' => some (.blank, some .comma)
  | ':' => some (.blank, some .colon)
  | '"' => some (.quoted [], none)
  | c => if isWordByte b then some (.word [c], none) else none

/-- One byte: the scanner's next place, and the tokens that end with this byte. -/
def scanByte? : Scan → UInt8 → Option (Scan × List Token)
  | .blank, b => (scanBlank? b).map fun (s, t) => (s, t.toList)
  | .word done, b =>
    if isWordByte b then some (.word (Char.ofNat b.toNat :: done), [])
    else do
      let token ← wordToken? done
      let (s, next) ← scanBlank? b
      some (s, token :: next.toList)
  | .quoted done, b =>
    if b = 0x22 then some (.blank, [textToken done])
    else if b = 0x5C then some (.escaped done, [])
    else if b < 0x20 then none
    else some (.quoted (.byte b :: done), [])
  | .escaped done, b =>
    if b = 0x75 then some (.hex done 0 0, [])
    else (simpleEscape? b).map fun c => (.quoted (.byte c :: done), [])
  | .hex done digits value, b =>
    (hexValue? b).map fun v =>
      let value := 16 * value + v
      (if digits = 3 then .quoted (.unit value :: done) else .hex done (digits + 1) value, [])

/-- The tokens found so far, last first, and those of the bytes that follow. -/
def scanFrom? (s : Scan) (found : List Token) : List UInt8 → Option (List Token)
  | [] =>
    match s with
    | .blank => some found.reverse
    | .word done => (wordToken? done).map fun t => (t :: found).reverse
    | _ => none
  | b :: rest =>
    match scanByte? s b with
    | some (s, tokens) => scanFrom? s (tokens.reverse ++ found) rest
    | none => none

/-- The tokens that bytes consist of. -/
def Token.scan? (bs : List UInt8) : Option (List Token) := scanFrom? .blank [] bs

end StateAtlas.Json
