import StateAtlas.Decimal.Reading
import StateAtlas.Toml.Text
/-!
Numbers, and dates and times.

Whole numbers have 64 bits and a sign; they are decimal, or hexadecimal, octal or binary after a
mark.  Doubles need a point or an exponent.  Single underscores may stand between digits.
-/

namespace StateAtlas.Toml.Grammar

/-- Whether a character is a decimal digit. -/
def isDigit (c : Char) : Bool := '0' ≤ c && c ≤ '9'

/-- A character that passes a test. -/
def satisfying (test : Char → Bool) : Grammar Char
  | c :: rest => if test c then some (c, rest) else none
  | [] => none

/-- Digits with single underscores between them. -/
def digits (test : Char → Bool) : Grammar (List Char) := fun cs => do
  let (first, rest) ← satisfying test cs
  let (more, rest) := Grammar.many
    (.either (satisfying test) (.after (.char '_') (satisfying test))) rest
  if rest.head? = some '_' then none else some (first :: more, rest)

/-- A sign. -/
def sign : Grammar (List Char) := fun cs =>
  match cs with
  | '+' :: rest => some ([], rest)
  | '-' :: rest => some (['-'], rest)
  | _ => some ([], cs)

/-- A decimal whole number: no zero stands in front of other digits. -/
def decimal : Grammar (List Char) := fun cs => do
  let (s, rest) ← sign cs
  match rest with
  | '0' :: rest => some (s ++ ['0'], rest)
  | rest =>
    let (ds, rest) ← digits isDigit rest
    some (s ++ ds, rest)

/-- The least natural number that is too large. -/
def numberBound : Nat := Nat.pow 2 63

/-- A whole number of 64 bits. -/
def inRange? (n : Int) : Option Int := if -numberBound ≤ n ∧ n < numberBound then some n else none

/-- The whole number that a sign and digits are. -/
def ofSigned : List Char → Int
  | '-' :: ds => -Int.ofNat (ofDigits 10 ds)
  | ds => ofDigits 10 ds

/-- A whole number to a base after its mark. -/
def marked (mark : String) (base : Nat) : Grammar Int :=
  .after (.word mark) <| .filterMap (fun ds => inRange? (ofDigits base ds))
    (digits fun c => (hexDigit? c).any (· < base))

/-- A whole number. -/
def integer : Grammar Int := fun cs =>
  match cs with
  | '0' :: 'x' :: _ => marked "0x" 16 cs
  | '0' :: 'o' :: _ => marked "0o" 8 cs
  | '0' :: 'b' :: _ => marked "0b" 2 cs
  | _ => Grammar.filterMap (fun ds => inRange? (ofSigned ds)) decimal cs

/-- The point of a double and the digits behind it. -/
def fraction : Grammar (List Char) :=
  .after (.char '.') (.filterMap (fun ds => some ('.' :: ds)) (digits isDigit))

/-- The exponent of a double. -/
def exponent : Grammar (List Char) := fun cs => do
  let (_, rest) ← satisfying (fun c => c = 'e' || c = 'E') cs
  let (s, rest) ← sign rest
  let (ds, rest) ← digits isDigit rest
  some ('e' :: s ++ ds, rest)

/-- The double of a text; one that is too large is refused. -/
def double? (cs : List Char) : Option Float :=
  (Decimal.ofText? (String.ofList cs)).filter fun x => !(x.isInf && 0 < x)

/-- A double written with digits. -/
def real : Grammar Float := fun cs => do
  let (whole, rest) ← decimal cs
  match rest with
  | '.' :: _ =>
    let (point, rest) ← fraction rest
    match rest with
    | 'e' :: _ | 'E' :: _ =>
      let (power, rest) ← exponent rest
      some (← double? (whole ++ point ++ power), rest)
    | _ => some (← double? (whole ++ point), rest)
  | _ =>
    let (power, rest) ← exponent rest
    some (← double? (whole ++ power), rest)

/-- Infinity, or what is no number. -/
def special : Grammar Float := fun cs => do
  let (s, rest) ← sign cs
  match rest with
  | 'i' :: 'n' :: 'f' :: rest => some (if s.isEmpty then 1 / 0 else -1 / 0, rest)
  | 'n' :: 'a' :: 'n' :: rest => some (0 / 0, rest)
  | _ => none

/-! ## Dates and times -/

/-- A number of exactly `width` digits between two bounds. -/
def between (width lo hi : Nat) : Grammar Nat :=
  .filterMap (fun ds =>
      let n := ofDigits 10 ds
      if lo ≤ n ∧ n ≤ hi then some n else none)
    (.exactly width isDigit)

/-- The number of days of a month. -/
def daysIn (year month : Nat) : Nat :=
  match month with
  | 2 => if year % 4 = 0 ∧ (year % 100 ≠ 0 ∨ year % 400 = 0) then 29 else 28
  | 4 | 6 | 9 | 11 => 30
  | _ => 31

/-- A date. -/
def date : Grammar Unit := fun cs => do
  let (year, rest) ← between 4 0 9999 cs
  let (_, rest) ← Grammar.char '-' rest
  let (month, rest) ← between 2 1 12 rest
  let (_, rest) ← Grammar.char '-' rest
  let (_, rest) ← between 2 1 (daysIn year month) rest
  some ((), rest)

/-- An hour and a minute. -/
def clock : Grammar Unit := fun cs => do
  let (_, rest) ← between 2 0 23 cs
  let (_, rest) ← Grammar.char ':' rest
  let (_, rest) ← between 2 0 59 rest
  some ((), rest)

/-- A time of day, with or without a fraction of a second. -/
def time : Grammar Unit := fun cs => do
  let (_, rest) ← clock cs
  let (_, rest) ← Grammar.char ':' rest
  let (_, rest) ← between 2 0 60 rest
  match rest with
  | '.' :: rest =>
    let (_, rest) ← satisfying isDigit rest
    some ((), rest.dropWhile isDigit)
  | rest => some ((), rest)

/-- The distance of a time from that of Greenwich. -/
def offset : Grammar Unit
  | 'Z' :: rest | 'z' :: rest => some ((), rest)
  | '+' :: rest | '-' :: rest => clock rest
  | cs => some ((), cs)

/-- A date, a time, or both.  A blank behind a date starts a time only if one follows. -/
def moment : Grammar Unit := fun cs =>
  match date cs with
  | none => time cs
  | some (_, rest) =>
    match rest with
    | 'T' :: later | 't' :: later | ' ' :: later =>
      match time later with
      | some (_, rest) => offset rest
      | none => some ((), rest)
    | rest => some ((), rest)

end StateAtlas.Toml.Grammar
