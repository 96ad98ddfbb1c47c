import StateAtlas.Text.Blank
/-!
Reading a decimal as the double nearest to it.

A decimal is an optional sign, digits with an optional point among them, and an optional exponent;
`inf`, `infinity` and `nan` stand for themselves in any case.  A magnitude beyond the doubles reads
as infinity and one below them as zero.
-/

namespace StateAtlas.Decimal

/-- The value of a list of decimal digits. -/
def ofDigits (ds : List Char) : Nat :=
  ds.foldl (fun n c => 10 * n + (c.toNat - '0'.toNat)) 0

/-- The double nearest to `n · 10 ^ e`.  Decimals far outside the range of doubles are settled by
their number of digits. -/
def nearest (n : Nat) (e : Int) : Float :=
  let places := (toString n).length + e
  if n = 0 ∨ places < -400 then 0
  else if 400 < places then Float.ofBits 0x7FF0000000000000
  else Float.ofScientific n (e < 0) e.natAbs

/-- A sign at the head of a text, `true` for minus. -/
def splitSign : List Char → Bool × List Char
  | '-' :: rest => (true, rest)
  | '+' :: rest => (false, rest)
  | cs => (false, cs)

/-- The digits at the head of a text and what follows them. -/
def splitDigits (cs : List Char) : List Char × List Char :=
  (cs.takeWhile Char.isDigit, cs.dropWhile Char.isDigit)

theorem splitDigits_append (cs : List Char) : (splitDigits cs).1 ++ (splitDigits cs).2 = cs :=
  List.takeWhile_append_dropWhile

/-- The exponent that a text consists of; an empty text is the exponent zero. -/
def exponent? : List Char → Option Int
  | [] => some 0
  | c :: rest =>
    if c = 'e' ∨ c = 'E' then
      let (negative, digits) := splitSign rest
      if digits.isEmpty || !digits.all Char.isDigit then none
      else some (if negative then -(ofDigits digits : Int) else ofDigits digits)
    else none

/-- The magnitude that a text without a sign stands for. -/
def magnitude? (cs : List Char) : Option Float :=
  let word := String.ofList (cs.map Char.toLower)
  if word = "inf" ∨ word = "infinity" then some (Float.ofBits 0x7FF0000000000000)
  else if word = "nan" then some (Float.ofBits 0x7FF8000000000000)
  else
    let (whole, rest) := splitDigits cs
    let (fraction, rest) := match rest with
      | '.' :: rest => splitDigits rest
      | _ => ([], rest)
    if whole.isEmpty && fraction.isEmpty then none
    else (exponent? rest).map fun e => nearest (ofDigits (whole ++ fraction)) (e - fraction.length)

/-- The number that a text is, if it is one and nothing else. -/
def ofChars? (cs : List Char) : Option Float :=
  let (negative, rest) := splitSign cs
  (magnitude? rest).map fun x => if negative then -x else x

/-- The number that a text is. -/
def ofText? (s : String) : Option Float := ofChars? s.toList

/-- The number that a text is, blanks around it aside. -/
def ofTrimmed? (s : String) : Option Float := ofChars? (Text.trimmed s)

end StateAtlas.Decimal
