import StateAtlas.Decimal.Shortest
/-!
How a double is written.

The digits are those of the shortest decimal that reads back.  A `Layout` settles the rest: when
the digits are written positionally and when with an exponent, whether a whole number keeps a
fraction, and which way a tie between two shortest decimals goes.  Two layouts are in use:
`Layout.label` for what a person reads on an axis, `Layout.data` for numbers in JSON text.
-/

namespace StateAtlas.Decimal

/-- The decisions that the digits leave open. -/
structure Layout where
  /-- The decimal exponents written positionally; `none` if all are. -/
  positional : Option (Int × Int)
  /-- Whether a whole number is written with `.0`. -/
  keepsFraction : Bool
  tie : Tie

/-- Labels are positional whatever the exponent and never end in `.0`. -/
def Layout.label : Layout := ⟨none, false, .up⟩

/-- Numbers in data are positional for decimal exponents from -5 to 15 and always show that they
are no integers, by a fraction or an exponent. -/
def Layout.data : Layout := ⟨some (-5, 15), true, .toEven⟩

/-- Digits around a point that stands after the first `point` of them; a point outside the digits
is reached by zeros. -/
def placePoint (layout : Layout) (digits : String) (point : Int) : String :=
  let n : Int := digits.length
  if point ≤ 0 then "0." ++ "".pushn '0' (-point).toNat ++ digits
  else if n ≤ point then
    digits.pushn '0' (point - n).toNat ++ if layout.keepsFraction then ".0" else ""
  else String.ofList (digits.toList.take point.toNat) ++ "." ++
    String.ofList (digits.toList.drop point.toNat)

/-- Digits with a point after the first and a signed exponent. -/
def placeExponent (digits : String) (exponent : Int) : String :=
  let mantissa := match digits.toList with
    | first :: rest@(_ :: _) => String.ofList (first :: '.' :: rest)
    | _ => digits
  mantissa ++ "e" ++ (if exponent < 0 then "-" else "+") ++ toString exponent.natAbs

/-- A decimal in a layout. -/
def Layout.write (layout : Layout) (s : Scientific) : String :=
  let digits := toString s.digits
  if s.digits = 0 then placePoint layout digits 1
  else
    let leading := s.exponent + digits.length - 1
    let positional := match layout.positional with
      | none => true
      | some (least, greatest) => least ≤ leading && leading ≤ greatest
    if positional then placePoint layout digits (leading + 1) else placeExponent digits leading

/-- A double in a layout; a zero keeps its sign. -/
def Layout.text (layout : Layout) (x : Float) : String :=
  if x.isNaN then "NaN"
  else
    let sign := if x.toBits >>> 63 = 1 then "-" else ""
    sign ++ if x.isInf then "inf" else layout.write (shortest layout.tie x)

/-- The label of a number. -/
def label (x : Float) : String := Layout.label.text x

end StateAtlas.Decimal
