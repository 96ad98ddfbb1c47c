/-!
The shortest decimal that reads back as a given double.

A finite double is `m · 2 ^ q`.  The reals that round to it form an interval around it: half a
unit of its last place to either side, or a quarter below when it is the least double of its
binade, the ends included when `m` is even.  For one digit, two digits and so on the value lies
between two neighbours on the decimal grid of that many digits; the first grid that has a
neighbour inside the interval is taken, and of two neighbours inside it the nearer.

All arithmetic is exact, on naturals over a common denominator.
-/

namespace StateAtlas.Decimal

/-- A non-negative decimal, `digits · 10 ^ exponent`. -/
structure Scientific where
  digits : Nat
  exponent : Int
deriving DecidableEq, Repr

/-- Where an exact tie between two decimals of equal length goes. -/
inductive Tie
  | toEven
  | up
deriving DecidableEq, Repr

/-- A positive double's magnitude, `significand · 2 ^ exponent`. -/
structure Binary where
  significand : Nat
  exponent : Int
  /-- Whether the double below is only half as far away as the one above. -/
  narrowBelow : Bool
deriving DecidableEq, Repr

/-- The magnitude of a finite double. -/
def Binary.ofFloat (x : Float) : Binary :=
  let bits := x.toBits.toNat
  let fraction : Nat := bits % Nat.pow 2 52
  let field : Nat := bits / Nat.pow 2 52 % Nat.pow 2 11
  if field = 0 then ⟨fraction, -1074, false⟩
  else ⟨Nat.pow 2 52 + fraction, (field : Int) - 1075, fraction = 0 && field > 1⟩

/-- An interval around a value, all over one denominator. -/
structure Interval where
  low : Nat
  value : Nat
  high : Nat
  denominator : Nat
  /-- Whether the two ends belong to the interval. -/
  closed : Bool
deriving DecidableEq, Repr

/-- The reals that round to the double, in quarters of its last place. -/
def Binary.interval (b : Binary) : Interval :=
  let quarter := b.exponent - 2
  let unit := Nat.pow 2 quarter.toNat
  { low := (4 * b.significand - if b.narrowBelow then 1 else 2) * unit
    value := 4 * b.significand * unit
    high := (4 * b.significand + 2) * unit
    denominator := Nat.pow 2 (-quarter).toNat
    closed := b.significand % 2 = 0 }

/-- The exponent `k` with `10 ^ (k - 1) ≤ n / d < 10 ^ k`, for positive `n` and `d`. -/
def magnitude (n d : Nat) : Int :=
  if d ≤ n then (Nat.toDigits 10 (n / d)).length
  else 1 - (Nat.toDigits 10 ((d - 1) / n)).length

namespace Interval

/-- Which of the two neighbours of the value on the grid of multiples of `10 ^ e` lies in the
interval, the nearer one if both do. -/
def neighbour? (i : Interval) (tie : Tie) (e : Int) : Option Nat :=
  let scale := Nat.pow 10 (-e).toNat
  let unit := i.denominator * Nat.pow 10 e.toNat
  let below := i.value * scale / unit
  let fits (a b : Nat) : Bool := if i.closed then a ≤ b else a < b
  let belowFits := fits (i.low * scale) (below * unit)
  let aboveFits := fits ((below + 1) * unit) (i.high * scale)
  let excess := 2 * (i.value * scale - below * unit)
  match belowFits, aboveFits with
  | false, false => none
  | true, false => some below
  | false, true => some (below + 1)
  | true, true =>
    if excess < unit then some below
    else if unit < excess then some (below + 1)
    else match tie with
      | .up => some (below + 1)
      | .toEven => some (if below % 2 = 0 then below else below + 1)

/-- The first grid with a neighbour in the interval; seventeen digits always suffice. -/
def shortest (i : Interval) (tie : Tie) : Scientific :=
  let k := magnitude i.value i.denominator
  let tried := (List.range 17).findSome? fun t : Nat =>
    let e := k - ((t : Int) + 1)
    (i.neighbour? tie e).map fun n => Scientific.mk n e
  tried.getD ⟨i.value / i.denominator, 0⟩

end Interval

/-- The decimal without the zeros its digits end in. -/
def Scientific.trim (s : Scientific) : Scientific :=
  if h : s.digits ≠ 0 ∧ s.digits % 10 = 0 then trim ⟨s.digits / 10, s.exponent + 1⟩ else s
termination_by s.digits
decreasing_by omega

/-- The shortest decimal that rounds to a finite double's magnitude. -/
def shortest (tie : Tie) (x : Float) : Scientific :=
  let b := Binary.ofFloat x
  if b.significand = 0 then ⟨0, 0⟩ else (b.interval.shortest tie).trim

end StateAtlas.Decimal
