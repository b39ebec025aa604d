/-!
The shortest decimal that reads back to a given positive double, chosen in exact integer arithmetic.

A double is `significand * 2 ^ exponent`, and the reals that round to it form an interval around it.
For one digit, two digits, and so on, the two neighbours of the double on that decimal grid are
tested; the first grid with a neighbour in the interval supplies the digits.
-/

namespace PageDesigner.Decimal

/-- Digits without a decimal point, scaled by a power of ten. -/
structure Scaled where
  digits : Nat
  exponent : Int
  deriving DecidableEq, Repr

/-- A positive value as `significand * 2 ^ exponent`. The gap below the value is half as wide as the
gap above it when `narrow` holds. -/
structure Binary where
  significand : Nat
  exponent : Int
  narrow : Bool

namespace Binary

def fractionBits : Nat := 52

/-- The magnitude that the exponent and fraction bits of a finite double denote. -/
def ofBits (bits : Nat) : Binary :=
  let fraction := bits % Nat.pow 2 fractionBits
  let biased : Nat := bits / Nat.pow 2 fractionBits % Nat.pow 2 11
  if biased = 0 then ⟨fraction, -1074, false⟩
  else ⟨Nat.pow 2 fractionBits + fraction, biased - 1075, fraction = 0 && 1 < biased⟩

end Binary

/-- The value and the ends of its interval, as numerators over one denominator. The ends belong to
the interval when `closed` holds. -/
structure Interval where
  low : Nat
  value : Nat
  high : Nat
  denominator : Nat
  closed : Bool

namespace Interval

def ofBinary (b : Binary) : Interval :=
  let scale := Nat.pow 2 b.exponent.toNat
  { low := (4 * b.significand - if b.narrow then 1 else 2) * scale
    value := 4 * b.significand * scale
    high := (4 * b.significand + 2) * scale
    denominator := 4 * Nat.pow 2 (-b.exponent).toNat
    closed := b.significand % 2 = 0 }

def places (n : Nat) : Nat := (Nat.toDigits 10 n).length

/-- The number `k` with `10 ^ (k - 1) ≤ value < 10 ^ k`. -/
def magnitude (i : Interval) : Int :=
  if i.denominator ≤ i.value then places (i.value / i.denominator)
  else 1 - (places ((i.denominator - 1) / i.value) : Int)

/-- Whether `digits * 10 ^ exponent` rounds to the value. -/
def holds (i : Interval) (digits : Nat) (exponent : Int) : Bool :=
  let scaled := digits * Nat.pow 10 exponent.toNat * i.denominator
  let unit := Nat.pow 10 (-exponent).toNat
  if i.closed then i.low * unit ≤ scaled && scaled ≤ i.high * unit
  else i.low * unit < scaled && scaled < i.high * unit

/-- The value's neighbour on the grid `10 ^ exponent` that rounds to it: the nearer of two, and the
upper one of two equally near. -/
def neighbour? (i : Interval) (exponent : Int) : Option Nat :=
  let step := Nat.pow 10 exponent.toNat * i.denominator
  let scaled := i.value * Nat.pow 10 (-exponent).toNat
  let below := scaled / step
  match i.holds below exponent, i.holds (below + 1) exponent with
  | true, true => some (if 2 * (scaled % step) < step then below else below + 1)
  | true, false => some below
  | false, true => some (below + 1)
  | false, false => none

/-- A neighbour on the first of `more` grids that has one, from `places` significant digits on. -/
def search (i : Interval) (magnitude : Int) : Nat → Nat → Option Scaled
  | 0, _ => none
  | more + 1, places =>
    match i.neighbour? (magnitude - places) with
    | some digits => some ⟨digits, magnitude - places⟩
    | none => search i magnitude more (places + 1)

end Interval

/-- Every double is a finite decimal, since `2 ^ (-k) = 5 ^ k * 10 ^ (-k)`. -/
def Binary.exact (b : Binary) : Scaled :=
  ⟨b.significand * Nat.pow 2 b.exponent.toNat * Nat.pow 5 (-b.exponent).toNat, min b.exponent 0⟩

/-- Seventeen significant digits tell any two doubles apart. -/
def sufficientPlaces : Nat := 17

def shortest (b : Binary) : Scaled :=
  let i := Interval.ofBinary b
  (i.search i.magnitude sufficientPlaces 1).getD b.exact

end PageDesigner.Decimal
