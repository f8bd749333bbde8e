/-!
# Shortest decimals

The decimal with the fewest digits that reads back as a given binary number. A binary number
`mantissa * 2 ^ exponent` is what every real number of an interval around it is read as: the
interval reaches half-way to the neighbours, and its ends belong to it if the mantissa is even. For
one, two, three digits and so on the value's two neighbours on the grid of decimals with that many
digits are tried; the first grid with a neighbour inside the interval has the answer. Of two
neighbours inside, the nearer is taken, and the upper one if both are equally near.
-/

namespace RegexDiagram.Decimal

/-- A positive number as a multiple of a power of two. -/
structure Binary where
  mantissa : Nat
  exponent : Int
  /-- The next smaller number is only half as far away as the next larger one. -/
  narrowBelow : Bool
  deriving DecidableEq, Repr

/-- A number as a multiple of a power of ten. -/
structure Scaled where
  digits : Nat
  exponent : Int
  deriving DecidableEq, Repr

namespace Binary

/-- The interval of real numbers that are read as a binary number, over a common denominator. -/
structure Interval where
  low : Nat
  value : Nat
  high : Nat
  denominator : Nat
  /-- The ends belong to the interval. -/
  closed : Bool

def interval (b : Binary) : Interval :=
  let scale := Nat.pow 2 (b.exponent - 2).toNat
  { low := (4 * b.mantissa - (if b.narrowBelow then 1 else 2)) * scale
    value := 4 * b.mantissa * scale
    high := (4 * b.mantissa + 2) * scale
    denominator := Nat.pow 2 (2 - b.exponent).toNat
    closed := b.mantissa % 2 == 0 }

/-- The number of times a fraction below one has to be multiplied by ten to reach one. -/
def shiftToOne (denominator : Nat) : Nat → Nat → Nat
  | 0, _ => 0
  | fuel + 1, value => if denominator ≤ value then 0 else shiftToOne denominator fuel (10 * value) + 1

/-- The decimal exponent `e` for which the number lies between `10 ^ (e - 1)` and `10 ^ e`, the
upper end not included. -/
def Interval.magnitude (i : Interval) : Int :=
  if i.denominator ≤ i.value then (Nat.toDigits 10 (i.value / i.denominator)).length
  else 1 - (shiftToOne i.denominator (Nat.log2 i.denominator + 1) i.value : Int)

/-- The neighbour of the value on the grid of multiples of `10 ^ exponent` that lies inside the
interval, the nearer one if both do. -/
def Interval.onGrid? (i : Interval) (exponent : Int) : Option Scaled :=
  let up := Nat.pow 10 (-exponent).toNat
  let unit := i.denominator * Nat.pow 10 exponent.toNat
  let value := i.value * up
  let lower := value / unit
  let below := value - lower * unit
  let upper := (lower + 1) * unit
  let lowerInside :=
    if i.closed then i.low * up ≤ lower * unit else i.low * up < lower * unit
  let upperInside := if i.closed then upper ≤ i.high * up else upper < i.high * up
  if lowerInside ∧ (¬ upperInside ∨ 2 * below < unit) then some ⟨lower, exponent⟩
  else if upperInside then some ⟨lower + 1, exponent⟩
  else none

/-- The decimal with the fewest digits in the interval. Seventeen digits always suffice for numbers
of fifty-three bits. -/
def shortest (b : Binary) : Scaled :=
  let i := b.interval
  let magnitude := i.magnitude
  ((List.range 17).findSome? fun (n : Nat) => i.onGrid? (magnitude - (n + 1 : Int))).getD
    ⟨b.mantissa, 0⟩

end Binary

end RegexDiagram.Decimal
