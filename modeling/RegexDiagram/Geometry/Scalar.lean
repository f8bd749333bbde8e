/-!
# Scalars

Coordinates are numbers of any type with the operations below. Drawings are made of floating-point
numbers; the same definitions can be read over an exact type, where addition is associative.
-/

namespace RegexDiagram

/-- The arithmetic that layout and painting need. -/
class Scalar (α : Type) extends Add α, Sub α, Mul α, Div α, Neg α where
  ofNat : Nat → α
  /-- The larger of two numbers; a missing number is passed over. -/
  max : α → α → α
  /-- The smaller of two numbers; a missing number is passed over. -/
  min : α → α → α
  floor : α → α
  abs : α → α
  /-- One or minus one, by the sign. -/
  sign : α → α
  less : α → α → Bool
  same : α → α → Bool
  /-- The nearest whole number that is not negative, halves upwards. -/
  cell : α → Nat

instance (priority := low) Scalar.instOfNat {α : Type} [Scalar α] (n : Nat) : OfNat α n :=
  ⟨Scalar.ofNat n⟩

/-- The larger of two floating-point numbers, where a NaN counts as missing. -/
def floatMax (a b : Float) : Float := if a < b then b else if a == a then a else b

/-- The smaller of two floating-point numbers, where a NaN counts as missing. -/
def floatMin (a b : Float) : Float := if b < a then b else if a == a then a else b

/-- One with the sign of the number; NaN for NaN. -/
def floatSign (a : Float) : Float :=
  if a == a then (if a.toBits &&& 0x8000000000000000 == 0 then 1 else -1) else a

/-- The nearest whole number that is not negative. Numbers beyond sixty-four bits give the greatest
number of sixty-four bits. -/
def floatCell (a : Float) : Nat := (floatMax a 0).round.toUInt64.toNat

instance : Scalar Float where
  ofNat := Float.ofNat
  max := floatMax
  min := floatMin
  floor := Float.floor
  abs := Float.abs
  sign := floatSign
  less a b := a < b
  same a b := a == b
  cell := floatCell

end RegexDiagram
