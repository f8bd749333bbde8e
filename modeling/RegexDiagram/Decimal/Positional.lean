import RegexDiagram.Decimal.Shortest

/-!
# Positional numbers

Floating-point numbers as texts without an exponent, with the fewest digits that read back, and
coordinates, which have at most two decimals.
-/

namespace RegexDiagram.Decimal

/-- The digits of a scaled number with a point where one is needed. -/
def Scaled.positional (s : Scaled) : List Char :=
  let digits := Nat.toDigits 10 s.digits
  let places := (-s.exponent).toNat
  let whole := digits ++ List.replicate s.exponent.toNat '0'
  let padded := List.replicate (places + 1 - whole.length) '0' ++ whole
  let front := padded.take (padded.length - places)
  let decimals := ((padded.drop (padded.length - places)).reverse.dropWhile (· = '0')).reverse
  if decimals = [] then front else front ++ ['.'] ++ decimals

/-- A floating-point number, taken apart. -/
inductive Class where
  | nan
  | infinite (negative : Bool)
  | zero (negative : Bool)
  | finite (negative : Bool) (magnitude : Binary)
  deriving DecidableEq, Repr

/-- The place of the leading one of a mantissa, above fifty-two other bits. -/
def leadingOne : Nat := 4503599627370496

/-- The parts of a floating-point number of sixty-four bits: the sign, eleven bits of exponent and
fifty-two bits of mantissa, to which a leading one belongs unless the exponent is zero. -/
def Class.ofBits (bits : Nat) : Class :=
  let negative := bits.testBit 63
  let exponent := bits / leadingOne % 2048
  let fraction := bits % leadingOne
  if exponent = 2047 then (if fraction = 0 then .infinite negative else .nan)
  else if exponent = 0 then
    (if fraction = 0 then .zero negative else .finite negative ⟨fraction, -1074, false⟩)
  else
    .finite negative
      ⟨fraction + leadingOne, (exponent : Int) - 1075, fraction == 0 && 1 < exponent⟩

/-- The minus sign of a negative number. -/
def signText (negative : Bool) : List Char := if negative then ['-'] else []

/-- A floating-point number with the fewest digits that read back. -/
def Class.text : Class → List Char
  | .nan => "NaN".toList
  | .infinite negative => signText negative ++ "inf".toList
  | .zero negative => signText negative ++ ['0']
  | .finite negative magnitude => signText negative ++ magnitude.shortest.positional

/-- A floating-point number with the fewest digits that read back. -/
def floatText (x : Float) : List Char := (Class.ofBits x.toBits.toNat).text

/-- A number rounded to two decimals, halves away from zero. -/
def toCents (x : Float) : Float := (x * 100).round / 100

/-- A coordinate: at most two decimals, and zero without a sign. -/
def coordinateText (x : Float) : List Char :=
  let rounded := toCents x
  if rounded == 0 then ['0'] else floatText rounded

end RegexDiagram.Decimal
