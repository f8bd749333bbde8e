/-!
# Numerals

Reading and writing of natural numbers in a base between two and sixteen, and the digit classes of
the bases that patterns use.
-/

namespace RegexDiagram

/-- A digit of base eight. -/
def isOctalDigit (c : Char) : Bool := '0' ≤ c && c ≤ '7'

/-- A digit of base sixteen, in either case. -/
def isHexDigit (c : Char) : Bool :=
  c.isDigit || ('a' ≤ c && c ≤ 'f') || ('A' ≤ c && c ≤ 'F')

def digitValue (c : Char) : Nat :=
  if c.isDigit then c.toNat - '0'.toNat
  else if 'a' ≤ c then c.toNat - 'a'.toNat + 10
  else c.toNat - 'A'.toNat + 10

/-- The number a run of digits stands for, the most significant digit first. -/
def numeralValue (base : Nat) (digits : List Char) : Nat :=
  digits.foldl (fun n c => n * base + digitValue c) 0

/-- A number in the given base with lower-case digits, zeros in front up to the given width. -/
def paddedDigits (base width n : Nat) : List Char :=
  let digits := Nat.toDigits base n
  List.replicate (width - digits.length) '0' ++ digits

/-- A number in base sixteen with upper-case digits, zeros in front up to the given width. -/
def upperHex (width n : Nat) : List Char := (paddedDigits 16 width n).map Char.toUpper

def decimal (n : Nat) : List Char := Nat.toDigits 10 n

end RegexDiagram
