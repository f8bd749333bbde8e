import RegexDiagram.Text.Lines
import RegexDiagram.Text.Numeral
import RegexDiagram.Text.Unicode

/-!
# Quoted texts

A text between double quotes in which quotes, backslashes and everything that does not print is
spelled out. Messages and listings show pieces of a pattern this way.
-/

namespace RegexDiagram

/-- Whether a character shows as itself. -/
def isPrintable (c : Char) : Bool :=
  !isControl c && !inRanges unprintableRanges c

/-- One character inside a quoted text. -/
def quotedChar (c : Char) : List Char :=
  if c = '"' then ['\\', '"']
  else if c = '\\' then ['\\', '\\']
  else if c = '\n' then ['\\', 'n']
  else if c = '\r' then ['\\', 'r']
  else if c = '\t' then ['\\', 't']
  else if c = '\x00' then ['\\', '0']
  else if isPrintable c then [c]
  else ['\\', 'u', '\x7b'] ++ Nat.toDigits 16 c.toNat ++ ['\x7d']

/-- A text between quotes. -/
def quoted (s : List Char) : List Char := ['"'] ++ s.flatMap quotedChar ++ ['"']

end RegexDiagram
