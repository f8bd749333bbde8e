import RegexDiagram.Text.Unicode

/-!
# Letters

The two facts about the Unicode character database that patterns need: which characters are letters
or numbers (group names are made of them) and which characters stand for an ASCII letter once a
text is put in lower case (names of options are compared that way).
-/

namespace RegexDiagram

/-- A letter or a number of any script. -/
def isAlphanumeric (c : Char) : Bool :=
  if c.toNat < 0x80 then c.isAlphanum
  else inRanges alphanumericRanges c

/-- A character in lower case, where the result bears on ASCII names. The Kelvin sign lowers to `k`
and the dotted capital `I` to `i` with a combining dot; other characters outside ASCII never lower
to ASCII letters and are kept. -/
def lowerChar (c : Char) : List Char :=
  if c = '\u212A' then ['k']
  else if c = '\u0130' then ['i', '\u0307']
  else [c.toLower]

/-- Whether a text, put in lower case, is the given name in lower-case ASCII. -/
def isNamed (name : String) (s : List Char) : Bool := s.flatMap lowerChar == name.toList

end RegexDiagram
