import RegexDiagram.Geometry.Box
import RegexDiagram.Text.Letters

/-!
# Glyphs

The characters that tracks are drawn with. A cell knows through which of its four sides a line
leaves it; the sides of lines that meet are put together, and all of them choose the glyph. So a
track that meets the side of a box becomes a junction.

The sides are the binary digits of a number.
-/

namespace RegexDiagram

/-- The characters a drawing in text may use. -/
inductive CharacterSet where
  | ascii
  | unicode
  deriving DecidableEq, Repr

namespace CharacterSet

def name : CharacterSet → String
  | .ascii => "ascii"
  | .unicode => "unicode"

/-- The character set of a name in any case. -/
def ofName? (s : List Char) : Option CharacterSet :=
  if isNamed ascii.name s then some .ascii
  else if isNamed unicode.name s then some .unicode
  else none

/-- The set that is used where none is chosen. -/
def standard : CharacterSet := .unicode

end CharacterSet

namespace Canvas

/-! ## Sides -/

/-- The line leaves through the top. -/
def up : Nat := 1

def down : Nat := 2

def left : Nat := 4

def right : Nat := 8

def vertical : Nat := up ||| down

def horizontal : Nat := left ||| right

/-- How a line is drawn. Dashes show on straight runs only, and rounding on plain corners only. -/
structure Stroke where
  dashed : Bool
  rounded : Bool
  deriving DecidableEq, Repr

namespace Stroke

def solid : Stroke := ⟨false, false⟩

def dashes : Stroke := ⟨true, false⟩

def round : Stroke := ⟨false, true⟩

/-- The stroke of a cell where two lines meet: dashed if both are, rounded if one is. -/
def merge (a b : Stroke) : Stroke := ⟨a.dashed && b.dashed, a.rounded || b.rounded⟩

end Stroke

/-! ## Characters -/

/-- The glyph of a cell in ASCII. -/
def asciiGlyph (sides : Nat) (stroke : Stroke) : Char :=
  if sides = 0 then ' '
  else if sides &&& vertical = 0 then '-'
  else if sides &&& horizontal = 0 then (if stroke.dashed then ':' else '|')
  else '+'

/-- The glyph of a cell in box drawing characters. -/
def boxGlyph (sides : Nat) (stroke : Stroke) : Char :=
  if sides = 0 then ' '
  else if sides &&& vertical = 0 then (if stroke.dashed then '┄' else '─')
  else if sides &&& horizontal = 0 then (if stroke.dashed then '┆' else '│')
  else if sides = down ||| right then (if stroke.rounded then '╭' else '┌')
  else if sides = down ||| left then (if stroke.rounded then '╮' else '┐')
  else if sides = up ||| right then (if stroke.rounded then '╰' else '└')
  else if sides = up ||| left then (if stroke.rounded then '╯' else '┘')
  else if sides = vertical ||| right then '├'
  else if sides = vertical ||| left then '┤'
  else if sides = horizontal ||| down then '┬'
  else if sides = horizontal ||| up then '┴'
  else '┼'

/-- The glyph of a cell with the given sides and stroke. -/
def glyph : CharacterSet → Nat → Stroke → Char
  | .ascii => asciiGlyph
  | .unicode => boxGlyph

/-- The sides and the stroke of a glyph in ASCII. -/
def decodeAscii? : Char → Option (Nat × Stroke)
  | '-' => some (horizontal, .solid)
  | '|' => some (vertical, .solid)
  | ':' => some (vertical, .dashes)
  | '+' => some (vertical ||| horizontal, .solid)
  | _ => none

/-- The sides and the stroke of a box drawing character. -/
def decodeBox? : Char → Option (Nat × Stroke)
  | '─' => some (horizontal, .solid)
  | '│' => some (vertical, .solid)
  | '┄' => some (horizontal, .dashes)
  | '┆' => some (vertical, .dashes)
  | '┌' => some (down ||| right, .solid)
  | '┐' => some (down ||| left, .solid)
  | '└' => some (up ||| right, .solid)
  | '┘' => some (up ||| left, .solid)
  | '╭' => some (down ||| right, .round)
  | '╮' => some (down ||| left, .round)
  | '╰' => some (up ||| right, .round)
  | '╯' => some (up ||| left, .round)
  | '├' => some (vertical ||| right, .solid)
  | '┤' => some (vertical ||| left, .solid)
  | '┬' => some (horizontal ||| down, .solid)
  | '┴' => some (horizontal ||| up, .solid)
  | '┼' => some (vertical ||| horizontal, .solid)
  | _ => none

/-- The sides and the stroke a glyph stands for. Texts, arrowheads and blanks stand for none. -/
def decode? : CharacterSet → Char → Option (Nat × Stroke)
  | .ascii => decodeAscii?
  | .unicode => decodeBox?

def arrow : CharacterSet → Direction → Char
  | .ascii, .up => '^'
  | .ascii, .down => 'v'
  | .ascii, .left => '<'
  | .ascii, .right => '>'
  | .unicode, .up => '▲'
  | .unicode, .down => '▼'
  | .unicode, .left => '◀'
  | .unicode, .right => '▶'

/-- The mark at both ends of a drawing. -/
def terminal : CharacterSet → Char
  | .ascii => 'o'
  | .unicode => '●'

end Canvas

end RegexDiagram
