import RegexDiagram.Canvas.Glyph
import RegexDiagram.Text.Lines
import RegexDiagram.Text.Numeral

/-!
# Colours

A drawing in text with colours for a terminal. Tracks and frames, arrowheads, terminals and literals
have a colour each; other labels keep the colour of the terminal. In ASCII the marks are letters
too, so they are coloured only beside a track.
-/

namespace RegexDiagram.Canvas

inductive Color where
  | cyan | yellow | green | magenta
  deriving DecidableEq, Repr

def Color.code : Color → Nat
  | .cyan => 14
  | .yellow => 11
  | .green => 10
  | .magenta => 13

/-- The escape sequence that chooses a colour. -/
def Color.start (color : Color) : List Char :=
  ['\x1b'] ++ "[38;5;".toList ++ decimal color.code ++ ['m']

def Color.reset : List Char := ['\x1b'] ++ "[39m".toList

def colored (color : Option Color) (c : Char) : List Char :=
  match color with
  | some color => color.start ++ [c] ++ Color.reset
  | none => [c]

/-- Whether a character begins or ends the text of a literal. -/
def isQuote : CharacterSet → Char → Bool
  | .ascii, c => c == '"'
  | .unicode, c => c == '“' || c == '”'

/-- Whether the text of a literal goes on behind a quote. -/
def opens : CharacterSet → Bool → Char → Bool
  | .ascii, quoted, _ => !quoted
  | .unicode, _, c => c == '“'

/-- Whether a neighbour in the row belongs to a line. -/
def touches (set : CharacterSet) (neighbour : Option Char) : Bool :=
  match neighbour with
  | some c => (decode? set c).isSome
  | none => false

/-- The colour of a character outside quotes, given its neighbours. -/
def trackColor (set : CharacterSet) (before : Option Char) (c : Char) (after : Option Char) :
    Option Color :=
  let beside := set = .unicode ∨ touches set before ∨ touches set after
  if (decode? set c).isSome then some .cyan
  else if c ∈ [arrow set .up, arrow set .down, arrow set .left, arrow set .right] ∧ beside then
    some .yellow
  else if c = terminal set ∧ beside then some .green
  else none

/-- A line with its colours, given the character before it and whether that is inside quotes. -/
def colorLine (set : CharacterSet) (quoted : Bool) (before : Option Char) : List Char → List Char
  | [] => []
  | c :: rest =>
    if isQuote set c then
      colored (some .magenta) c ++ colorLine set (opens set quoted c) (some c) rest
    else if quoted then colored (some .magenta) c ++ colorLine set quoted (some c) rest
    else
      colored (trackColor set before c rest.head?) c ++ colorLine set quoted (some c) rest

/-- A text with its colours. It ends with a line break if it did so before. -/
def colorize (set : CharacterSet) (s : List Char) : List Char :=
  let lines := (displayLines s).map (colorLine set false none)
  let result := lines.flatMap fun line => line ++ ['\n']
  if s.getLast? ≠ some '\n' ∧ result.getLast? = some '\n' then result.dropLast else result

end RegexDiagram.Canvas
