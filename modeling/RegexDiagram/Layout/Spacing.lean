import RegexDiagram.Geometry.Scalar

/-!
# Spacing

The distances that a layout keeps. There is one set for pictures, in pixels, and one for character
cells, where every position has to fall on a whole cell.
-/

namespace RegexDiagram

structure Spacing (α : Type) where
  labelPaddingX : α
  labelPaddingY : α
  /-- The radius of the corners of label boxes. -/
  labelRadius : α
  /-- Between the items of a sequence. -/
  sequenceGap : α
  /-- Between branches and between class members. -/
  branchGap : α
  /-- On each side of an alternation, for its connectors. -/
  branchIndent : α
  curveRadius : α
  /-- Branches closer than this to the middle have a direct connector. -/
  nearThreshold : α
  groupPadding : α
  /-- Between a caption and what it names. -/
  captionGap : α
  terminalRadius : α
  terminalStub : α
  margin : α
  /-- Halves are rounded down to whole units. -/
  snap : Bool
  /-- From the width of a shape back to its right edge. -/
  strokeInset : α
  /-- Curly quotes and ellipses are replaced by ASCII. -/
  asciiText : Bool
  deriving Repr

namespace Spacing

variable {α : Type} [Scalar α]

/-- The distances of pictures, in pixels. -/
def pixels : Spacing α :=
  { labelPaddingX := 5, labelPaddingY := 2, labelRadius := 3, sequenceGap := 10, branchGap := 5
    branchIndent := 20, curveRadius := 10, nearThreshold := 15, groupPadding := 10
    captionGap := 2, terminalRadius := 5, terminalStub := 10, margin := 10, snap := false
    strokeInset := 0, asciiText := false }

def cells : Spacing α :=
  { labelPaddingX := 2, labelPaddingY := 1, labelRadius := 0, sequenceGap := 2, branchGap := 1
    branchIndent := 4, curveRadius := 1, nearThreshold := 1, groupPadding := 2
    captionGap := 0, terminalRadius := 0, terminalStub := 2, margin := 1, snap := true
    strokeInset := 1, asciiText := false }

def asciiCells : Spacing α := { cells with asciiText := true }

/-- A position on a whole unit, where the layout asks for that. -/
def snapped (c : Spacing α) (value : α) : α := if c.snap then Scalar.floor value else value

/-- A typographic character in ASCII. -/
def asciiChar (ch : Char) : List Char :=
  if ch = '“' ∨ ch = '”' then ['"'] else if ch = '…' then ['.', '.'] else [ch]

/-- The text as it is shown. -/
def shown (c : Spacing α) (text : List Char) : List Char :=
  if c.asciiText then text.flatMap asciiChar else text

end Spacing

end RegexDiagram
