import RegexDiagram.Canvas.Paint
import RegexDiagram.Layout.Railroad
import RegexDiagram.Layout.Size
import RegexDiagram.Pattern.Outcome
import RegexDiagram.Svg.Paint
import RegexDiagram.Svg.Theme

/-!
# Diagrams

From a pattern to its railroad diagram, as a picture or as text, for terminals of given widths.
-/

namespace RegexDiagram

open Pattern

/-- A surface that shows a tree instead of what it showed before. -/
def Svg.Surface.depictRoot {α : Type} [Scalar α] (s : Svg.Surface α) (c : Spacing α) (m : Measure α)
    (root : Root) : Svg.Surface α :=
  s.depict (root.drawing c m)

def picture [TerminalWidths] (input : List Char) : Svg.Surface Float :=
  Svg.Surface.empty.depictRoot .pixels .standardFont (read input).root

/-- The document that shows a pattern, with the stylesheet of a theme if one is given. -/
def svgDocument [TerminalWidths] (input : List Char) (theme : Option Svg.Theme) : List Char :=
  ((picture input).withStylesheet (theme.map (·.stylesheet))).document

def CharacterSet.spacing {α : Type} [Scalar α] : CharacterSet → Spacing α
  | .ascii => .asciiCells
  | .unicode => .cells

def textDiagram [TerminalWidths] (input : List Char) (set : CharacterSet) : List Char :=
  let drawing : Drawing Float := (read input).root.drawing set.spacing .cells
  (Canvas.paint set drawing).display

/-- A drawing as a picture, if its size allows it. -/
def Drawing.toSurface (d : Drawing Float) : Except Failure (Svg.Surface Float) := do
  d.checkSize
  return Svg.Surface.empty.depict d

/-- A drawing as text, if its size allows it. -/
def Drawing.toText [TerminalWidths] (d : Drawing Float) (set : CharacterSet) :
    Except Failure (List Char) := do
  d.checkSize
  return (Canvas.paint set d).display

end RegexDiagram
