import RegexDiagram.Canvas.Grid
import RegexDiagram.Layout.Fragment

/-!
# Painting in cells

A laid out drawing as text. All lines are drawn before all marks, so a label, an arrowhead or a
terminal is never crossed by a line. Curves become elbows through their control points.
-/

namespace RegexDiagram.Canvas

variable {α : Type} [Scalar α] (set : CharacterSet)

/-- A line between two points: straight, or along the row and then along the column. -/
def paintLine (g : Grid) (p q : Point α) : Grid :=
  let x₀ := Scalar.cell p.x
  let y₀ := Scalar.cell p.y
  let x₁ := Scalar.cell q.x
  let y₁ := Scalar.cell q.y
  if y₀ = y₁ then g.drawHorizontal set x₀ x₁ y₀ .round
  else if x₀ = x₁ then g.drawVertical set x₀ y₀ y₁ .round
  else (g.drawHorizontal set x₀ x₁ y₀ .round).drawVertical set x₁ y₀ y₁ .round

/-- One piece of a path, and the point where it ends. -/
def paintSegment (origin : Point α) (state : Grid × Point α) (segment : Segment α) :
    Grid × Point α :=
  let (g, current) := state
  match segment with
  | .moveTo p => (g, origin.translate p.x p.y)
  | .lineTo p =>
    let next := origin.translate p.x p.y
    (paintLine set g current next, next)
  | .quadTo control p =>
    let bend := origin.translate control.x control.y
    let next := origin.translate p.x p.y
    (paintLine set (paintLine set g current bend) bend next, next)

/-- The lines of a shape. -/
def paintShapeLines (origin : Point α) (g : Grid) : Shape α → Grid
  | .rect area radius dashed _ =>
    g.drawRect set (Scalar.cell (origin.x + area.x)) (Scalar.cell (origin.y + area.y))
      (Scalar.cell (origin.x + area.right - 1)) (Scalar.cell (origin.y + area.bottom - 1))
      ⟨dashed, Scalar.less 0 radius⟩
  | .path segments _ => (segments.foldl (paintSegment set origin) (g, origin)).1
  | .text .. | .circle .. | .arrow .. => g

/-- The marks of a shape: texts, arrowheads and terminals. -/
def paintShapeMarks [TerminalWidths] (origin : Point α) (g : Grid) : Shape α → Grid
  | .text at_ _ text _ =>
    g.drawText (Scalar.cell (origin.x + at_.x)) (Scalar.cell (origin.y + at_.y)) text
  | .arrow tip direction =>
    g.setChar (Scalar.cell (origin.x + tip.x)) (Scalar.cell (origin.y + tip.y))
      (arrow set direction)
  | .circle center _ _ =>
    g.setChar (Scalar.cell (origin.x + center.x)) (Scalar.cell (origin.y + center.y))
      (terminal set)
  | .rect .. | .path .. => g

mutual

/-- Everything that `paint` draws for the shapes of a fragment and of the fragments in it, parents
before children. -/
def paintFragment (paint : Point α → Grid → Shape α → Grid) (origin : Point α) (g : Grid) :
    Fragment α → Grid
  | ⟨_, _, shapes, children⟩ =>
    paintChildren paint origin (shapes.foldl (paint origin) g) children

/-- Everything that `paint` draws for children in order. -/
def paintChildren (paint : Point α → Grid → Shape α → Grid) (origin : Point α) (g : Grid) :
    List (Placed α) → Grid
  | [] => g
  | ⟨offset, fragment⟩ :: rest =>
    let g := paintFragment paint (origin.translate offset.x offset.y) g fragment
    paintChildren paint origin g rest

end

/-- The grid that shows a drawing. -/
def paint [TerminalWidths] (d : Drawing α) : Grid :=
  let g := Grid.blank (Scalar.cell d.width) (Scalar.cell d.height)
  let g := paintFragment (paintShapeLines set) .origin g d.fragment
  paintFragment (paintShapeMarks set) .origin g d.fragment

end RegexDiagram.Canvas
