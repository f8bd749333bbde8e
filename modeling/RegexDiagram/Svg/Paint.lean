import RegexDiagram.Svg.Surface

/-!
# Painting pictures

A laid out drawing as a picture. Every fragment becomes a group of its class, moved by its offset,
so the groups follow the syntax tree.
-/

namespace RegexDiagram.Svg

variable {α : Type} [Scalar α]

/-- Half the size of an arrowhead. -/
def arrowSize : α := 4

/-- A triangle that points in a direction, its middle at the given point. -/
def arrowhead (tip : Point α) (direction : Direction) : List (Segment α) :=
  let s : α := arrowSize
  let triangle (ax ay bx by_ cx cy : α) : List (Segment α) :=
    [.moveTo (tip.translate ax ay), .lineTo (tip.translate bx by_), .lineTo (tip.translate cx cy)]
  match direction with
  | .right => triangle (-s) (-s) s 0 (-s) s
  | .left => triangle s (-s) (-s) 0 s s
  | .up => triangle (-s) s 0 (-s) s s
  | .down => triangle (-s) (-s) 0 s s (-s)

/-- The element of a shape. A text stands on its baseline. -/
def paintShape : Shape α → Element α
  | .rect rect radius _ className => .rect rect radius className
  | .text origin extent text className =>
    .text (origin.translate 0 extent.baseline) text className
  | .path segments className => .path segments className
  | .circle center radius className => .circle center radius className
  | .arrow tip direction => .path (arrowhead tip direction) "arrow"

mutual

/-- The group of a fragment at an offset: its shapes and then its children. -/
def paintFragment (offset : Point α) : Fragment α → Element α
  | ⟨className, _, shapes, children⟩ =>
    .grouped (some className) offset (shapes.map paintShape ++ paintChildren children)

/-- The groups of children in order. -/
def paintChildren : List (Placed α) → List (Element α)
  | [] => []
  | ⟨offset, fragment⟩ :: rest => paintFragment offset fragment :: paintChildren rest

end

/-- A surface that shows a drawing instead of what it showed before. -/
def Surface.depict (s : Surface α) (d : Drawing α) : Surface α :=
  (s.clear.resize d.width d.height).push (paintFragment .origin d.fragment)

end RegexDiagram.Svg
