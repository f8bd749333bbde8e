import RegexDiagram.Failure
import RegexDiagram.Geometry.Box
import RegexDiagram.Measure

/-!
# Fragments

What a layout produces. A fragment draws one construct: it has a box whose corner is the origin of
its own coordinates, shapes in these coordinates, and the fragments of its parts, each at an offset.
-/

namespace RegexDiagram

inductive Segment (α : Type) where
  | moveTo (point : Point α)
  | lineTo (point : Point α)
  | quadTo (control point : Point α)
  deriving DecidableEq, Repr

/-- Something to be drawn, in the coordinates of its fragment. -/
inductive Shape (α : Type) where
  | rect (rect : Rect α) (radius : α) (dashed : Bool) (className : String)
  /-- A line of text; the origin is the top left corner of its extent. -/
  | text (origin : Point α) (extent : Extent α) (text : List Char) (className : String)
  | path (segments : List (Segment α)) (className : String)
  | circle (center : Point α) (radius : α) (className : String)
  | arrow (tip : Point α) (direction : Direction)
  deriving DecidableEq, Repr

mutual

/-- A construct that has been laid out. -/
structure Fragment (α : Type) where
  /-- The construct that is drawn. -/
  className : String
  box : Box α
  shapes : List (Shape α)
  children : List (Placed α)

/-- A fragment inside another: the offset is where its corner lies. -/
structure Placed (α : Type) where
  offset : Point α
  fragment : Fragment α

end

variable {α : Type} [Scalar α]

/-- The box of a child in the coordinates of the fragment around it. -/
def Placed.box (p : Placed α) : Box α := p.fragment.box.translate p.offset.x p.offset.y

mutual

/-- A fragment and all fragments in it, parents before children. -/
def Fragment.descendants : Fragment α → List (Fragment α)
  | ⟨className, box, shapes, children⟩ =>
    ⟨className, box, shapes, children⟩ :: childDescendants children

/-- The children in order, each with all fragments in it. -/
def childDescendants : List (Placed α) → List (Fragment α)
  | [] => []
  | ⟨_, fragment⟩ :: rest => fragment.descendants ++ childDescendants rest

end

def Shape.text? : Shape α → Option (List Char)
  | .text _ _ words _ => some words
  | _ => none

/-- All texts of a fragment and of the fragments in it. -/
def Fragment.texts (f : Fragment α) : List (List Char) :=
  f.descendants.flatMap fun g => g.shapes.filterMap Shape.text?

/-- A path that is part of a track. -/
def Shape.connector (segments : List (Segment α)) : Shape α := .path segments "connector"

/-- A straight connector. -/
def Shape.track (p q : Point α) : Shape α := .connector [.moveTo p, .lineTo q]

/-- A whole drawing: its outermost fragment and its size. -/
structure Drawing (α : Type) where
  fragment : Fragment α
  width : α
  height : α

end RegexDiagram
