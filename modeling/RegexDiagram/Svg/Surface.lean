import RegexDiagram.Svg.Element

/-!
# Surfaces

A picture that is being made: its size, its elements and a stylesheet, written as a document that
stands alone.
-/

namespace RegexDiagram.Svg

structure Surface (α : Type) where
  width : α
  height : α
  elements : List (Element α)
  stylesheet : Option (List Char)

namespace Surface

variable {α : Type} [Scalar α]

/-- A picture without elements, size and stylesheet. -/
def empty : Surface α := ⟨0, 0, [], none⟩

/-- The picture without its elements and its size; the stylesheet stays. -/
def clear (s : Surface α) : Surface α := { s with width := 0, height := 0, elements := [] }

def resize (s : Surface α) (width height : α) : Surface α := { s with width, height }

def push (s : Surface α) (element : Element α) : Surface α :=
  { s with elements := s.elements ++ [element] }

def withStylesheet (s : Surface α) (css : Option (List Char)) : Surface α :=
  { s with stylesheet := css }

/-- The number of elements of a class, at any depth. -/
def countClass (s : Surface α) (className : String) : Nat :=
  Element.countClassIn className s.elements

/-- The texts of the picture in document order. -/
def texts (s : Surface α) : List (List Char) := Element.textsIn s.elements

/-- The opening tag of a document of the given size. -/
def opening (width height : Float) : List Char :=
  let w := Decimal.coordinateText width
  let h := Decimal.coordinateText height
  "<svg xmlns=\"http://www.w3.org/2000/svg\" width=\"".toList ++ w ++ "\" height=\"".toList ++ h ++
    "\" viewBox=\"0 0 ".toList ++ w ++ [' '] ++ h ++ "\">\n".toList

/-- The stylesheet inside a document. -/
def styleElement (css : List Char) : List Char :=
  "  <style>".toList ++ escape css ++ "</style>\n".toList

def document (s : Surface Float) : List Char :=
  opening s.width s.height ++ (s.stylesheet.map styleElement).getD [] ++
    Element.writeAll 1 s.elements ++ "</svg>".toList

end Surface

end RegexDiagram.Svg
