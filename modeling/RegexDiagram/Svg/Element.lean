import RegexDiagram.Layout.Fragment
import RegexDiagram.Svg.Markup

/-!
# Elements

The elements a picture is made of, and how they are written. An element carries the name of a class
and no colours; these come from a stylesheet.
-/

namespace RegexDiagram.Svg

/-- An element of a picture. -/
inductive Element (α : Type) where
  | group (className : Option String) (translate : Option (Point α)) (children : List (Element α))
  | rect (rect : Rect α) (radius : α) (className : String)
  | path (segments : List (Segment α)) (className : String)
  | circle (center : Point α) (radius : α) (className : String)
  | text (position : Point α) (content : List Char) (className : String)

namespace Element

section General

variable {α : Type} [Scalar α]

/-- A group at an offset. Nothing is moved where the offset is zero. -/
def grouped (className : Option String) (offset : Point α) (children : List (Element α)) :
    Element α :=
  .group className (if offset.same .origin then none else some offset) children

def className? : Element α → Option String
  | .group className .. => className
  | .rect _ _ className | .path _ className | .circle _ _ className | .text _ _ className =>
    some className

def children : Element α → List (Element α)
  | .group _ _ children => children
  | _ => []

mutual

/-- The number of elements of a class, the element itself and all inside it. -/
def countClass (className : String) : Element α → Nat
  | .group name _ children =>
    (if name = some className then 1 else 0) + countClassIn className children
  | .rect _ _ name | .path _ name | .circle _ _ name | .text _ _ name =>
    if name = className then 1 else 0

/-- The number of elements of a class in a list. -/
def countClassIn (className : String) : List (Element α) → Nat
  | [] => 0
  | element :: rest => element.countClass className + countClassIn className rest

end

mutual

/-- The texts of an element in document order. -/
def texts : Element α → List (List Char)
  | .group _ _ children => textsIn children
  | .text _ content _ => [content]
  | .rect .. | .path .. | .circle .. => []

def textsIn : List (Element α) → List (List Char)
  | [] => []
  | element :: rest => element.texts ++ textsIn rest

end

end General

/-! ## Writing -/

def pointData (p : Point Float) : List Char :=
  Decimal.coordinateText p.x ++ [','] ++ Decimal.coordinateText p.y

def segmentData : Segment Float → List Char
  | .moveTo p => 'M' :: pointData p
  | .lineTo p => 'L' :: pointData p
  | .quadTo control p => 'Q' :: pointData control ++ [' '] ++ pointData p

def pathData (segments : List (Segment Float)) : List Char :=
  joinWith [' '] (segments.map segmentData)

def indentation (depth : Nat) : List Char := List.replicate (2 * depth) ' '

/-- The opening of a tag at a depth. -/
def tag (depth : Nat) (name : String) : List Char := indentation depth ++ ['<'] ++ name.toList

/-- The attribute that moves a group to a point. -/
def moveAttribute (p : Point Float) : List Char :=
  " transform=\"translate(".toList ++ pointData p ++ ")\"".toList

/-- The attributes of a group. A group without a class has no attribute for it. -/
def groupAttributes (className : Option String) (translate : Option (Point Float)) : List Char :=
  (className.map fun name => textAttribute "class" name.toList).getD [] ++
    (translate.map moveAttribute).getD []

/-- The attributes of a rectangle. An empty class and a radius that is not positive are left out. -/
def rectAttributes (area : Rect Float) (radius : Float) (className : String) : List Char :=
  (if className = "" then [] else textAttribute "class" className.toList) ++
    numberAttribute "x" area.x ++ numberAttribute "y" area.y ++
    numberAttribute "width" area.width ++ numberAttribute "height" area.height ++
    (if 0 < radius then numberAttribute "rx" radius else [])

mutual

/-- An element at a depth, with the line break behind it. -/
def write (depth : Nat) : Element Float → List Char
  | .group className translate [] =>
    tag depth "g" ++ groupAttributes className translate ++ "/>\n".toList
  | .group className translate (child :: children) =>
    tag depth "g" ++ groupAttributes className translate ++ ">\n".toList ++
      child.write (depth + 1) ++ writeAll (depth + 1) children ++ tag depth "/g>\n"
  | .rect area radius className =>
    tag depth "rect" ++ rectAttributes area radius className ++ "/>\n".toList
  | .path segments className =>
    tag depth "path" ++ textAttribute "class" className.toList ++ " d=\"".toList ++
      pathData segments ++ "\"/>\n".toList
  | .circle center radius className =>
    tag depth "circle" ++ textAttribute "class" className.toList ++ numberAttribute "cx" center.x ++
      numberAttribute "cy" center.y ++ numberAttribute "r" radius ++ "/>\n".toList
  | .text position content className =>
    tag depth "text" ++ textAttribute "class" className.toList ++ numberAttribute "x" position.x ++
      numberAttribute "y" position.y ++ ['>'] ++ escape content ++ "</text>\n".toList

/-- Elements one after the other. -/
def writeAll (depth : Nat) : List (Element Float) → List Char
  | [] => []
  | element :: rest => element.write depth ++ writeAll depth rest

end

end Element

end RegexDiagram.Svg
