import RegexDiagram.Geometry.Scalar

/-!
# Points and boxes

The values that layout hands to painting. A box has, besides its edges, the places where tracks
attach: the track enters at one x-coordinate, leaves at another, and runs at one height. The
attachments need not lie on the edges of the box.
-/

namespace RegexDiagram

variable {α : Type} [Scalar α]

/-- A point of the plane; y grows downwards. -/
structure Point (α : Type) where
  x : α
  y : α
  deriving DecidableEq, Repr

namespace Point

def origin : Point α := ⟨0, 0⟩

/-- The point moved by the given distances. -/
def translate (p : Point α) (dx dy : α) : Point α := ⟨p.x + dx, p.y + dy⟩

def same (p q : Point α) : Bool := Scalar.same p.x q.x && Scalar.same p.y q.y

end Point

/-- Where an arrowhead points to. -/
inductive Direction where
  | up | down | left | right
  deriving DecidableEq, Repr

structure Rect (α : Type) where
  x : α
  y : α
  width : α
  height : α
  deriving DecidableEq, Repr

namespace Rect

def right (r : Rect α) : α := r.x + r.width

def bottom (r : Rect α) : α := r.y + r.height

end Rect

/-- A box and the places where tracks attach to it. -/
structure Box (α : Type) where
  x : α
  y : α
  width : α
  height : α
  /-- Where the track enters, as an x-coordinate. -/
  entry : α
  /-- Where the track leaves, as an x-coordinate. -/
  exit : α
  /-- The height at which the track runs. -/
  track : α
  deriving Repr

namespace Box

/-- A box whose track runs through the middle from edge to edge. -/
def ofRect (x y width height : α) : Box α := ⟨x, y, width, height, x, x + width, y + height / 2⟩

def empty : Box α := ofRect 0 0 0 0

/-- A box at the origin with the given attachments. -/
def sized (width height entry exit track : α) : Box α := ⟨0, 0, width, height, entry, exit, track⟩

def withTrack (b : Box α) (entry exit track : α) : Box α := { b with entry, exit, track }

def right (b : Box α) : α := b.x + b.width

def bottom (b : Box α) : α := b.y + b.height

/-- The height of the track below the top edge. -/
def trackOffset (b : Box α) : α := b.track - b.y

/-- The box moved by the given distances, with its attachments. -/
def translate (b : Box α) (dx dy : α) : Box α :=
  { b with x := b.x + dx, y := b.y + dy, entry := b.entry + dx, exit := b.exit + dx,
           track := b.track + dy }

end Box

end RegexDiagram
