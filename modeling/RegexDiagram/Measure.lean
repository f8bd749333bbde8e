import RegexDiagram.Failure
import RegexDiagram.Geometry.Scalar
import RegexDiagram.Text.Columns

/-!
# Measuring text

Layout has to know how large a label is before it is placed. How texts are measured is an argument
of every layout. The two built-in measures count columns and refuse control characters, which have
none.
-/

namespace RegexDiagram

structure Extent (α : Type) where
  width : α
  height : α
  /-- The distance from the top to the line the characters stand on. -/
  baseline : α
  deriving DecidableEq, Repr

/-- A line of text that takes no room. -/
def Extent.zero {α : Type} [Scalar α] : Extent α := ⟨0, 0, 0⟩

/-- A way of measuring a line of text. -/
abbrev Measure (α : Type) := List Char → Except Failure (Extent α)

namespace Measure

variable {α : Type} [Scalar α]

/-- The first control character of a text makes measuring fail. -/
def refuseControl (text : List Char) : Except Failure Unit :=
  match text.find? isControl with
  | none => .ok ()
  | some c =>
    let code := String.ofList (upperHex 4 c.toNat)
    .error (.measure text ("control character U+" ++ code ++ " has no width"))

/-- A font in which every column has the same width. -/
def font [TerminalWidths] (advance lineHeight ascent : α) : Measure α := fun text => do
  refuseControl text
  return ⟨Scalar.ofNat (columns text) * advance, lineHeight, ascent⟩

def standardFont [TerminalWidths] : Measure α := font 7 14 11

/-- Cells of a terminal: a unit is a column or a row. -/
def cells [TerminalWidths] : Measure α := fun text => do
  refuseControl text
  return ⟨Scalar.ofNat (columns text), 1, 0⟩

def fixed (extent : Extent α) : Measure α := fun _ => .ok extent

/-- No text can be measured, for the given reason. -/
def failing (reason : String) : Measure α := fun text => .error (.measure text reason)

/-- The extent of a text, or none at all where it cannot be measured. -/
def extent (measure : Measure α) (text : List Char) : Extent α :=
  match measure text with
  | .ok extent => extent
  | .error _ => .zero

end Measure

end RegexDiagram
