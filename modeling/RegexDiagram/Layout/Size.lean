import RegexDiagram.Decimal.Positional
import RegexDiagram.Layout.Fragment

/-!
# Sizes

Measures may answer any number, so a drawing can come out with a size that cannot be painted.
-/

namespace RegexDiagram

/-- A length that can be painted. -/
def isDrawable (length : Float) : Bool := length.isFinite && 0 ≤ length

/-- The failure of a drawing whose width or height cannot be painted. -/
def Drawing.checkSize (d : Drawing Float) : Except Failure Unit :=
  if isDrawable d.width && isDrawable d.height then .ok ()
  else
    let width := String.ofList (Decimal.floatText d.width)
    let height := String.ofList (Decimal.floatText d.height)
    .error (.render ("diagram size " ++ width ++ "x" ++ height ++ " cannot be drawn"))

end RegexDiagram
