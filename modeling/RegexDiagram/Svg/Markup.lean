import RegexDiagram.Decimal.Positional
import RegexDiagram.Text.Lines

/-!
# Markup

Text inside XML. The five characters with a meaning of their own are written as entities, and
control characters that XML does not have are replaced.
-/

namespace RegexDiagram.Svg

/-- A character of a text or an attribute. -/
def escapeChar (c : Char) : List Char :=
  if c = '&' then "&amp;".toList
  else if c = '<' then "&lt;".toList
  else if c = '>' then "&gt;".toList
  else if c = '"' then "&quot;".toList
  else if c = '\'' then "&apos;".toList
  else if isControl c && c != '\t' && c != '\n' && c != '\r' then ['\uFFFD']
  else [c]

/-- A text as the content of an element or the value of an attribute. -/
def escape (s : List Char) : List Char := s.flatMap escapeChar

/-- An attribute whose value is a text. -/
def textAttribute (name : String) (value : List Char) : List Char :=
  [' '] ++ name.toList ++ ['=', '"'] ++ escape value ++ ['"']

/-- An attribute whose value is a coordinate. -/
def numberAttribute (name : String) (value : Float) : List Char :=
  [' '] ++ name.toList ++ ['=', '"'] ++ Decimal.coordinateText value ++ ['"']

end RegexDiagram.Svg
