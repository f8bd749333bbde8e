import RegexDiagram.Canvas.Glyph

/-!
# Components

The names under which the stages of drawing report themselves.
-/

namespace RegexDiagram

def version : String := "0.1.0"

structure Component where
  name : String
  version : String := RegexDiagram.version

/-- A painter, with the format it produces. -/
structure Painter extends Component where
  format : String

def patternReader : Component := ⟨"regex", version⟩

def railroadLayout : Component := ⟨"railroad", version⟩

def picturePainter : Painter := ⟨⟨"svg", version⟩, "svg"⟩

/-- The painter of text in a character set. -/
def textPainter (set : CharacterSet) : Painter := ⟨⟨"text", version⟩, set.name⟩

end RegexDiagram
