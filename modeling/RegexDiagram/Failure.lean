import RegexDiagram.Text.Quoted

/-!
# Failures

Drawing a pattern can fail for four reasons. Each has its own constructor, and the wording is in one
place.
-/

namespace RegexDiagram

/-- Why a pattern was refused or a drawing could not be made. -/
inductive Failure where
  /-- A strict reading met an anomaly. -/
  | parse (message : String) (line column : Nat)
  /-- A text has no extent. -/
  | measure (text : List Char) (reason : String)
  /-- The drawing has a size that no painter can work with. -/
  | render (message : String)
  /-- The system could not read or write. -/
  | system (message : String)
  deriving DecidableEq, Repr

def Failure.message : Failure → String
  | .parse message line column =>
    "Parse error: " ++ message ++ " at line " ++ toString line ++ ", column " ++ toString column
  | .measure text reason =>
    "Measure error: cannot measure " ++ String.ofList (quoted text) ++ ": " ++ reason
  | .render message => "Render error: " ++ message
  | .system message => "IO error: " ++ message

end RegexDiagram
