import RegexDiagram.Failure
import RegexDiagram.Text.Bytes

/-!
# Anomalies

Reading a pattern never fails. What cannot be made sense of is read as literal text, and the place
is noted as an anomaly, so that a caller can still refuse the pattern.
-/

namespace RegexDiagram.Pattern

/-- What had to be recovered from. -/
inductive Anomaly.Kind where
  | unterminatedGroup
  | unterminatedCharset
  | unmatchedParen
  | malformedQuantifier
  | nothingToRepeat
  | unknownEscape (c : Char)
  | incompleteEscape (c : Char)
  | trailingBackslash
  | unterminatedGroupName
  deriving DecidableEq, Repr

/-- An anomaly and the byte position where the construct starts. -/
structure Anomaly where
  offset : Nat
  kind : Anomaly.Kind
  deriving DecidableEq, Repr

namespace Anomaly

/-- The anomaly in words, without its place. -/
def Kind.message : Kind → String
  | .unterminatedGroup => "unterminated group"
  | .unterminatedCharset => "unterminated character class"
  | .unmatchedParen => "unmatched closing parenthesis"
  | .malformedQuantifier => "malformed quantifier"
  | .nothingToRepeat => "nothing to repeat"
  | .unknownEscape c => "unknown escape \\" ++ String.singleton c
  | .incompleteEscape c => "incomplete escape \\" ++ String.singleton c
  | .trailingBackslash => "trailing backslash"
  | .unterminatedGroupName => "unterminated group name"

def message (a : Anomaly) : String := a.kind.message ++ " at offset " ++ toString a.offset

/-- The line and the column of the end of a text, both counted from one. Columns count characters. -/
def endPosition (before : List Char) : Nat × Nat :=
  (before.count '\n' + 1, (before.reverse.takeWhile (· ≠ '\n')).length + 1)

/-- Line and column of the anomaly in the text it was found in. A position that is not between two
characters of the text counts as its end. -/
def position (a : Anomaly) (input : List Char) : Nat × Nat :=
  endPosition ((beforeByte? a.offset input).getD input)

/-- The failure a strict reading reports for the anomaly. -/
def toFailure (a : Anomaly) (input : List Char) : Failure :=
  let (line, column) := a.position input
  .parse a.kind.message line column

end Anomaly

end RegexDiagram.Pattern
