import RegexDiagram.Text.Letters

/-!
# Logging

The choices of a log and what can go wrong when one is started. A process has one log, and it stays
once it is started.
-/

namespace RegexDiagram

/-- The shapes a log line can have. -/
inductive LogFormat where
  | compact
  | pretty
  | json
  deriving DecidableEq, Repr

namespace LogFormat

def name : LogFormat → String
  | .compact => "compact"
  | .pretty => "pretty"
  | .json => "json"

def names : List String := [compact.name, pretty.name, json.name]

/-- The format of a name in any case. -/
def ofName? (s : List Char) : Option LogFormat :=
  if isNamed compact.name s then some .compact
  else if isNamed pretty.name s then some .pretty
  else if isNamed json.name s then some .json
  else none

end LogFormat

inductive LogFailure where
  | unknownFormat (name : List Char)
  | alreadyStarted
  deriving DecidableEq, Repr

def LogFailure.message : LogFailure → String
  | .unknownFormat name =>
    "Invalid log format: Unknown log format: " ++ String.ofList name
  | .alreadyStarted => "a global default trace dispatcher has already been set"

/-- Starts a log in the format that is asked for, or else in the usual one, unless there is a log
already. The name of the format is looked at first. -/
def startLog (running : Bool) (usual : List Char) (format : Option (List Char)) :
    Except LogFailure LogFormat :=
  let name := format.getD usual
  match LogFormat.ofName? name with
  | none => .error (.unknownFormat name)
  | some format => if running then .error .alreadyStarted else .ok format

end RegexDiagram
