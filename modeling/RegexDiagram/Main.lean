import RegexDiagram.CommandLine.Report

/-!
# The program

Reads the arguments and the source of the pattern, and prints what the report says. Everything else
is decided by `CommandLine`.
-/

open RegexDiagram.CommandLine

/-- What the system says about a failure. -/
def systemReason (e : IO.Error) : String :=
  match e with
  | .noFileOrDirectory _ code details | .permissionDenied (some _) code details
  | .inappropriateType (some _) code details =>
    details ++ " (os error " ++ toString code ++ ")"
  | e => toString e

def readSource (source : Source) : IO Answer :=
  try
    match source with
    | .inline _ => return .ok .empty
    | .file path => return .ok (← IO.FS.readBinFile path)
    | .standardInput => return .ok (← (← IO.getStdin).readBinToEnd)
  catch e => return .error (systemReason e)

/-- Writes a file and answers the reason where that fails. -/
def writeOutput (path : String) (content : List Char) : IO (Option String) :=
  try
    IO.FS.writeFile path (String.ofList content)
    return none
  catch e => return some (writeFailure path (systemReason e))

def runCommand (command : Command) : IO UInt32 := do
  let stdout ← IO.getStdout
  let colors ← IO.getEnv "NO_COLOR"
  let terminal := (← stdout.isTty) && colors.isNone
  let report := command.report terminal (← readSource command.source)
  IO.eprint (String.ofList report.notes)
  IO.print (String.ofList report.output)
  stdout.flush
  let written ←
    match report.file with
    | some (path, content) => writeOutput path content
    | none => pure none
  match written <|> report.failure with
  | none => return 0
  | some reason =>
    IO.eprintln ("Error: " ++ reason)
    return 1

def main (arguments : List String) : IO UInt32 :=
  match Command.read arguments with
  | .ok command => runCommand command
  | .error reason => do
    IO.eprintln ("error: " ++ reason.name)
    return 2
