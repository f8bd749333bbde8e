import RegexDiagram.Canvas.Color
import RegexDiagram.CommandLine.Command
import RegexDiagram.Component
import RegexDiagram.Diagram
import RegexDiagram.Pattern.Outline
import RegexDiagram.Pattern.Record
import RegexDiagram.Pattern.View
import RegexDiagram.Text.Terminal

/-!
# Reports

What a command prints and writes, given what its source holds. Reading and writing themselves are
left to the program around.
-/

namespace RegexDiagram.CommandLine

open Pattern

/-- What a command prints, what it writes to which file, and why it failed. -/
structure Report where
  output : List Char
  notes : List Char
  file : Option (String × List Char)
  failure : Option String

/-- What the system answered when a source was read: its bytes, or the reason why not. -/
abbrev Answer := Except String ByteArray

/-- The text of a source, or the reason why there is none. -/
def decodeSource (source : Source) (answer : Answer) : Except String (List Char) :=
  let text : Except String (List Char) :=
    match answer with
    | .error reason => .error reason
    | .ok bytes =>
      match String.fromUTF8? bytes with
      | some s => .ok s.toList
      | none => .error "stream did not contain valid UTF-8"
  match source, text with
  | .file path, .error reason =>
    .error ("Failed to read input file '" ++ path ++ "': " ++ reason)
  | _, text => text

def dropLineBreak (s : List Char) : List Char :=
  if s.getLast? = some '\n' then dropReturn s.dropLast else s

/-- The pattern of a source. One line break at the end of a file or of the standard input is not
part of it. -/
def patternOf (source : Source) (answer : Answer) : Except String (List Char) :=
  match source with
  | .inline pattern => .ok pattern.toList
  | source => (decodeSource source answer).map dropLineBreak

/-- The text with a line break at its end, unless it is empty. -/
def asLines (s : List Char) : List Char :=
  if s = [] ∨ s.getLast? = some '\n' then s else s ++ ['\n']

def writeFailure (path reason : String) : String :=
  "Failed to write output file '" ++ path ++ "': " ++ reason

/-- Whether text is coloured. Where that is left open, colours are for a terminal only. -/
def RenderOptions.colors (o : RenderOptions) (terminal : Bool) : Bool :=
  match o.coloring with
  | .always => true
  | .never => false
  | .auto => o.output.isNone && terminal

def RenderOptions.draw (o : RenderOptions) (terminal : Bool) (pattern : List Char) : List Char :=
  match o.format with
  | .picture => svgDocument pattern o.theme
  | .text =>
    let text := textDiagram pattern o.set
    if o.colors terminal then Canvas.colorize o.set text else text

/-- The line that an action notes when it is asked to be verbose. -/
def Action.note (action : Action) (pattern : List Char) : String :=
  match action with
  | .render _ => "Rendering " ++ toString (byteLength pattern) ++ " bytes of pattern\n"
  | .parse _ => "Parsed " ++ toString (Pattern.read pattern).root.descendants.length ++ " nodes\n"
  | .check => "Found " ++ toString (Pattern.read pattern).anomalies.length ++ " anomalies\n"

/-- What an action prints, without its notes. -/
def Action.report (action : Action) (terminal : Bool) (pattern : List Char) : Report :=
  match action with
  | .render options =>
    let drawing := options.draw terminal pattern
    match options.output with
    | some path => ⟨[], [], some (path, drawing), none⟩
    | none => ⟨asLines drawing, [], none, none⟩
  | .parse json =>
    let outcome := Pattern.read pattern
    ⟨if json then outcome.record.pretty 0 ++ ['\n'] else outcome.outline, [], none, none⟩
  | .check =>
    let outcome := Pattern.read pattern
    if outcome.isClean then ⟨"✓ Valid pattern\n".toList, [], none, none⟩
    else
      let line (a : Anomaly) := "✗ " ++ (a.toFailure pattern).message ++ "\n"
      let count := outcome.anomalies.length
      ⟨(String.join (outcome.anomalies.map line)).toList, [], none,
        some ("Pattern needed " ++ toString count ++ " recoveries")⟩

/-- What a command prints and writes. The terminal is known to be there or not. -/
def Command.report (command : Command) (terminal : Bool) (answer : Answer) : Report :=
  let greeting := if command.verbose then "Railyard v" ++ version ++ "\n" else ""
  match patternOf command.source answer with
  | .error reason => ⟨[], greeting.toList, none, some reason⟩
  | .ok pattern =>
    let note := if command.verbose then command.action.note pattern else ""
    { command.action.report terminal pattern with notes := (greeting ++ note).toList }

end RegexDiagram.CommandLine
