import RegexDiagram.Canvas.Glyph
import RegexDiagram.CommandLine.Arguments
import RegexDiagram.Svg.Theme

/-!
# Commands

What the command line can ask for: to draw a pattern, to print its tree, or to check it.
-/

namespace RegexDiagram.CommandLine

inductive Source where
  | inline (pattern : String)
  | file (path : String)
  | standardInput
  deriving DecidableEq, Repr

/-- What a drawing is made for. -/
inductive Format where
  | picture
  | text
  deriving DecidableEq, Repr

/-- When text is coloured. -/
inductive Coloring where
  | auto
  | always
  | never
  deriving DecidableEq, Repr

/-- How a drawing is made and where it goes. Without a file it is printed. -/
structure RenderOptions where
  output : Option String
  format : Format
  set : CharacterSet
  theme : Option Svg.Theme
  coloring : Coloring
  deriving DecidableEq, Repr

/-- What is done with the pattern. -/
inductive Action where
  | render (options : RenderOptions)
  | parse (json : Bool)
  | check
  deriving DecidableEq, Repr

structure Command where
  verbose : Bool
  source : Source
  action : Action
  deriving DecidableEq, Repr

/-! ## The levels of the command line -/

/-- Options that can stand at every level. -/
def commonFlags : List Flag :=
  [⟨"help", some 'h', .help⟩, ⟨"verbose", some 'v', .nothing⟩,
   ⟨"log-level", none, .choice ["trace", "debug", "info", "warn", "error"]⟩,
   ⟨"log-format", none, .choice ["compact", "pretty", "json"]⟩]

/-- Options that say where the pattern comes from. -/
def sourceFlags : List Flag :=
  [⟨"pattern", some 'p', .text⟩, ⟨"input", some 'i', .path⟩]

def renderFlags : List Flag :=
  [⟨"output", some 'o', .path⟩, ⟨"format", some 'f', .choice ["svg", "text"]⟩,
   ⟨"style", none, .choice ["ascii", "unicode"]⟩,
   ⟨"theme", none, .choice ["light", "dark", "none"]⟩,
   ⟨"color", none, .choice ["auto", "always", "never"]⟩]

def topLevel : Level :=
  ⟨⟨"version", some 'V', .version⟩ :: commonFlags, ["render", "parse", "check", "help"]⟩

def subLevel (name : String) : Level :=
  let own : List Flag :=
    if name = "render" then renderFlags
    else if name = "parse" then [⟨"json", none, .nothing⟩]
    else []
  ⟨own ++ sourceFlags ++ commonFlags, []⟩

/-! ## Understanding -/

/-- A file name, where a hyphen stands for the standard streams. -/
def fileName? (path : Option String) : Option String := path.filter (· ≠ "-")

def Given.source (g : Given) : Source :=
  match g.value? "pattern", fileName? (g.value? "input") with
  | some pattern, _ => .inline pattern
  | none, some path => .file path
  | none, none => .standardInput

def Given.renderOptions (g : Given) : RenderOptions :=
  { output := fileName? (g.value? "output")
    format := if g.value? "format" = some "text" then .text else .picture
    set := if g.value? "style" = some "ascii" then .ascii else .unicode
    theme :=
      match g.value? "theme" with
      | some "none" => none
      | some "dark" => some .dark
      | _ => some .light
    coloring :=
      match g.value? "color" with
      | some "always" => .always
      | some "never" => .never
      | _ => .auto }

def Given.action (g : Given) (name : String) : Action :=
  if name = "render" then .render g.renderOptions
  else if name = "parse" then .parse (g.has "json")
  else .check

/-- The subcommand for help, with the subcommands it is asked about. Only the first can be one. -/
def helpAbout (words : List String) : UsageError :=
  match words with
  | [] => .displayHelp
  | [word] => if topLevel.subcommands.contains word then .displayHelp else .invalidSubcommand
  | _ => .invalidSubcommand

/-- The words of a subcommand. A pattern is given only once, as a text or as a file. -/
def readSubcommand (name : String) (words : List String) : Except UsageError Given := do
  let (given_, _) ← readWords (subLevel name) .empty words
  let given_ ← given_.settle
  if given_.has "pattern" && given_.has "input" then .error .argumentConflict else .ok given_

/-- The command that the words of a command line ask for. -/
def Command.read (words : List String) : Except UsageError Command := do
  let (top, sub) ← readWords topLevel .empty words
  match sub with
  | none =>
    let top ← top.settle
    if top.settled.isEmpty then .error .displayHelpOnMissingArgumentOrSubcommand
    else .error .missingSubcommand
  | some (name, rest) =>
    if name = "help" then .error (helpAbout rest)
    else
      let sub ← readSubcommand name rest
      let top ← top.settle
      return ⟨top.has "verbose" || sub.has "verbose", sub.source, sub.action name⟩

end RegexDiagram.CommandLine
