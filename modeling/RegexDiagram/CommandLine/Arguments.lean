/-!
# Arguments

How the words of a command line are read. A level of the command line has options and possibly
subcommands, and no other words. An option is written by its long name, with its value behind an
equals sign or as the next word, or by its letter; letters can be run together, and what follows a
letter that takes a value is that value. The next word is a value unless it begins with a hyphen; a
hyphen by itself is one too.

A value is looked at when its option is settled: at the next option, or at the end. A word that
belongs to nothing is reported before the option in front of it is settled.
-/

namespace RegexDiagram.CommandLine

/-- Why a command line is not carried out. -/
inductive UsageError where
  | displayHelp
  | displayVersion
  | displayHelpOnMissingArgumentOrSubcommand
  | missingSubcommand
  | invalidSubcommand
  | invalidValue
  | unknownArgument
  | argumentConflict
  | tooManyValues
  deriving DecidableEq, Repr

def UsageError.name : UsageError → String
  | .displayHelp => "DisplayHelp"
  | .displayVersion => "DisplayVersion"
  | .displayHelpOnMissingArgumentOrSubcommand => "DisplayHelpOnMissingArgumentOrSubcommand"
  | .missingSubcommand => "MissingSubcommand"
  | .invalidSubcommand => "InvalidSubcommand"
  | .invalidValue => "InvalidValue"
  | .unknownArgument => "UnknownArgument"
  | .argumentConflict => "ArgumentConflict"
  | .tooManyValues => "TooManyValues"

/-- What an option takes. -/
inductive Takes where
  /-- Nothing. -/
  | nothing
  /-- Nothing; the help is shown instead of anything else. -/
  | help
  /-- Nothing; the version is shown instead of anything else. -/
  | version
  /-- Any text. -/
  | text
  /-- The name of a file, which is not empty. -/
  | path
  /-- One of the given words. -/
  | choice (words : List String)
  deriving DecidableEq, Repr

namespace Takes

def hasValue : Takes → Bool
  | .text | .path | .choice _ => true
  | .nothing | .help | .version => false

def admits : Takes → String → Bool
  | .choice words, value => words.contains value
  | .path, value => value ≠ ""
  | _, _ => true

end Takes

structure Flag where
  name : String
  letter : Option Char
  takes : Takes
  deriving DecidableEq, Repr

structure Level where
  flags : List Flag
  subcommands : List String

namespace Level

def named? (l : Level) (name : String) : Option Flag := l.flags.find? (·.name = name)

def lettered? (l : Level) (letter : Char) : Option Flag := l.flags.find? (·.letter = some letter)

end Level

/-- What has been read of a level: the options that are settled, and the one that is not, with its
value if that has been read. -/
structure Given where
  settled : List (String × String)
  pending : Option (Flag × Option String)
  deriving Repr

namespace Given

def empty : Given := ⟨[], none⟩

def has (g : Given) (name : String) : Bool := (g.settled.lookup name).isSome

def value? (g : Given) (name : String) : Option String := g.settled.lookup name

/-- An option with its value, which must not have been given before. -/
def record (g : Given) (flag : Flag) (value : String) : Except UsageError Given :=
  if g.has flag.name then .error .argumentConflict
  else if flag.takes.admits value then
    .ok { g with settled := g.settled ++ [(flag.name, value)] }
  else .error .invalidValue

/-- The pending option is settled. It needs its value now. -/
def settle (g : Given) : Except UsageError Given :=
  match g.pending with
  | none => .ok g
  | some (_, none) => .error .invalidValue
  | some (flag, some value) => ({ g with pending := none } : Given).record flag value

/-- An option that has no value. -/
def useFlag (g : Given) (flag : Flag) : Except UsageError Given := do
  let g ← g.settle
  match flag.takes with
  | .help => .error .displayHelp
  | .version => .error .displayVersion
  | _ => g.record flag ""

/-- An option whose value is attached to it. -/
def attach (g : Given) (flag : Flag) (value : String) : Except UsageError Given := do
  (← g.settle).record flag value

/-- An option whose value is still to come. -/
def await (g : Given) (flag : Flag) : Except UsageError Given := do
  return { ← g.settle with pending := some (flag, none) }

end Given

/-- A long option: its name and the value behind the equals sign. -/
def readLong (l : Level) (g : Given) (word : List Char) : Except UsageError Given :=
  let name := String.ofList (word.takeWhile (· ≠ '='))
  match l.named? name, word.dropWhile (· ≠ '=') with
  | none, _ => .error .unknownArgument
  | some flag, [] => if flag.takes.hasValue then g.await flag else g.useFlag flag
  | some flag, _ :: value =>
    if flag.takes.hasValue then g.attach flag (String.ofList value) else .error .tooManyValues

/-- Letters run together. A value behind a letter may begin with an equals sign of its own. -/
def readLetters (l : Level) (g : Given) : List Char → Except UsageError Given
  | [] => .ok g
  | letter :: rest =>
    match l.lettered? letter with
    | none => .error .unknownArgument
    | some flag =>
      if flag.takes.hasValue then
        match rest with
        | [] => g.await flag
        | '=' :: value => g.attach flag (String.ofList value)
        | value => g.attach flag (String.ofList value)
      else do readLetters l (← g.useFlag flag) rest

/-- A word that is neither an option nor a value. -/
def strayWord (l : Level) (onlyWords : Bool) (word : String) : UsageError :=
  if l.subcommands.isEmpty || (onlyWords && l.subcommands.contains word) then .unknownArgument
  else .invalidSubcommand

/-- The words of a level up to a subcommand or the end. The answer has the subcommand and the words
behind it. -/
def readWords (l : Level) (g : Given) :
    List String → Except UsageError (Given × Option (String × List String))
  | [] => .ok (g, none)
  | word :: rest =>
    match word.toList, g.pending with
    | ['-', '-'], _ =>
      match rest with
      | [] => .ok (g, none)
      | stray :: _ => .error (strayWord l true stray)
    | '-' :: '-' :: long, _ => do readWords l (← readLong l g long) rest
    | '-' :: letter :: more, _ => do readWords l (← readLetters l g (letter :: more)) rest
    | _, some (flag, none) => readWords l { g with pending := some (flag, some word) } rest
    | _, _ =>
      if l.subcommands.contains word then .ok (g, some (word, rest))
      else .error (strayWord l false word)

end RegexDiagram.CommandLine
