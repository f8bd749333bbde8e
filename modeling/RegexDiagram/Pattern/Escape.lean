import RegexDiagram.Pattern.Anomaly
import RegexDiagram.Text.Lines
import RegexDiagram.Text.Numeral

/-!
# Escapes

What a backslash and the characters after it stand for. Outside and inside a character class the
same letters can mean different things, so there is one reader for each place, and neither falls
through to the other. A `Meaning` is one that a reader gives; labels and ordinals are functions of it.
-/

namespace RegexDiagram.Pattern

/-- What an escape stands for when it is shown by a name. -/
inductive Meaning where
  | digit | nonDigit | space | nonSpace | word | nonWord
  | wordBoundary | nonWordBoundary
  | backspace
  | formFeed | lineFeed | carriageReturn | tab | verticalTab
  | null
  | octal (code : Nat)
  | hex (code : Nat)
  | unicode (code : Nat)
  /-- A control character, named by a letter in upper case. -/
  | control (letter : Char)
  | backReference (digit : Char)
  | namedBackReference (name : List Char)
  | property (negated : Bool) (name : List Char)
  deriving DecidableEq, Repr

namespace Meaning

def label : Meaning → List Char
  | .digit => "digit".toList
  | .nonDigit => "non-digit".toList
  | .space => "white space".toList
  | .nonSpace => "non-white space".toList
  | .word => "word".toList
  | .nonWord => "non-word".toList
  | .wordBoundary => "word boundary".toList
  | .nonWordBoundary => "non-word boundary".toList
  | .backspace => "backspace".toList
  | .formFeed => "form feed".toList
  | .lineFeed => "line feed".toList
  | .carriageReturn => "carriage return".toList
  | .tab => "tab".toList
  | .verticalTab => "vertical tab".toList
  | .null => "null".toList
  | .octal code => "0o".toList ++ Nat.toDigits 8 code
  | .hex code => "0x".toList ++ upperHex 2 code
  | .unicode code => "U+".toList ++ upperHex 4 code
  | .control letter => "ctrl-".toList ++ [letter]
  | .backReference d => "back reference #".toList ++ [d]
  | .namedBackReference name => "back reference (".toList ++ name ++ [')']
  | .property false name => "unicode property ".toList ++ name
  | .property true name => "not unicode property ".toList ++ name

/-- The number of the character an escape names by number or by control letter. -/
def ordinal : Meaning → Option Nat
  | .null => some 0
  | .octal code => some code
  | .hex code => some code
  | .unicode code => some code
  | .control letter => some (letter.toNat % 32)
  | _ => none

/-- A set of characters rather than a single one. -/
def isSet : Meaning → Bool
  | .digit | .nonDigit | .space | .nonSpace | .word | .nonWord | .property .. => true
  | _ => false

end Meaning

/-- How an escape is shown: under a name, or as the character itself. -/
inductive Escape.Shown where
  | named (meaning : Meaning)
  | plain (c : Char)
  deriving DecidableEq, Repr

/-- One escape as read: how it is shown, how many characters after the backslash belong to it, and
what is wrong with it. -/
structure Escape where
  shown : Escape.Shown
  length : Nat
  trouble : Option Anomaly.Kind
  deriving DecidableEq, Repr

namespace Escape

def named (meaning : Meaning) (length : Nat) : Escape := ⟨.named meaning, length, none⟩

/-- The character after the backslash, for itself. -/
def plain (c : Char) : Escape := ⟨.plain c, 1, none⟩

/-- A letter whose escape was begun and not completed stands for itself. -/
def incomplete (c : Char) : Escape := ⟨.plain c, 1, some (.incompleteEscape c)⟩

/-- A backslash with nothing behind it. -/
def trailing : Escape := ⟨.plain '\\', 0, some .trailingBackslash⟩

/-- Any other character stands for itself. A letter or digit should not have been escaped. -/
def identity (c : Char) : Escape :=
  if c.isAlphanum then ⟨.plain c, 1, some (.unknownEscape c)⟩ else plain c

/-- The letters that mean the same inside and outside a class and stand alone. -/
def letterMeaning? : Char → Option Meaning
  | 'd' => some .digit
  | 'D' => some .nonDigit
  | 's' => some .space
  | 'S' => some .nonSpace
  | 'w' => some .word
  | 'W' => some .nonWord
  | 'f' => some .formFeed
  | 'n' => some .lineFeed
  | 'r' => some .carriageReturn
  | 't' => some .tab
  | 'v' => some .verticalTab
  | _ => none

/-- The text is the escape after its backslash and begins with octal digits, of which at most three
count. -/
def octal (s : List Char) : Escape :=
  let digits := leading 3 isOctalDigit s
  named (.octal (numeralValue 8 digits)) digits.length

/-- After a zero: up to three octal digits, or the null character. -/
def zero (rest : List Char) : Escape :=
  let digits := leading 3 isOctalDigit rest
  if digits = [] then named .null 1
  else named (.octal (numeralValue 8 digits)) (digits.length + 1)

/-- After a `k`: a name between angle brackets. -/
def namedBackReference : List Char → Escape
  | '<' :: body =>
    match before? '>' body with
    | some name =>
      if name = [] then incomplete 'k' else named (.namedBackReference name) (name.length + 3)
    | none => incomplete 'k'
  | _ => incomplete 'k'

/-- After a `c`: a letter. -/
def control : List Char → Escape
  | letter :: _ =>
    if letter.isAlpha then named (.control letter.toUpper) 2 else incomplete 'c'
  | [] => incomplete 'c'

/-- After an `x`: two digits of base sixteen. -/
def hex (rest : List Char) : Escape :=
  let digits := leading 2 isHexDigit rest
  if digits.length = 2 then named (.hex (numeralValue 16 digits)) 3 else incomplete 'x'

/-- After a `u`: four digits of base sixteen, or one to six of them in braces. -/
def unicode : List Char → Escape
  | '\x7b' :: body =>
    let digits := leading 6 isHexDigit body
    if digits ≠ [] ∧ (body.drop digits.length).head? = some '\x7d' then
      named (.unicode (numeralValue 16 digits)) (digits.length + 3)
    else incomplete 'u'
  | rest =>
    let digits := leading 4 isHexDigit rest
    if digits.length = 4 then named (.unicode (numeralValue 16 digits)) 5 else incomplete 'u'

/-- After a `p`, or a `P` for the negation: the name of a property in braces. -/
def property (negated : Bool) : List Char → Escape
  | '\x7b' :: body =>
    match before? '\x7d' body with
    | some name =>
      if name = [] then incomplete (letter negated)
      else named (.property negated name) (name.length + 3)
    | none => incomplete (letter negated)
  | _ => incomplete (letter negated)
where
  /-- The letter that begins the escape. -/
  letter (negated : Bool) : Char := if negated then 'P' else 'p'

/-- The escapes that are read alike inside and outside a class, by the character after the
backslash and what follows it. -/
def shared (c : Char) (rest : List Char) : Escape :=
  match letterMeaning? c with
  | some meaning => named meaning 1
  | none =>
    if c = '0' then zero rest
    else if c = 'c' then control rest
    else if c = 'x' then hex rest
    else if c = 'u' then unicode rest
    else if c = 'p' then property false rest
    else if c = 'P' then property true rest
    else identity c

/-- The escape outside a class, given what follows the backslash. -/
def outside : List Char → Escape
  | [] => trailing
  | c :: rest =>
    if c = 'b' then named .wordBoundary 1
    else if c = 'B' then named .nonWordBoundary 1
    else if c = 'k' then namedBackReference rest
    else if '1' ≤ c ∧ c ≤ '9' then named (.backReference c) 1
    else shared c rest

/-- The escape inside a class, given what follows the backslash. -/
def inside : List Char → Escape
  | [] => trailing
  | c :: rest =>
    if c = 'b' then named .backspace 1
    else if c = 'B' then plain 'B'
    else if '1' ≤ c ∧ c ≤ '7' then octal (c :: rest)
    else shared c rest

/-- Whether what follows a backslash begins like a set of characters, which is no end of a range. -/
def beginsSet : List Char → Bool
  | c :: _ => c ∈ ['d', 'D', 's', 'S', 'w', 'W', 'p', 'P']
  | [] => false

end Escape

end RegexDiagram.Pattern
