import RegexDiagram.Pattern.Tree

/-!
# Labels and captions

The words a drawing shows. A literal is shown between curly quotes with its control characters
spelled out, so that every label has a width. A repetition is captioned by the number of passes
after the first.
-/

namespace RegexDiagram.Pattern

/-- A character as a label shows it. -/
def spelledChar (c : Char) : List Char :=
  if c = '\t' then ['\\', 't']
  else if c = '\n' then ['\\', 'n']
  else if c = '\r' then ['\\', 'r']
  else if isControl c then ['U', '+'] ++ upperHex 4 c.toNat
  else [c]

/-- A literal between curly quotes. -/
def literalLabel (value : List Char) : List Char := ['“'] ++ value.flatMap spelledChar ++ ['”']

def Edge.label : Edge → List Char
  | .start => "start of line".toList
  | .finish => "end of line".toList

def wildcardLabel : List Char := "any character".toList

def charsetCaption (negated : Bool) : List Char :=
  if negated then "None of:".toList else "One of:".toList

/-- The caption under the loop of a repetition: how often the loop is taken after the first pass.
Nothing is said where the drawing already says it. -/
def Repetition.label (r : Repetition) : Option (List Char) :=
  let low := r.min - 1
  match r.max with
  | some max =>
    let high := max - 1
    if low = high then
      if high = 0 then none
      else if high = 1 then some "once".toList
      else some (decimal high ++ " times".toList)
    else if r.min ≤ 1 ∧ 2 ≤ max then
      if high = 1 then some "at most once".toList
      else some ("at most ".toList ++ decimal high ++ " times".toList)
    else some (decimal low ++ ['…'] ++ decimal high ++ " times".toList)
  | none => if low = 0 then none else some (decimal low ++ "+ times".toList)

/-- The caption above the frame of a group. Capturing groups show their number. -/
def GroupKind.caption (kind : GroupKind) (number : Nat) : Option (List Char) :=
  match kind with
  | .nonCapturing => none
  | .capturing => some ("group #".toList ++ decimal number)
  | .named name => some ("group #".toList ++ decimal number ++ [' ', '('] ++ name ++ [')'])
  | .lookahead negative => some (polarity negative ++ " lookahead".toList)
  | .lookbehind negative => some (polarity negative ++ " lookbehind".toList)
where
  /-- The polarity of a look around, in words. -/
  polarity (negative : Bool) : List Char :=
    if negative then "negative".toList else "positive".toList

/-- What a flag means. A letter without a meaning is shown as itself. -/
def flagName (flag : Char) : List Char :=
  if flag = 'd' then "has indices".toList
  else if flag = 'g' then "global".toList
  else if flag = 'i' then "ignore case".toList
  else if flag = 'm' then "multiline".toList
  else if flag = 's' then "dot all".toList
  else if flag = 'u' then "unicode".toList
  else if flag = 'v' then "unicode sets".toList
  else if flag = 'y' then "sticky".toList
  else [flag]

/-- A character put into its place in a list in increasing order, unless it is there already. -/
def insertOrdered (c : Char) : List Char → List Char
  | [] => [c]
  | d :: rest =>
    if c < d then c :: d :: rest else if c = d then d :: rest else d :: insertOrdered c rest

/-- The characters of a text in increasing order, each once. -/
def distinctInOrder (s : List Char) : List Char := s.foldr insertOrdered []

/-- The caption that names the flags, each once and in the order of their letters. -/
def flagsCaption (flags : List Char) : Option (List Char) :=
  match distinctInOrder flags with
  | [] => none
  | letters => some ("Flags: ".toList ++ joinWith [',', ' '] (letters.map flagName))

end RegexDiagram.Pattern
