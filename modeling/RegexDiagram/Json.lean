import RegexDiagram.Text.Numeral

/-!
# JSON values

A value with its fields in order, and its text over several lines.
-/

namespace RegexDiagram

/-- A JSON value. The fields of an object are kept in the order in which they are written. -/
inductive Json where
  | null
  | boolean (value : Bool)
  | number (value : Nat)
  | text (value : List Char)
  | array (items : List Json)
  | object (fields : List (String × Json))

namespace Json

/-- A character inside a JSON string. -/
def escapedChar (c : Char) : List Char :=
  if c = '"' then ['\\', '"']
  else if c = '\\' then ['\\', '\\']
  else if c = '\n' then ['\\', 'n']
  else if c = '\r' then ['\\', 'r']
  else if c = '\t' then ['\\', 't']
  else if c = '\x08' then ['\\', 'b']
  else if c = '\x0c' then ['\\', 'f']
  else if c.toNat < 0x20 then ['\\', 'u'] ++ paddedDigits 16 4 c.toNat
  else [c]

def stringText (s : List Char) : List Char := ['"'] ++ s.flatMap escapedChar ++ ['"']

/-- The start of a line at the given depth, two blanks for each level. -/
def lineStart (depth : Nat) : List Char := '\n' :: List.replicate (2 * depth) ' '

mutual

/-- The text of a value. Arrays and objects that are not empty have a line for each item. -/
def pretty (depth : Nat) : Json → List Char
  | .null => "null".toList
  | .boolean true => "true".toList
  | .boolean false => "false".toList
  | .number n => decimal n
  | .text s => stringText s
  | .array [] => ['[', ']']
  | .array (item :: items) =>
    ['['] ++ lineStart (depth + 1) ++ item.pretty (depth + 1) ++ prettyItems (depth + 1) items ++
      lineStart depth ++ [']']
  | .object [] => ['\x7b', '\x7d']
  | .object ((name, value) :: fields) =>
    ['\x7b'] ++ lineStart (depth + 1) ++ stringText name.toList ++ [':', ' '] ++
      value.pretty (depth + 1) ++ prettyFields (depth + 1) fields ++ lineStart depth ++ ['\x7d']

/-- The items of an array after the first. -/
def prettyItems (depth : Nat) : List Json → List Char
  | [] => []
  | item :: items => [','] ++ lineStart depth ++ item.pretty depth ++ prettyItems depth items

/-- The fields of an object after the first. -/
def prettyFields (depth : Nat) : List (String × Json) → List Char
  | [] => []
  | (name, value) :: fields =>
    [','] ++ lineStart depth ++ stringText name.toList ++ [':', ' '] ++ value.pretty depth ++
      prettyFields depth fields

end

end Json

end RegexDiagram
