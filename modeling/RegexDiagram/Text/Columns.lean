/-!
# Columns

How many columns of a terminal a text fills is not settled here. Terminals, and the libraries that know
them, have tables for it, and the tables grow with Unicode. Whatever measures or draws a text takes the
widths as given.

A text has a width of its own: neighbours can share columns, as a picture does with a skin tone behind it,
so that a text can be narrower than its characters are together.
-/

namespace RegexDiagram

/-- Widths, in columns of a terminal. -/
class TerminalWidths where
  /-- The columns of a character by itself, if it is one that has a width. -/
  charWidth? : Char → Option Nat
  /-- The columns of a text. -/
  columns : List Char → Nat

export TerminalWidths (charWidth? columns)

/-- The columns that a character is drawn in. One without a width is not drawn. -/
def charColumns [TerminalWidths] (c : Char) : Nat := (charWidth? c).getD 0

end RegexDiagram
