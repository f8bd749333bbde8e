import RegexDiagram.Canvas.Glyph
import RegexDiagram.Text.Columns
import RegexDiagram.Text.Lines

/-!
# Grids

A grid of character cells that grows where something is drawn outside it. A text takes as many
cells as it has columns. Lines merge with the lines that are there already and leave texts and marks
alone.
-/

namespace RegexDiagram.Canvas

/-- A cell: what it shows, and the sides and the stroke of the line through it. A cell without a
line has no sides. -/
structure Cell where
  symbol : Char
  sides : Nat
  stroke : Stroke
  deriving DecidableEq, Repr

def Cell.blank : Cell := ⟨' ', 0, .solid⟩

/-- What the second cell of a wide character holds. -/
def continuation : Char := '\x00'

/-- A grid. Its rows can be longer than its width says, and more than its height says: a grid made
without extent has one cell nevertheless. -/
structure Grid where
  width : Nat
  height : Nat
  rows : Array (Array Cell)

namespace Grid

/-- A blank grid of the given size, with at least one cell. -/
def blank (width height : Nat) : Grid :=
  ⟨width, height, Array.replicate (max height 1) (Array.replicate (max width 1) .blank)⟩

/-- The grid, widened with blank cells if it is narrower. -/
def widen (g : Grid) (width : Nat) : Grid :=
  if g.width < width then
    { g with
      width
      rows := g.rows.map fun row => row ++ Array.replicate (width - row.size) .blank }
  else g

/-- The grid with as many blank rows behind the last as its height falls short. -/
def heighten (g : Grid) (height : Nat) : Grid :=
  if g.height < height then
    { g with
      height
      rows := g.rows ++ Array.replicate (height - g.height) (Array.replicate g.width .blank) }
  else g

def grow (g : Grid) (width height : Nat) : Grid := (g.widen width).heighten height

def cell? (g : Grid) (x y : Nat) : Option Cell := (g.rows[y]?).bind (·[x]?)

/-- The grid with another cell in a place that it holds. -/
def put (g : Grid) (x y : Nat) (cell : Cell) : Grid :=
  { g with rows := g.rows.modify y fun row => row.modify x fun _ => cell }

/-- A character in a place, instead of what was there. -/
def setChar (g : Grid) (x y : Nat) (c : Char) : Grid :=
  (g.grow (x + 1) (y + 1)).put x y ⟨c, 0, .solid⟩

/-- The character in a place. Outside the size there are blanks. -/
def charAt (g : Grid) (x y : Nat) : Char :=
  if y < g.height ∧ x < g.width then ((g.cell? x y).map (·.symbol)).getD ' ' else ' '

def sidesAt (g : Grid) (x y : Nat) : Nat := ((g.cell? x y).map (·.sides)).getD 0

/-- A character of a text in its first cell, and its further cells. -/
def setWide [TerminalWidths] (g : Grid) (x y : Nat) (c : Char) : Grid :=
  (List.range' (x + 1) (charColumns c - 1)).foldl (fun g k => g.setChar k y continuation)
    (g.setChar x y c)

/-- A text from a place to the right. Characters without a column of their own are left out. -/
def drawText [TerminalWidths] (g : Grid) (x y : Nat) : List Char → Grid
  | [] => g
  | c :: rest =>
    if charColumns c = 0 then g.drawText x y rest
    else (g.setWide x y c).drawText (x + charColumns c) y rest

variable (set : CharacterSet)

/-- The cell after a line through the given sides is added to it. -/
def Cell.merge (cell : Cell) (sides : Nat) (stroke : Stroke) : Cell :=
  if cell.sides ≠ 0 then
    let sides := cell.sides ||| sides
    let stroke := cell.stroke.merge stroke
    ⟨glyph set sides stroke, sides, stroke⟩
  else if cell.symbol = ' ' then ⟨glyph set sides stroke, sides, stroke⟩
  else cell

/-- Sides added to the line through a place. A place that holds a text or a mark keeps it. -/
def mergeLine (g : Grid) (x y sides : Nat) (stroke : Stroke) : Grid :=
  if sides = 0 then g
  else
    let g := g.grow (x + 1) (y + 1)
    { g with
      rows := g.rows.modify y fun row => row.modify x fun cell => Cell.merge set cell sides stroke }

/-- The sides of a cell of a run from `low` to `high`: both neighbours inside the run are joined. -/
def runSides (before after low high k : Nat) : Nat :=
  (if low < k then before else 0) ||| (if k < high then after else 0)

/-- The places of a run with both ends, unless they are the same. -/
def run (a b : Nat) : List Nat :=
  if a = b then [] else List.range' (min a b) (max a b - min a b + 1)

def drawHorizontal (g : Grid) (x₀ x₁ y : Nat) (stroke : Stroke) : Grid :=
  (run x₀ x₁).foldl
    (fun g x => g.mergeLine set x y (runSides left right (min x₀ x₁) (max x₀ x₁) x) stroke) g

def drawVertical (g : Grid) (x y₀ y₁ : Nat) (stroke : Stroke) : Grid :=
  (run y₀ y₁).foldl
    (fun g y => g.mergeLine set x y (runSides up down (min y₀ y₁) (max y₀ y₁) y) stroke) g

def drawRect (g : Grid) (x y x₂ y₂ : Nat) (stroke : Stroke) : Grid :=
  let g := g.drawHorizontal set x x₂ y stroke
  let g := g.drawHorizontal set x x₂ y₂ stroke
  let g := g.drawVertical set x y y₂ stroke
  g.drawVertical set x₂ y y₂ stroke

/-! ## The grid as a text -/

def symbols (g : Grid) : List (List Char) :=
  (g.rows.map fun row => (row.map (·.symbol)).toList).toList

/-- A row as it is shown: without the second cells of wide characters and without the blanks at its
end. -/
def rowText (row : List Char) : List Char := trimEnd (row.filter (· ≠ continuation))

/-- The rows without the empty ones above the first and below the last that shows something. -/
def trimRows (rows : List (List Char)) : List (List Char) :=
  ((rows.dropWhile List.isEmpty).reverse.dropWhile List.isEmpty).reverse

/-- The number of spaces that all rows begin with, those that are empty not counted. -/
def commonIndent (rows : List (List Char)) : Nat :=
  (((rows.filter (!·.isEmpty)).map fun row => (row.takeWhile (· = ' ')).length).min?).getD 0

/-- The picture: the part of the grid that shows something. -/
def display (g : Grid) : List Char :=
  let rows := trimRows (g.symbols.map rowText)
  joinWith ['\n'] (rows.map (List.drop (commonIndent rows)))

end Grid

end RegexDiagram.Canvas
