import RegexDiagram.Proofs.Canvas.Calls
import RegexDiagram.Text.Terminal

/-!
# Storage in layers

A grid can be kept in two layers of rows, one of characters and one of lines, which are changed one after
the other. `Layers` does so and checks each access: a step fails where a row, or a place of a row, is
missing. From a blank grid on no step ever fails, since a step grows both layers to hold its place before it
accesses them (`Stored.step?_layers`, and `Stored.foldlM_step?` for all steps of a run).

A blank grid has a cell even if it is made without extent. So rows can be longer than the width says, by
that one cell only: this is what makes a row that is filled up to a new width keep all that it holds
(`Stored.layer_widen`).
-/

namespace RegexDiagram.Canvas

variable {set : CharacterSet} {β γ : Type}

/-! ## Rows -/

/-- A row cut, or filled up, to a length. -/
def resize (row : Array β) (length : Nat) (fill : β) : Array β :=
  row.extract 0 length ++ Array.replicate (length - row.size) fill

theorem resize_of_le {row : Array β} {length : Nat} (h : row.size ≤ length) (fill : β) :
    resize row length fill = row ++ Array.replicate (length - row.size) fill := by
  rw [resize, Array.extract_eq_self_of_le h]

theorem map_resize (f : β → γ) (row : Array β) (length : Nat) (fill : β) :
    (resize row length fill).map f = resize (row.map f) length (f fill) := by
  rw [resize, resize, Array.map_append, Array.map_extract, Array.map_replicate, Array.size_map]

/-- The entry in a place, if there is one. -/
def entryAt? (rows : Array (Array β)) (x y : Nat) : Option β := (rows[y]?).bind (·[x]?)

/-- The rows with another entry in a place, if there is one. -/
def setEntryAt? (rows : Array (Array β)) (x y : Nat) (entry : β) : Option (Array (Array β)) :=
  (entryAt? rows x y).map fun _ => rows.modify y fun row => row.modify x fun _ => entry

/-! ## Layers -/

/-- A grid in two layers of rows. A line has sides and a stroke. -/
structure Layers where
  width : Nat
  height : Nat
  symbols : Array (Array Char)
  lines : Array (Array (Nat × Stroke))

namespace Layers

def blank (width height : Nat) : Layers :=
  ⟨width, height, Array.replicate (max height 1) (Array.replicate (max width 1) ' '),
    Array.replicate (max height 1) (Array.replicate (max width 1) (0, .solid))⟩

def widen (s : Layers) (width : Nat) : Layers :=
  if s.width < width then
    { s with
      width
      symbols := s.symbols.map (resize · width ' ')
      lines := s.lines.map (resize · width (0, .solid)) }
  else s

def heighten (s : Layers) (height : Nat) : Layers :=
  if s.height < height then
    { s with
      height
      symbols := s.symbols ++ Array.replicate (height - s.height) (Array.replicate s.width ' ')
      lines := s.lines ++ Array.replicate (height - s.height) (Array.replicate s.width (0, .solid)) }
  else s

def grow (s : Layers) (width height : Nat) : Layers := (s.widen width).heighten height

/-- Another character and another line in a place. -/
def put? (s : Layers) (x y : Nat) (c : Char) (line : Nat × Stroke) : Option Layers := do
  let symbols ← setEntryAt? s.symbols x y c
  let lines ← setEntryAt? s.lines x y line
  return { s with symbols, lines }

/-- A line added in a place that the layers hold, unless a text or a mark stands there. -/
def merge? (set : CharacterSet) (s : Layers) (t : Touch) : Option Layers := do
  let (sides, stroke) ← entryAt? s.lines t.x t.y
  if sides ≠ 0 then
    let merged := (sides ||| t.sides, stroke.merge t.stroke)
    s.put? t.x t.y (glyph set merged.1 merged.2) merged
  else
    let symbol ← entryAt? s.symbols t.x t.y
    if symbol = ' ' then s.put? t.x t.y (glyph set t.sides t.stroke) (t.sides, t.stroke) else return s

def step? (set : CharacterSet) (s : Layers) : Step → Option Layers
  | .grow width height => some (s.grow width height)
  | .put x y c => (s.grow (x + 1) (y + 1)).put? x y c (0, .solid)
  | .merge t => if t.sides = 0 then some s else (s.grow (t.x + 1) (t.y + 1)).merge? set t

end Layers

/-- The line through a cell. -/
def Cell.line (cell : Cell) : Nat × Stroke := (cell.sides, cell.stroke)

namespace Grid

variable {g : Grid}

/-- What a grid has in each cell of one kind of entries. -/
def layer (f : Cell → β) (g : Grid) : Array (Array β) := g.rows.map (·.map f)

/-- The characters and the lines of a grid. -/
def layers (g : Grid) : Layers := ⟨g.width, g.height, g.layer Cell.symbol, g.layer Cell.line⟩

theorem layers_blank (width height : Nat) : (blank width height).layers = .blank width height := by
  simp only [layers, layer, blank, Layers.blank, Array.map_replicate]
  rfl

theorem entryAt?_layer (f : Cell → β) (g : Grid) (x y : Nat) :
    entryAt? (g.layer f) x y = (g.cell? x y).map f := by
  rw [entryAt?, layer, Array.getElem?_map, cell?]
  cases g.rows[y]? with
  | none => rfl
  | some row => exact Array.getElem?_map

/-- Another entry in a place is an entry of another cell there. -/
theorem setEntryAt?_layer (f : Cell → β) {x y : Nat} {old : Cell} (hcell : g.cell? x y = some old)
    {change : Cell → Cell} {entry : β} (hentry : f (change old) = entry) :
    setEntryAt? (g.layer f) x y entry = some ((g.alter x y change).layer f) := by
  rw [setEntryAt?, entryAt?_layer, hcell, Option.map_some, Option.map_some, Option.some.injEq]
  refine Array.ext_getElem? fun y' => Eq.symm ?_
  simp only [layer, alter, Array.getElem?_map, Array.getElem?_modify]
  split
  next hy =>
    subst hy
    rw [cell?] at hcell
    obtain ⟨row, hrow, hplace⟩ := Option.bind_eq_some_iff.1 hcell
    rw [hrow]
    simp only [Option.map_some, Option.some.injEq]
    refine Array.ext_getElem? fun x' => ?_
    simp only [Array.getElem?_map, Array.getElem?_modify]
    split
    next hx =>
      subst hx
      rw [hplace]
      exact congrArg some hentry
    next => rfl
  next => rfl

/-- The rows hold the size of the grid, and none of them is longer than the width, one cell apart. -/
structure Stored (g : Grid) : Prop extends g.Filled where
  fits : ∀ row ∈ g.rows, row.size ≤ max g.width 1

theorem stored_blank (width height : Nat) : (blank width height).Stored where
  toFilled := filled_blank width height
  fits := by
    intro row hrow
    obtain ⟨-, rfl⟩ := Array.mem_replicate.1 hrow
    exact Nat.le_of_eq Array.size_replicate

namespace Stored

theorem widen (h : g.Stored) (width : Nat) : (g.widen width).Stored where
  toFilled := h.toFilled.widen width
  fits := by
    have hfits := h.fits
    unfold Grid.widen
    split
    · intro row hrow
      obtain ⟨old, hold, rfl⟩ := Array.mem_map.1 hrow
      have hle := hfits old hold
      simp only [Array.size_append, Array.size_replicate]
      omega
    · exact hfits

theorem heighten (h : g.Stored) (height : Nat) : (g.heighten height).Stored where
  toFilled := h.toFilled.heighten height
  fits := by
    have hfits := h.fits
    unfold Grid.heighten
    split
    · intro row hrow
      obtain hrow | hrow := Array.mem_append.1 hrow
      · exact hfits row hrow
      · obtain ⟨-, rfl⟩ := Array.mem_replicate.1 hrow
        rw [Array.size_replicate]
        exact Nat.le_max_left _ _
    · exact hfits

theorem grow (h : g.Stored) (width height : Nat) : (g.grow width height).Stored :=
  (h.widen width).heighten height

theorem alter (h : g.Stored) (x y : Nat) (f : Cell → Cell) : (g.alter x y f).Stored where
  toFilled := h.toFilled.alter x y f
  fits := by
    intro row hrow
    obtain ⟨before, hbefore, hsize⟩ := size_of_mem_alter hrow
    rw [hsize]
    exact h.fits before hbefore

theorem step (h : g.Stored) (step : Step) : (step.apply set g).Stored :=
  Step.apply_keeps (fun _ => grow) (fun _ => alter) h step

theorem steps (h : g.Stored) (steps : List Step) : (steps.foldl (Step.apply set) g).Stored :=
  Step.foldl_keeps (fun _ => grow) (fun _ => alter) h steps

/-! ## Growth -/

/-- No row is cut where a grid is widened. -/
theorem layer_widen (h : g.Stored) (f : Cell → β) {width : Nat} (hwidth : g.width < width) :
    (g.widen width).layer f = (g.layer f).map (resize · width (f .blank)) := by
  rw [layer, layer, Grid.widen, if_pos hwidth, Array.map_map, Array.map_map]
  refine Array.map_congr_left fun row hrow => ?_
  have hfits := h.fits row hrow
  have hrow : row.size ≤ width := by omega
  rw [Function.comp_apply, Function.comp_apply, ← map_resize, resize_of_le hrow]

theorem layers_widen (h : g.Stored) (width : Nat) : g.layers.widen width = (g.widen width).layers := by
  have hsame : g.layers.width = g.width := rfl
  rw [Layers.widen, hsame]
  by_cases hwidth : g.width < width
  · rw [if_pos hwidth, layers, layers, h.layer_widen _ hwidth, h.layer_widen _ hwidth, Grid.widen,
      if_pos hwidth]
    rfl
  · rw [if_neg hwidth, Grid.widen, if_neg hwidth]

end Stored

theorem layer_heighten (f : Cell → β) {height : Nat} (hheight : g.height < height) :
    (g.heighten height).layer f =
      g.layer f ++ Array.replicate (height - g.height) (Array.replicate g.width (f .blank)) := by
  rw [layer, layer, heighten, if_pos hheight, Array.map_append, Array.map_replicate, Array.map_replicate]

theorem layers_heighten (g : Grid) (height : Nat) :
    g.layers.heighten height = (g.heighten height).layers := by
  have hsame : g.layers.height = g.height := rfl
  rw [Layers.heighten, hsame]
  by_cases hheight : g.height < height
  · rw [if_pos hheight, layers, layers, layer_heighten _ hheight, layer_heighten _ hheight, heighten,
      if_pos hheight]
    rfl
  · rw [if_neg hheight, heighten, if_neg hheight]

/-! ## Steps -/

theorem Stored.layers_grow (h : g.Stored) (width height : Nat) :
    g.layers.grow width height = (g.grow width height).layers := by
  rw [Layers.grow, h.layers_widen, layers_heighten]
  rfl

/-- Both layers are changed in a place that the grid holds. -/
theorem put?_layers {x y : Nat} {old : Cell} (hcell : g.cell? x y = some old) {change : Cell → Cell}
    {c : Char} {line : Nat × Stroke} (hsymbol : (change old).symbol = c) (hline : (change old).line = line) :
    g.layers.put? x y c line = some (g.alter x y change).layers := by
  rw [Layers.put?, layers, setEntryAt?_layer _ hcell hsymbol, setEntryAt?_layer _ hcell hline]
  rfl

theorem alter_eq_self {x y : Nat} {old : Cell} (hcell : g.cell? x y = some old) {change : Cell → Cell}
    (hchange : change old = old) : g.alter x y change = g := by
  obtain ⟨row, hrow, hplace⟩ := Option.bind_eq_some_iff.1 hcell
  have hrows : (g.rows.modify y fun row => row.modify x change) = g.rows := by
    refine Array.ext_getElem? fun y' => ?_
    rw [Array.getElem?_modify]
    split
    next hy =>
      subst hy
      rw [hrow, Option.map_some, Option.some.injEq]
      refine Array.ext_getElem? fun x' => ?_
      rw [Array.getElem?_modify]
      split
      next hx =>
        subst hx
        rw [hplace, Option.map_some, hchange]
      next => rfl
    next => rfl
  rw [alter, hrows]

/-- A line is added in both layers, or in none. -/
theorem merge?_layers {t : Touch} {old : Cell} (hcell : g.cell? t.x t.y = some old) :
    g.layers.merge? set t =
      some (g.alter t.x t.y fun cell => Cell.merge set cell t.sides t.stroke).layers := by
  have hlines : entryAt? g.layers.lines t.x t.y = some old.line := by
    rw [layers, entryAt?_layer, hcell, Option.map_some]
  have hsymbols : entryAt? g.layers.symbols t.x t.y = some old.symbol := by
    rw [layers, entryAt?_layer, hcell, Option.map_some]
  rw [Layers.merge?, hlines, hsymbols]
  simp only [Option.bind_eq_bind, Option.bind_some]
  by_cases hline : old.sides = 0
  · rw [Cell.line, if_neg (not_not_intro hline)]
    by_cases hspace : old.symbol = ' '
    · have hmerge : Cell.merge set old t.sides t.stroke =
          ⟨glyph set t.sides t.stroke, t.sides, t.stroke⟩ := by
        rw [Cell.merge, if_neg (not_not_intro hline), if_pos hspace]
      rw [if_pos hspace]
      refine put?_layers hcell ?_ ?_
      · rw [hmerge]
      · rw [hmerge, Cell.line]
    · have hmerge : Cell.merge set old t.sides t.stroke = old := by
        rw [Cell.merge, if_neg (not_not_intro hline), if_neg hspace]
      rw [if_neg hspace, alter_eq_self hcell hmerge]
      rfl
  · have hmerge : Cell.merge set old t.sides t.stroke =
        ⟨glyph set (old.sides ||| t.sides) (old.stroke.merge t.stroke), old.sides ||| t.sides,
          old.stroke.merge t.stroke⟩ := by
      rw [Cell.merge, if_pos hline]
    rw [Cell.line, if_pos hline]
    refine put?_layers hcell ?_ ?_
    · rw [hmerge]
    · rw [hmerge, Cell.line]

namespace Stored

/-- A step that grows the grid to hold a place finds the place in it. -/
theorem cell?_place (h : g.Stored) (x y : Nat) :
    (g.grow (x + 1) (y + 1)).cell? x y = some ((g.grow (x + 1) (y + 1)).cellAt x y) :=
  (h.grow (x + 1) (y + 1)).cell?_eq (g.lt_grow x y).1 (g.lt_grow x y).2

/-- A step does not fail, and does to the layers what it does to the grid. -/
theorem step?_layers (h : g.Stored) (step : Step) :
    g.layers.step? set step = some (step.apply set g).layers := by
  cases step with
  | grow width height => rw [Layers.step?, h.layers_grow, Step.apply]
  | put x y c =>
    rw [Layers.step?, h.layers_grow]
    exact put?_layers (h.cell?_place x y) rfl rfl
  | merge t =>
    rw [Layers.step?, Step.apply, touch, mergeLine]
    split
    · rfl
    · rw [h.layers_grow]
      exact merge?_layers (h.cell?_place t.x t.y)

/-- No step of a run fails. -/
theorem foldlM_step? (h : g.Stored) (steps : List Step) :
    steps.foldlM (Layers.step? set) g.layers = some (steps.foldl (Step.apply set) g).layers := by
  induction steps generalizing g with
  | nil => rfl
  | cons step rest ih =>
    rw [List.foldlM_cons, h.step?_layers, List.foldl_cons, ← ih (h.step step)]
    rfl

end Stored

/-! ## Sizes -/

/-- The size never shrinks. -/
theorem le_steps (set : CharacterSet) (g : Grid) (steps : List Step) :
    g.width ≤ (steps.foldl (Step.apply set) g).width ∧
      g.height ≤ (steps.foldl (Step.apply set) g).height := by
  refine Step.foldl_keeps (P := fun grown => g.width ≤ grown.width ∧ g.height ≤ grown.height)
    (fun grown h width height => ?_) (fun _ h _ _ _ => h) ⟨Nat.le_refl _, Nat.le_refl _⟩ steps
  rw [width_grow, height_grow]
  exact ⟨h.1.trans (Nat.le_max_left _ _), h.2.trans (Nat.le_max_left _ _)⟩

/-- A grid that has a column, and is no wider and no higher than it says, stays so. -/
theorem Shaped.steps (h : g.Shaped 0) (hwidth : 0 < g.width) (steps : List Step) :
    (steps.foldl (Step.apply set) g).Shaped 0 ∧ 0 < (steps.foldl (Step.apply set) g).width := by
  refine Step.foldl_keeps (P := fun grown => grown.Shaped 0 ∧ 0 < grown.width)
    (fun grown hgrown width height => ?_) (fun _ hgrown x y f => ?_) ⟨h, hwidth⟩ steps
  · obtain ⟨hshaped, hpos⟩ := hgrown
    constructor
    · by_cases hzero : width = 0
      · have hsame : grown.widen width = grown := if_neg (by omega)
        rw [Grid.grow, hsame]
        exact hshaped.heighten hpos height
      · exact hshaped.grow (Nat.pos_of_ne_zero hzero) height
    · rw [width_grow]
      omega
  · exact ⟨hgrown.1.alter x y f, hgrown.2⟩

/-! ## Places -/

/-- A cell that the grid holds stays where it is while the grid grows. -/
theorem cell?_grow {x y : Nat} {cell : Cell} (hcell : g.cell? x y = some cell) (width height : Nat) :
    (g.grow width height).cell? x y = some cell := by
  have hwiden : (g.widen width).cell? x y = some cell := by
    unfold widen
    split
    · obtain ⟨row, hrow, hplace⟩ := Option.bind_eq_some_iff.1 hcell
      obtain ⟨hx, -⟩ := Array.getElem?_eq_some_iff.1 hplace
      rw [cell?, Array.getElem?_map, hrow, Option.map_some, Option.bind_some,
        Array.getElem?_append_left hx, hplace]
    · exact hcell
  unfold grow heighten
  split
  · obtain ⟨row, hrow, hplace⟩ := Option.bind_eq_some_iff.1 hwiden
    obtain ⟨hy, -⟩ := Array.getElem?_eq_some_iff.1 hrow
    rw [cell?, Array.getElem?_append_left hy, hrow, Option.bind_some, hplace]
  · exact hwiden

theorem cell?_alter_of_some {x y : Nat} {cell : Cell} (hcell : g.cell? x y = some cell) (x' y' : Nat)
    (f : Cell → Cell) :
    (g.alter x' y' f).cell? x y = some (if x = x' ∧ y = y' then f cell else cell) := by
  rw [cell?_alter]
  split
  next hplace =>
    obtain ⟨rfl, rfl⟩ := hplace
    rw [hcell, Option.map_some]
  next => exact hcell

/-- A cell that the grid holds is kept, apart from what the step makes of it. -/
theorem cell?_step {x y : Nat} {cell : Cell} (hcell : g.cell? x y = some cell) (step : Step) :
    (step.apply set g).cell? x y = some (step.effect set x y cell) := by
  cases step with
  | grow width height => exact cell?_grow hcell width height
  | put x' y' c => exact cell?_alter_of_some (cell?_grow hcell (x' + 1) (y' + 1)) x' y' _
  | merge t =>
    rw [Step.apply, touch, mergeLine, Step.effect]
    by_cases hsides : t.sides = 0
    · rw [if_pos hsides, if_neg fun hplace => hplace.1 hsides]
      exact hcell
    · have halter := cell?_alter_of_some (cell?_grow hcell (t.x + 1) (t.y + 1)) t.x t.y
        fun cell => Cell.merge set cell t.sides t.stroke
      simp only [ne_eq, hsides, not_false_eq_true, true_and]
      exact halter

theorem cell?_steps {x y : Nat} {cell : Cell} (hcell : g.cell? x y = some cell) (steps : List Step) :
    (steps.foldl (Step.apply set) g).cell? x y = some (steps.foldl (Step.effect set x y) cell) := by
  induction steps generalizing g cell with
  | nil => exact hcell
  | cons step rest ih => exact ih (cell?_step hcell step)

end Grid

/-! ## Lines in cells -/

/-- The cell shows the line through it, if there is one. -/
def Cell.ShowsLine (set : CharacterSet) (cell : Cell) : Prop :=
  cell.sides ≠ 0 → cell.symbol = glyph set cell.sides cell.stroke

theorem Cell.ShowsLine.merge {cell : Cell} (h : cell.ShowsLine set) (sides : Nat) (stroke : Stroke) :
    (Grid.Cell.merge set cell sides stroke).ShowsLine set := by
  unfold Grid.Cell.merge
  split_ifs
  · exact fun _ => rfl
  · exact fun _ => rfl
  · exact h

theorem Cell.ShowsLine.step {cell : Cell} (h : cell.ShowsLine set) (x y : Nat) (step : Step) :
    (step.effect set x y cell).ShowsLine set := by
  cases step with
  | grow width height => exact h
  | put x' y' c =>
    rw [Step.effect]
    split
    · exact fun hsides => absurd rfl hsides
    · exact h
  | merge t =>
    rw [Step.effect]
    split
    · exact h.merge t.sides t.stroke
    · exact h

theorem Cell.ShowsLine.steps {cell : Cell} (h : cell.ShowsLine set) (x y : Nat) (steps : List Step) :
    (steps.foldl (Step.effect set x y) cell).ShowsLine set :=
  List.foldlRecOn steps _ h fun _ hcell step _ => hcell.step x y step

/-! ## Calls on layers -/

namespace Layers

/-- The layers after calls, unless an access fails. -/
def perform? [TerminalWidths] (set : CharacterSet) (s : Layers) (calls : List Call) : Option Layers :=
  (calls.flatMap Call.steps).foldlM (step? set) s

/-- Both layers have as many rows, which are as long in one as in the other, and hold the size. -/
structure Even (s : Layers) : Prop where
  shape : s.symbols.map Array.size = s.lines.map Array.size
  height : s.height ≤ s.symbols.size
  width : ∀ row ∈ s.symbols, s.width ≤ row.size

/-- There is nothing outside the size. -/
structure Exact (s : Layers) : Prop where
  height : s.symbols.size = s.height
  width : ∀ row ∈ s.symbols, row.size = s.width

/-- Where there is a line, its glyph is shown. -/
def ShowLines (set : CharacterSet) (s : Layers) : Prop :=
  ∀ x y sides stroke, entryAt? s.lines x y = some (sides, stroke) → sides ≠ 0 →
    entryAt? s.symbols x y = some (glyph set sides stroke)

/-- What a place holds is held there still. -/
def Keeps (s s' : Layers) (x y : Nat) : Prop :=
  (∀ c, entryAt? s.symbols x y = some c → entryAt? s'.symbols x y = some c) ∧
    ∀ line, entryAt? s.lines x y = some line → entryAt? s'.lines x y = some line

end Layers

namespace Grid

variable {g : Grid}

theorem Stored.perform?_layers [TerminalWidths] (h : g.Stored) (calls : List Call) :
    g.layers.perform? set calls = some (g.perform set calls).layers := by
  rw [Layers.perform?, h.foldlM_step?, perform_eq]

theorem Filled.even_layers (h : g.Filled) : g.layers.Even where
  shape := by
    simp only [layers, layer, Array.map_map]
    refine Array.map_congr_left fun row _ => ?_
    simp only [Function.comp_apply, Array.size_map]
  height := by
    simp only [layers, layer, Array.size_map]
    exact h.height
  width := by
    intro row hrow
    obtain ⟨cells, hcells, rfl⟩ := Array.mem_map.1 hrow
    rw [Array.size_map]
    exact h.width cells hcells

theorem Shaped.exact_layers (h : g.Shaped 0) (hwidth : 0 < g.width) : g.layers.Exact where
  height := by
    simp only [layers, layer, Array.size_map]
    exact h.rows
  width := by
    intro row hrow
    obtain ⟨cells, hcells, rfl⟩ := Array.mem_map.1 hrow
    rw [Array.size_map, h.columns cells hcells]
    exact Nat.max_eq_left hwidth

theorem showLines_layers (h : ∀ x y, (g.cellAt x y).ShowsLine set) : g.layers.ShowLines set := by
  intro x y sides stroke hline hsides
  rw [layers, entryAt?_layer] at hline
  obtain ⟨cell, hcell, hline⟩ := Option.map_eq_some_iff.1 hline
  obtain ⟨rfl, rfl⟩ := Prod.mk.inj hline
  have hshows := h x y
  rw [cellAt, hcell, Option.getD_some] at hshows
  rw [layers, entryAt?_layer, hcell, Option.map_some, hshows hsides]

/-- A call keeps what is held in the places that it does not draw in. -/
theorem keeps_call [TerminalWidths] {call : Call} {x y : Nat} (hplace : ¬ call.Addresses x y) :
    g.layers.Keeps (call.apply set g).layers x y := by
  have hkeep (cell : Cell) (hcell : g.cell? x y = some cell) :
      (call.apply set g).cell? x y = some cell := by
    rw [Call.apply_eq, cell?_steps hcell, Step.foldl_effect_of_not_addresses]
    exact fun step hstep haddresses => hplace (Call.addresses_iff.2 ⟨step, hstep, haddresses⟩)
  have hlayer {β : Type} (f : Cell → β) (entry : β) (hentry : entryAt? (g.layer f) x y = some entry) :
      entryAt? ((call.apply set g).layer f) x y = some entry := by
    rw [entryAt?_layer] at hentry ⊢
    obtain ⟨cell, hcell, rfl⟩ := Option.map_eq_some_iff.1 hentry
    rw [hkeep cell hcell, Option.map_some]
  exact ⟨hlayer _, hlayer _⟩

/-- **Layers are kept even by all calls.** No access fails, both layers keep the same shape, which holds
the size and is no larger if the layers were not made without extent, lines are shown by their glyphs, and
the next call neither shrinks the layers nor changes what they hold in other places than its own. -/
theorem perform?_blank [TerminalWidths] (set : CharacterSet) (width height : Nat) (calls : List Call) :
    ∃ s, (Layers.blank width height).perform? set calls = some s ∧
      s = ((blank width height).perform set calls).layers ∧ s.Even ∧
      (0 < width → 0 < height → s.Exact) ∧ s.ShowLines set ∧
      ∀ call, ∃ s', s.perform? set [call] = some s' ∧ s.width ≤ s'.width ∧ s.height ≤ s'.height ∧
        ∀ x y, ¬ call.Addresses x y → s.Keeps s' x y := by
  have hblank := stored_blank width height
  have hstored : ((blank width height).perform set calls).Stored := by
    rw [perform_eq]
    exact hblank.steps _
  refine ⟨((blank width height).perform set calls).layers, ?_, rfl, hstored.toFilled.even_layers, ?_, ?_, ?_⟩
  · rw [← layers_blank]
    exact hblank.perform?_layers calls
  · intro hwidth hheight
    have hshaped : (blank width height).Shaped 0 := by
      have hspare : 1 - height = 0 := by omega
      exact hspare ▸ shaped_blank width height
    rw [perform_eq]
    obtain ⟨hsteps, hpos⟩ := hshaped.steps hwidth (calls.flatMap Call.steps)
    exact hsteps.exact_layers hpos
  · refine showLines_layers fun x y => ?_
    rw [hblank.toFilled.cellAt_perform, cellAt_blank]
    exact Cell.ShowsLine.steps (fun hsides => absurd rfl hsides) x y _
  · intro call
    have hsize := ((blank width height).perform set calls).le_steps set call.steps
    rw [← Call.apply_eq] at hsize
    exact ⟨(call.apply set _).layers, hstored.perform?_layers [call], hsize.1, hsize.2,
      fun x y hplace => keeps_call hplace⟩

/-- The cell of a grid without extent is no longer its only one after a text, and still in its place. -/
theorem perform?_blank_text :
    ∃ s s', (Layers.blank 0 0).perform? .ascii [.ensure 0 2] = some s ∧
      s.perform? .ascii [.drawText 1 1 ['a']] = some s' ∧ s.Keeps s' 0 0 := by
  obtain ⟨s, hperform, -, -, -, -, hnext⟩ := perform?_blank .ascii 0 0 [.ensure 0 2]
  obtain ⟨s', hcall, -, -, hkeeps⟩ := hnext (.drawText 1 1 ['a'])
  refine ⟨s, s', hperform, hcall, hkeeps 0 0 fun hplace => ?_⟩
  exact absurd hplace.1 (by decide)

end Grid

end RegexDiagram.Canvas
