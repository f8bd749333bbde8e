import RegexDiagram.Canvas.Paint
import RegexDiagram.Proofs.Text.Plain
import Mathlib.Logic.Relation

/-!
# Grids as functions of places

What a grid shows in each place, and how drawing changes it: a character goes to its own place, and a
line through a place leaves something to be seen there (`Cell.merge_ne`). Everything that is drawn is
made of the two steps `setChar` and `mergeLine`, so what both keep is kept by whole drawings.
-/

namespace RegexDiagram.Canvas

/-! ## Characters of a grid -/

/-- A character that a row can show: it is no second cell of another, and if it is blank, a space. -/
def Showable (c : Char) : Prop := c ≠ continuation ∧ (isBlank c = true → c = ' ')

instance (c : Char) : Decidable (Showable c) := inferInstanceAs (Decidable (_ ∧ _))

theorem showable_of_plain {c : Char} (h : Plain c) : Showable c := by
  refine ⟨?_, h.eq_space⟩
  rintro rfl
  exact absurd h (by decide)

/-- A character that is shown and can be seen. -/
def Seen (c : Char) : Prop := Showable c ∧ c ≠ ' '

instance (c : Char) : Decidable (Seen c) := inferInstanceAs (Decidable (_ ∧ _))

theorem Seen.ite {p : Prop} [Decidable p] {c d : Char} (hc : Seen c) (hd : Seen d) :
    Seen (if p then c else d) := by
  split
  · exact hc
  · exact hd

/-- A line can be seen. -/
theorem glyph_seen (set : CharacterSet) {sides : Nat} (h : sides ≠ 0) (stroke : Stroke) :
    Seen (glyph set sides stroke) := by
  cases set with
  | ascii =>
    rw [glyph, asciiGlyph, if_neg h]
    exact .ite (by decide) (.ite (.ite (by decide) (by decide)) (by decide))
  | unicode =>
    rw [glyph, boxGlyph, if_neg h]
    -- straight runs, then the four corners, then junctions
    refine .ite (.ite (by decide) (by decide)) (.ite (.ite (by decide) (by decide)) ?_)
    refine .ite (.ite (by decide) (by decide)) (.ite (.ite (by decide) (by decide)) ?_)
    refine .ite (.ite (by decide) (by decide)) (.ite (.ite (by decide) (by decide)) ?_)
    exact .ite (by decide) (.ite (by decide) (.ite (by decide) (.ite (by decide) (by decide))))

theorem arrow_showable (set : CharacterSet) (direction : Direction) : Showable (arrow set direction) := by
  cases set <;> cases direction <;> decide

theorem terminal_showable (set : CharacterSet) : Showable (terminal set) := by
  cases set <;> decide

/-! ## Places -/

namespace Grid

variable {set : CharacterSet} {g g' : Grid} {x y : Nat}

/-- Through whatever a line goes, something can be seen there. -/
theorem merge_seen {cell : Cell} {sides : Nat} (h : sides ≠ 0) (stroke : Stroke)
    (hcell : Showable cell.symbol) : Seen (Cell.merge set cell sides stroke).symbol := by
  unfold Cell.merge
  split_ifs with hline hspace
  · exact glyph_seen set (fun hor => h (Nat.or_eq_zero_iff.1 hor).2) _
  · exact glyph_seen set h _
  · exact ⟨hcell, hspace⟩

/-- What a place shows. Outside the grid everything is blank. -/
def cellAt (g : Grid) (x y : Nat) : Cell := (g.cell? x y).getD .blank

/-- The rows are as many and as long as the size of the grid says, and all characters can be shown. -/
structure Sound (g : Grid) : Prop where
  height : g.height ≤ g.rows.size
  width : ∀ row ∈ g.rows, g.width ≤ row.size
  shown : ∀ x y, Showable (g.cellAt x y).symbol

/-- The grid with one cell changed. -/
def alter (g : Grid) (x y : Nat) (f : Cell → Cell) : Grid :=
  { g with rows := g.rows.modify y fun row => row.modify x f }

/-- A change in a place leaves every row as long as it was. -/
theorem size_of_mem_alter {g : Grid} {x y : Nat} {f : Cell → Cell} {row : Array Cell}
    (h : row ∈ (g.alter x y f).rows) : ∃ before ∈ g.rows, row.size = before.size := by
  obtain ⟨i, hi, rfl⟩ := Array.getElem_of_mem h
  have hi' : i < g.rows.size := by simpa [alter] using hi
  refine ⟨g.rows[i], Array.getElem_mem hi', ?_⟩
  simp only [alter, Array.getElem_modify]
  split
  · rw [Array.size_modify]
  · rfl

theorem cell?_alter (g : Grid) (x y : Nat) (f : Cell → Cell) (x' y' : Nat) :
    (g.alter x y f).cell? x' y' = if x' = x ∧ y' = y then (g.cell? x y).map f else g.cell? x' y' := by
  rw [cell?, cell?, cell?, alter]
  simp only [Array.getElem?_modify]
  by_cases hy : y = y'
  · subst hy
    cases g.rows[y]? with
    | none => simp
    | some row =>
      by_cases hx : x = x'
      · subst hx
        simp [Array.getElem?_modify]
      · simp [Array.getElem?_modify, hx, Ne.symm hx]
  · simp [hy, Ne.symm hy]

theorem cellAt_widen (g : Grid) (width x y : Nat) : (g.widen width).cellAt x y = g.cellAt x y := by
  unfold widen
  split
  · rw [cellAt, cellAt, cell?, cell?, Array.getElem?_map]
    cases g.rows[y]? with
    | none => rfl
    | some row =>
      simp only [Option.map_some, Option.bind_some, Array.getElem?_append, Array.getElem?_replicate]
      split
      · rfl
      next hx =>
        rw [Array.getElem?_eq_none (Nat.le_of_not_lt hx)]
        split <;> rfl
  · rfl

theorem cellAt_heighten (g : Grid) (height x y : Nat) :
    (g.heighten height).cellAt x y = g.cellAt x y := by
  unfold heighten
  split
  · rw [cellAt, cellAt, cell?, cell?]
    simp only [Array.getElem?_append, Array.getElem?_replicate]
    split
    · rfl
    next hy =>
      rw [Array.getElem?_eq_none (Nat.le_of_not_lt hy)]
      split
      · simp only [Option.bind_some, Array.getElem?_replicate, Option.bind_none]
        split <;> rfl
      · rfl
  · rfl

/-- A grid that grows shows what it showed before. -/
theorem cellAt_grow (g : Grid) (width height x y : Nat) :
    (g.grow width height).cellAt x y = g.cellAt x y := by
  rw [grow, cellAt_heighten, cellAt_widen]

theorem width_grow (g : Grid) (width height : Nat) : (g.grow width height).width = max g.width width := by
  have hheighten : (g.grow width height).width = (g.widen width).width := by
    unfold grow heighten
    split <;> rfl
  rw [hheighten, widen]
  split
  next hlt => exact (Nat.max_eq_right (Nat.le_of_lt hlt)).symm
  next hle => exact (Nat.max_eq_left (Nat.le_of_not_lt hle)).symm

theorem height_grow (g : Grid) (width height : Nat) :
    (g.grow width height).height = max g.height height := by
  have hwiden : (g.widen width).height = g.height := by
    unfold widen
    split <;> rfl
  rw [grow, heighten, hwiden]
  split
  next hlt => exact (Nat.max_eq_right (Nat.le_of_lt hlt)).symm
  next hle => rw [hwiden, Nat.max_eq_left (Nat.le_of_not_lt hle)]

/-- A grid that grows to hold a place holds it. -/
theorem lt_grow (g : Grid) (x y : Nat) :
    x < (g.grow (x + 1) (y + 1)).width ∧ y < (g.grow (x + 1) (y + 1)).height := by
  rw [width_grow, height_grow]
  omega

/-! ## Sizes -/

/-- The rows are as many and as long as the size of the grid says. -/
structure Filled (g : Grid) : Prop where
  height : g.height ≤ g.rows.size
  width : ∀ row ∈ g.rows, g.width ≤ row.size

theorem Filled.widen (h : g.Filled) (width : Nat) : (g.widen width).Filled where
  height := by
    have hheight := h.height
    unfold Grid.widen
    split
    · simpa using hheight
    · exact hheight
  width := by
    have hwidth := h.width
    unfold Grid.widen
    split
    · intro row hrow
      obtain ⟨old, hold, rfl⟩ := Array.mem_map.1 hrow
      have hle := hwidth old hold
      simp only [Array.size_append, Array.size_replicate]
      omega
    · exact hwidth

theorem Filled.heighten (h : g.Filled) (height : Nat) : (g.heighten height).Filled where
  height := by
    have hheight := h.height
    unfold Grid.heighten
    split
    · simp only [Array.size_append, Array.size_replicate]
      omega
    · exact hheight
  width := by
    have hwidth := h.width
    unfold Grid.heighten
    split
    · intro row hrow
      obtain hrow | hrow := Array.mem_append.1 hrow
      · exact hwidth row hrow
      · obtain ⟨-, rfl⟩ := Array.mem_replicate.1 hrow
        simp
    · exact hwidth

theorem Filled.grow (h : g.Filled) (width height : Nat) : (g.grow width height).Filled :=
  (h.widen width).heighten height

/-- A place inside the size has a cell. -/
theorem Filled.cell?_eq (h : g.Filled) (hx : x < g.width) (hy : y < g.height) :
    g.cell? x y = some (g.cellAt x y) := by
  have hrow : y < g.rows.size := Nat.lt_of_lt_of_le hy h.height
  have hcell : x < (g.rows[y]).size := Nat.lt_of_lt_of_le hx (h.width _ (Array.getElem_mem hrow))
  rw [cellAt, cell?, Array.getElem?_eq_getElem hrow, Option.bind_some, Array.getElem?_eq_getElem hcell,
    Option.getD_some]

/-- A change in a place inside the size changes what is shown there, and nothing else. -/
theorem Filled.cellAt_alter (h : g.Filled) (hx : x < g.width) (hy : y < g.height) (f : Cell → Cell)
    (x' y' : Nat) :
    (g.alter x y f).cellAt x' y' = if x' = x ∧ y' = y then f (g.cellAt x y) else g.cellAt x' y' := by
  rw [cellAt, cell?_alter, h.cell?_eq hx hy]
  split <;> rfl

theorem Filled.alter (h : g.Filled) (x y : Nat) (f : Cell → Cell) : (g.alter x y f).Filled where
  height := by
    rw [Grid.alter]
    simpa using h.height
  width := by
    intro row hrow
    obtain ⟨before, hbefore, hsize⟩ := size_of_mem_alter hrow
    rw [hsize]
    exact h.width before hbefore

theorem Filled.cellAt_setChar (h : g.Filled) (x y : Nat) (c : Char) (x' y' : Nat) :
    (g.setChar x y c).cellAt x' y' = if x' = x ∧ y' = y then ⟨c, 0, .solid⟩ else g.cellAt x' y' := by
  obtain ⟨hx, hy⟩ := g.lt_grow x y
  have halter := (h.grow (x + 1) (y + 1)).cellAt_alter hx hy (fun _ => ⟨c, 0, .solid⟩) x' y'
  rw [cellAt_grow] at halter
  exact halter

theorem Filled.setChar (h : g.Filled) (x y : Nat) (c : Char) : (g.setChar x y c).Filled :=
  (h.grow (x + 1) (y + 1)).alter x y _

theorem Filled.cellAt_mergeLine (h : g.Filled) (x y : Nat) {sides : Nat} (hsides : sides ≠ 0)
    (stroke : Stroke) (x' y' : Nat) :
    (g.mergeLine set x y sides stroke).cellAt x' y' =
      if x' = x ∧ y' = y then Cell.merge set (g.cellAt x y) sides stroke else g.cellAt x' y' := by
  obtain ⟨hx, hy⟩ := g.lt_grow x y
  have halter := (h.grow (x + 1) (y + 1)).cellAt_alter hx hy
    (fun cell => Cell.merge set cell sides stroke) x' y'
  rw [cellAt_grow, cellAt_grow] at halter
  rw [mergeLine, if_neg hsides]
  exact halter

theorem Filled.mergeLine (h : g.Filled) (set : CharacterSet) (x y sides : Nat) (stroke : Stroke) :
    (g.mergeLine set x y sides stroke).Filled := by
  rw [Grid.mergeLine]
  split
  · exact h
  · exact (h.grow (x + 1) (y + 1)).alter x y _

theorem filled_blank (width height : Nat) : (blank width height).Filled where
  height := by simp [blank]
  width := by
    intro row hrow
    obtain ⟨-, rfl⟩ := Array.mem_replicate.1 hrow
    rw [Array.size_replicate]
    exact Nat.le_max_left width 1

/-! ## Grids that can be shown -/

theorem Sound.filled (h : g.Sound) : g.Filled := ⟨h.height, h.width⟩

theorem Filled.sound (h : g.Filled) (hshown : ∀ x y, Showable (g.cellAt x y).symbol) : g.Sound :=
  ⟨h.height, h.width, hshown⟩

theorem Sound.cell?_eq (h : g.Sound) (hx : x < g.width) (hy : y < g.height) :
    g.cell? x y = some (g.cellAt x y) := h.filled.cell?_eq hx hy

theorem Sound.cellAt_setChar (h : g.Sound) (x y : Nat) (c : Char) (x' y' : Nat) :
    (g.setChar x y c).cellAt x' y' = if x' = x ∧ y' = y then ⟨c, 0, .solid⟩ else g.cellAt x' y' :=
  h.filled.cellAt_setChar x y c x' y'

theorem Sound.setChar (h : g.Sound) (x y : Nat) {c : Char} (hc : Showable c) :
    (g.setChar x y c).Sound := by
  refine (h.filled.setChar x y c).sound fun x' y' => ?_
  rw [h.cellAt_setChar]
  split
  · exact hc
  · exact h.shown x' y'

theorem Sound.cellAt_mergeLine (h : g.Sound) (x y : Nat) {sides : Nat} (hsides : sides ≠ 0)
    (stroke : Stroke) (x' y' : Nat) :
    (g.mergeLine set x y sides stroke).cellAt x' y' =
      if x' = x ∧ y' = y then Cell.merge set (g.cellAt x y) sides stroke else g.cellAt x' y' :=
  h.filled.cellAt_mergeLine x y hsides stroke x' y'

theorem Sound.mergeLine (h : g.Sound) (set : CharacterSet) (x y sides : Nat) (stroke : Stroke) :
    (g.mergeLine set x y sides stroke).Sound := by
  refine (h.filled.mergeLine set x y sides stroke).sound fun x' y' => ?_
  by_cases hsides : sides = 0
  · rw [Grid.mergeLine, if_pos hsides]
    exact h.shown x' y'
  · rw [h.cellAt_mergeLine x y hsides]
    split
    · exact (merge_seen hsides stroke (h.shown x y)).1
    · exact h.shown x' y'

/-! ## Blank grids -/

theorem cellAt_blank (width height x y : Nat) : (blank width height).cellAt x y = .blank := by
  rw [cellAt, cell?, blank]
  simp only [Array.getElem?_replicate]
  split
  · simp only [Option.bind_some, Array.getElem?_replicate]
    split <;> rfl
  · rfl

theorem sound_blank (width height : Nat) : (blank width height).Sound := by
  refine (filled_blank width height).sound fun x y => ?_
  rw [cellAt_blank]
  decide

end Grid

end RegexDiagram.Canvas
