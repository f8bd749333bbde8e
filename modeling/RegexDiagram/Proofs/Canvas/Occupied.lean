import RegexDiagram.Layout.Railroad
import RegexDiagram.Proofs.Canvas.Protection
import RegexDiagram.Proofs.Pattern.Controls
import RegexDiagram.Proofs.Text.Plain
import RegexDiagram.Text.Terminal

/-!
# Columns that texts occupy

A text is drawn character by character, and takes the columns of each (`length_textCells`). It is measured as a
whole, and in a whole text neighbours can share columns. So a label box fits its text just if the text is as
wide as its characters are together (`Filled.measured_drawn`).

Plain texts are (`columns_plain_eq_sum`). A picture with a skin tone is not: it is measured as two columns and
drawn in four (`not_measured_drawn_of_skinTone`).
-/

namespace RegexDiagram

open Pattern

/-- In a plain text no characters share columns. -/
theorem columns_plain_eq_sum [TerminalWidths] [PlainWidths] {text : List Char} (h : PlainText text) :
    columns text = (text.map charColumns).sum := by
  have hones : ∀ n ∈ text.map charColumns, n = 1 := List.forall_mem_map.2 fun c hc => (h c hc).charColumns
  rw [PlainWidths.columns_plain h, List.eq_replicate_of_mem hones, List.sum_replicate_nat, List.length_map,
    Nat.mul_one]

namespace Canvas

/-- A text is drawn in the columns of its characters. -/
theorem length_textCells [TerminalWidths] (text : List Char) :
    (textCells text).length = (text.map charColumns).sum := by
  induction text with
  | nil => rfl
  | cons c rest ih =>
    rw [textCells, List.flatMap_cons, ← textCells, List.length_append, ih, List.map_cons, List.sum_cons]
    split
    next hcolumns => rw [hcolumns]; rfl
    next hcolumns =>
      rw [List.length_cons, List.length_replicate]
      omega

namespace Grid

variable {g : Grid}

/-- The cells from a place on hold the characters, and all others are as they were. -/
structure Writes (g g' : Grid) (x y : Nat) (cells : List Char) : Prop where
  inside : ∀ i (hi : i < cells.length), g'.cellAt (x + i) y = ⟨cells[i], 0, .solid⟩
  outside : ∀ x' y', ¬ (y' = y ∧ x ≤ x' ∧ x' < x + cells.length) → g'.cellAt x' y' = g.cellAt x' y'

theorem Filled.writes_drawText [TerminalWidths] (h : g.Filled) (x y : Nat) (text : List Char) :
    g.Writes (g.drawText x y text) x y (textCells text) where
  inside _ hi := h.cellAt_drawText hi
  outside x' y' hplace :=
    have hcall : ((Call.drawText x y text).apply .ascii g).cellAt x' y' = g.cellAt x' y' := h.cellAt_call hplace
    hcall

/-- **Measured and drawn widths.** A text without control characters is drawn in the columns of its characters,
and nowhere else, and is measured by its columns as a whole. A label box is wider than what is measured by the
padding on both sides, so it fits what is drawn in it exactly if the text is as wide as its characters are
together. -/
theorem Filled.measured_drawn [TerminalWidths] (h : g.Filled) (x y : Nat) {text : List Char}
    (hcalm : AllIn Calm text) :
    g.Writes (g.drawText x y text) x y (textCells text) ∧
      (textCells text).length = (text.map charColumns).sum ∧
      Measure.cells text = .ok (⟨columns text, 1, 0⟩ : Extent ℚ) ∧
      ∀ (c : Spacing ℚ) (className : String),
        let box := (Railroad.labelBox c Measure.cells className text).box
        box.width = columns text + 2 * c.labelPaddingX ∧
          (box.width = (textCells text).length + 2 * c.labelPaddingX ↔
            columns text = (text.map charColumns).sum) := by
  refine ⟨h.writes_drawText x y text, length_textCells text, cells_of_forall hcalm, fun c className => ?_⟩
  have hextent : (Measure.cells : Measure ℚ).extent text = ⟨columns text, 1, 0⟩ := by
    rw [Measure.extent, cells_of_forall hcalm]
  have hbox : (Railroad.labelBox c Measure.cells className text).box.width =
      ((Measure.cells : Measure ℚ).extent text).width + 2 * c.labelPaddingX := rfl
  rw [hextent] at hbox
  refine ⟨hbox, ?_⟩
  rw [hbox, length_textCells, add_left_inj, Nat.cast_inj]

/-- A thumb with a skin tone: it is drawn in four columns and measured as two. -/
theorem measured_drawn_skinTone : (blank 9 3).Filled ∧ AllIn Calm ['👍', '🏽'] ∧
    (textCells ['👍', '🏽']).length = 4 ∧
    (Measure.cells ['👍', '🏽'] : Except Failure (Extent ℚ)) = .ok ⟨2, 1, 0⟩ := by
  have hfilled := filled_blank 9 3
  have hcalm : AllIn Calm ['👍', '🏽'] := isRefused_eq_false.1 (by decide)
  have hcolumns : columns ['👍', '🏽'] = 2 := by decide +kernel
  obtain ⟨-, hlength, hmeasure, -⟩ := hfilled.measured_drawn 3 1 hcalm
  rw [hcolumns] at hmeasure
  exact ⟨hfilled, hcalm, hlength.trans (by decide +kernel), hmeasure⟩

/-- With a thumb and a skin tone that have two columns each, and two together, not every text is measured by
the columns that it is drawn in. -/
theorem not_measured_drawn_of_skinTone [TerminalWidths] (hthumb : charWidth? '👍' = some 2)
    (htone : charWidth? '🏽' = some 2) (htogether : columns ['👍', '🏽'] = 2) :
    ¬ ∀ text, AllIn Calm text →
      (Measure.cells text : Except Failure (Extent ℚ)) = .ok ⟨(textCells text).length, 1, 0⟩ := by
  intro hall
  have hcalm : AllIn Calm ['👍', '🏽'] := isRefused_eq_false.1 (by decide)
  have hdrawn : (textCells ['👍', '🏽']).length = 4 := by
    rw [length_textCells, List.map_cons, List.map_singleton, charColumns, charColumns, hthumb, htone]
    rfl
  have hmeasure := hall _ hcalm
  rw [cells_of_forall hcalm, htogether, hdrawn] at hmeasure
  have hwidth : ((2 : Nat) : ℚ) = (4 : Nat) := congrArg Extent.width (Except.ok.inj hmeasure)
  exact absurd (Nat.cast_inj.1 hwidth) (by decide)

/-- Not every text is measured by the columns that it is drawn in. -/
theorem not_measured_drawn : ¬ ∀ text, AllIn Calm text →
    (Measure.cells text : Except Failure (Extent ℚ)) = .ok ⟨(textCells text).length, 1, 0⟩ :=
  not_measured_drawn_of_skinTone (by decide +kernel) (by decide +kernel) (by decide +kernel)

end Grid

end Canvas

end RegexDiagram
