import RegexDiagram.Proofs.Canvas.Calls
import RegexDiagram.Proofs.Canvas.Cropping
import RegexDiagram.Text.Terminal

/-!
# Pictures

A picture does not say where on the grid it was drawn. Calls with all their places moved by the same
distance do in the moved places what they did before (`Call.steps_shift`), so the grid shows the same cells
behind blank ones (`cellAt_perform_shift`). The rows of such a grid are those of the other behind spaces and
behind empty rows, which are cropped (`Moved.display_eq`).
-/

namespace RegexDiagram.Canvas

variable {set : CharacterSet} {dx dy : ℕ}

/-! ## Moved calls -/

/-- The step in a place that is moved to the right and down. -/
def Step.shift (dx dy : ℕ) : Step → Step
  | grow width height => grow width height
  | put x y c => put (x + dx) (y + dy) c
  | merge t => merge ⟨t.x + dx, t.y + dy, t.sides, t.stroke⟩

def LineSegment.shift (dx dy : ℕ) : LineSegment → LineSegment
  | horizontal x₀ x₁ y stroke => horizontal (x₀ + dx) (x₁ + dx) (y + dy) stroke
  | vertical x y₀ y₁ stroke => vertical (x + dx) (y₀ + dy) (y₁ + dy) stroke

def Draw.shift (dx dy : ℕ) : Draw → Draw
  | horizontal x₀ x₁ y stroke => horizontal (x₀ + dx) (x₁ + dx) (y + dy) stroke
  | vertical x y₀ y₁ stroke => vertical (x + dx) (y₀ + dy) (y₁ + dy) stroke
  | rect x y x₂ y₂ stroke => rect (x + dx) (y + dy) (x₂ + dx) (y₂ + dy) stroke

/-- The call with all its places moved to the right and down. A size is no place. -/
def Call.shift (dx dy : ℕ) : Call → Call
  | ensure width height => ensure width height
  | setChar x y c => setChar (x + dx) (y + dy) c
  | drawText x y text => drawText (x + dx) (y + dy) text
  | mergeLine x y sides stroke => mergeLine (x + dx) (y + dy) sides stroke
  | draw lines => draw (lines.shift dx dy)

/-- A moved step does in the moved place what the step does in the place. -/
theorem Step.effect_shift (step : Step) (x y : ℕ) (cell : Cell) :
    (step.shift dx dy).effect set (x + dx) (y + dy) cell = step.effect set x y cell := by
  cases step with
  | grow width height => rfl
  | put x' y' c => simp only [shift, effect, Nat.add_right_cancel_iff]
  | merge t => simp only [shift, effect, Nat.add_right_cancel_iff]

theorem Step.foldl_effect_shift (steps : List Step) (x y : ℕ) (cell : Cell) :
    (steps.map (shift dx dy)).foldl (effect set (x + dx) (y + dy)) cell =
      steps.foldl (effect set x y) cell := by
  rw [List.foldl_map]
  congr 1
  funext cell step
  exact step.effect_shift x y cell

/-- No step is moved to a place above or to the left of the distance. -/
theorem Step.not_addresses_shift (step : Step) {x y : ℕ} (h : x < dx ∨ y < dy) :
    ¬ (step.shift dx dy).Addresses x y := by
  intro haddresses
  cases step with
  | grow width height => exact haddresses
  | put x' y' c =>
    obtain ⟨rfl, rfl⟩ := haddresses
    omega
  | merge t =>
    obtain ⟨-, hx, hy⟩ := haddresses
    simp only at hx hy
    omega

theorem spell_shift (x y : ℕ) (cells : List Char) :
    spell (x + dx) (y + dy) cells = (spell x y cells).map (Step.shift dx dy) := by
  induction cells generalizing x with
  | nil => rfl
  | cons c rest ih =>
    have hplace : x + dx + 1 = x + 1 + dx := by omega
    rw [spell, hplace, ih]
    rfl

theorem run_shift (a b d : ℕ) : Grid.run (a + d) (b + d) = (Grid.run a b).map (· + d) := by
  have hmin : min (a + d) (b + d) = d + min a b := by omega
  have hmax : max (a + d) (b + d) - (d + min a b) = max a b - min a b := by omega
  have hadd : (fun k => k + d) = fun k => d + k := funext fun k => Nat.add_comm k d
  simp only [Grid.run, Nat.add_right_cancel_iff, hmin, hmax]
  split
  · rfl
  · rw [hadd, List.map_add_range']

theorem runSides_shift (before after a b k d : ℕ) :
    Grid.runSides before after (min (a + d) (b + d)) (max (a + d) (b + d)) (k + d) =
      Grid.runSides before after (min a b) (max a b) k := by
  have hmin : min (a + d) (b + d) = min a b + d := Nat.add_min_add_right a b d
  have hmax : max (a + d) (b + d) = max a b + d := Nat.add_max_add_right a b d
  simp only [Grid.runSides, hmin, hmax, Nat.add_lt_add_iff_right]

/-- A moved line is drawn by the moved steps. -/
theorem LineSegment.touches_shift (s : LineSegment) :
    (s.shift dx dy).touches.map Step.merge = (s.touches.map Step.merge).map (Step.shift dx dy) := by
  cases s with
  | horizontal x₀ x₁ y stroke =>
    simp only [shift, touches, sides, run_shift, List.map_map]
    refine List.map_congr_left fun x _ => ?_
    simp only [Function.comp_apply, Step.shift, runSides_shift]
  | vertical x y₀ y₁ stroke =>
    simp only [shift, touches, sides, run_shift, List.map_map]
    refine List.map_congr_left fun y _ => ?_
    simp only [Function.comp_apply, Step.shift, runSides_shift]

theorem Draw.segments_shift (lines : Draw) :
    (lines.shift dx dy).segments = lines.segments.map (LineSegment.shift dx dy) := by
  cases lines with
  | horizontal | vertical | rect => rfl

theorem Call.steps_shift [TerminalWidths] (call : Call) :
    (call.shift dx dy).steps = call.steps.map (Step.shift dx dy) := by
  cases call with
  | ensure | setChar | mergeLine => rfl
  | drawText x y text => exact spell_shift x y (textCells text)
  | draw lines =>
    simp only [shift, steps, Draw.segments_shift, List.map_flatMap, List.flatMap_map,
      LineSegment.touches_shift]

namespace Grid

variable {g g' : Grid}

/-- The second grid shows what the first shows, but further to the right and further down. -/
structure Moved (dx dy : ℕ) (g g' : Grid) : Prop where
  inside : ∀ x y, g'.cellAt (x + dx) (y + dy) = g.cellAt x y
  outside : ∀ x y, x < dx ∨ y < dy → g'.cellAt x y = .blank

theorem moved_perform [TerminalWidths] (set : CharacterSet) (width height width' height' dx dy : ℕ)
    (calls : List Call) :
    Moved dx dy ((blank width height).perform set calls)
      ((blank width' height').perform set (calls.map (Call.shift dx dy))) := by
  have hsteps : (calls.map (Call.shift dx dy)).flatMap Call.steps =
      (calls.flatMap Call.steps).map (Step.shift dx dy) := by
    simp only [List.flatMap_map, Call.steps_shift, List.map_flatMap]
  refine ⟨fun x y => ?_, fun x y hplace => ?_⟩
  · rw [(filled_blank width' height').cellAt_perform, (filled_blank width height).cellAt_perform,
      cellAt_blank, cellAt_blank, hsteps, Step.foldl_effect_shift]
  · rw [(filled_blank width' height').cellAt_perform, cellAt_blank, hsteps,
      Step.foldl_effect_of_not_addresses]
    intro step hstep
    obtain ⟨old, -, rfl⟩ := List.mem_map.1 hstep
    exact old.not_addresses_shift hplace

/-! ## Moved rows -/

/-- The characters of a row. There are none where the grid has no row. -/
def rowAt (g : Grid) (y : ℕ) : List Char := (g.symbols[y]?).getD []

theorem getD_rowAt (g : Grid) (x y : ℕ) : ((g.rowAt y)[x]?).getD ' ' = (g.cellAt x y).symbol := by
  have hrow : g.symbols[y]? = (g.rows[y]?).map fun row => (row.map (·.symbol)).toList := by
    rw [symbols, Array.getElem?_toList, Array.getElem?_map]
  rw [rowAt, hrow, cellAt, cell?]
  cases g.rows[y]? with
  | none => rfl
  | some row =>
    rw [Option.map_some, Option.getD_some, Option.bind_some, Array.getElem?_toList, Array.getElem?_map]
    cases row[x]? with
    | none => rfl
    | some cell => rfl

theorem getD_rows (g : Grid) (y : ℕ) : ((g.symbols.map rowText)[y]?).getD [] = rowText (g.rowAt y) := by
  rw [List.getElem?_map, rowAt]
  cases g.symbols[y]? with
  | none => rfl
  | some row => rfl

theorem getD_replicate_append {β : Type} (n : ℕ) (fill : β) (entries : List β) (i : ℕ) :
    ((List.replicate n fill ++ entries)[i]?).getD fill =
      if i < n then fill else (entries[i - n]?).getD fill := by
  rw [List.getElem?_append, List.length_replicate]
  split
  next hlt => rw [List.getElem?_replicate, if_pos hlt, Option.getD_some]
  next => rfl

namespace Moved

variable (h : Moved dx dy g g')
include h

/-- The row of a moved picture stands behind spaces. -/
theorem rowText_rowAt (y : ℕ) : rowText (g'.rowAt (y + dy)) = indented dx (rowText (g.rowAt y)) := by
  rw [← rowText_spaces_append]
  refine eq_of_getD_eq rowText_append_spaces fun x => ?_
  rw [getD_rowAt, getD_replicate_append]
  split
  next hlt => rw [h.outside x (y + dy) (.inl hlt), Cell.blank]
  next hge =>
    obtain ⟨k, rfl⟩ := Nat.exists_eq_add_of_le' (Nat.le_of_not_lt hge)
    rw [h.inside, Nat.add_sub_cancel, getD_rowAt]

/-- Nothing stands in the rows above. -/
theorem rowText_rowAt_above {y : ℕ} (hy : y < dy) : rowText (g'.rowAt y) = [] := by
  have hempty : rowText (g'.rowAt y) = rowText [] := by
    refine eq_of_getD_eq rowText_append_spaces fun x => ?_
    rw [getD_rowAt, h.outside x y (.inr hy), Cell.blank, List.getElem?_nil, Option.getD_none]
  exact hempty

/-- A moved picture is the same picture. -/
theorem display_eq : g'.display = g.display := by
  have hrows (y : ℕ) : ((g'.symbols.map rowText)[y]?).getD [] =
      ((List.replicate dy [] ++ (g.symbols.map rowText).map (indented dx))[y]?).getD [] := by
    rw [getD_rows, getD_replicate_append]
    split
    next hlt => exact h.rowText_rowAt_above hlt
    next hge =>
      obtain ⟨k, rfl⟩ := Nat.exists_eq_add_of_le' (Nat.le_of_not_lt hge)
      have hindented : (((g.symbols.map rowText).map (indented dx))[k]?).getD [] =
          indented dx (((g.symbols.map rowText)[k]?).getD []) := by
        rw [List.getElem?_map]
        cases (g.symbols.map rowText)[k]? with
        | none => rfl
        | some row => rfl
      rw [Nat.add_sub_cancel, hindented, getD_rows, h.rowText_rowAt]
  have hcrop : crop (g'.symbols.map rowText) = crop (g.symbols.map rowText) := calc
    _ = crop (List.replicate dy [] ++ (g.symbols.map rowText).map (indented dx)) :=
        eq_of_getD_eq crop_append_empty hrows
    _ = crop (g.symbols.map rowText) := by rw [crop_empty_append, crop_map_indented]
  rw [display_eq_crop, hcrop, display_eq_crop]

end Moved

/-! ## What a picture is -/

/-- The rows of a grid around those that it shows are empty. -/
theorem trimRows_between (rows : List (List Char)) :
    ∃ above below, rows = List.replicate above [] ++ trimRows rows ++ List.replicate below [] := by
  obtain ⟨bottom, hrows, hbottom⟩ := trimRows_append rows
  have htop : rows.takeWhile List.isEmpty = List.replicate (rows.takeWhile List.isEmpty).length [] :=
    List.eq_replicate_iff.2 ⟨rfl, fun row hrow => List.isEmpty_iff.1 (List.mem_takeWhile_imp hrow)⟩
  refine ⟨(rows.takeWhile List.isEmpty).length, bottom.length, ?_⟩
  rw [← htop, ← List.eq_replicate_iff.2 ⟨rfl, hbottom⟩]
  exact hrows

/-- **A picture is the same wherever it is drawn, and is cropped.** Calls on blank grids of any size give
the same picture if all their places are moved. The lines of a picture are rows of the grid, from the first
that is not empty to the last. All of them begin with spaces that are left out, in the same number, and
nothing else can be left out of the lines. -/
theorem display_perform_shift [TerminalWidths] (set : CharacterSet) (width height width' height' dx dy : ℕ)
    (calls : List Call) :
    ((blank width' height').perform set (calls.map (Call.shift dx dy))).display =
        ((blank width height).perform set calls).display ∧
      ∀ g : Grid, (∀ x y, (g.cellAt x y).symbol ≠ '\n') →
        ∃ above kept below spaces,
          g.symbols.map rowText = List.replicate above [] ++ kept ++ List.replicate below [] ∧
          (kept = [] ∧ g.display = [] ∨
            g.display ≠ [] ∧ Tight (splitLines g.display) ∧
            List.Forall₂ (fun row line => row = [] ∧ line = [] ∨ row = List.replicate spaces ' ' ++ line)
              kept (splitLines g.display)) := by
  refine ⟨(moved_perform set width height width' height' dx dy calls).display_eq, fun g hfeed => ?_⟩
  obtain ⟨above, below, hrows⟩ := trimRows_between (g.symbols.map rowText)
  refine ⟨above, trimRows (g.symbols.map rowText), below, g.indent, hrows, ?_⟩
  by_cases hnil : trimRows (g.symbols.map rowText) = []
  · refine .inl ⟨hnil, ?_⟩
    rw [display_eq_crop, crop, hnil]
    rfl
  · have hsymbols : ∀ row ∈ g.symbols, '\n' ∉ row := by
      intro row hrow hmem
      obtain ⟨y, hy, rfl⟩ := List.getElem_of_mem hrow
      obtain ⟨x, hx, hfound⟩ := List.getElem_of_mem hmem
      rw [getElem_symbols (List.getElem?_eq_getElem hy) hx] at hfound
      exact hfeed x y hfound
    have htrimmed : ∀ row ∈ g.symbols.map rowText, Trimmed row :=
      List.forall_mem_map.2 fun row _ => trimmed_trimEnd _
    have htight := tight_crop htrimmed hnil
    have hlines : splitLines g.display = crop (g.symbols.map rowText) := splitLines_display hsymbols hnil
    refine .inr ⟨fun hempty => ?_, hlines ▸ htight, hlines ▸ forall₂_crop _⟩
    -- an empty text is a single empty line
    have htop := htight.top
    rw [← hlines, hempty] at htop
    exact htop rfl

/-- A letter over a rule, drawn away from the corner. -/
theorem display_perform_shift_rule :
    ((blank 0 0).perform .ascii [.drawText 7 4 ['a'], .draw (.horizontal 5 9 5 .solid)]).display =
      "  a\n-----".toList := by
  have hshift := (display_perform_shift .ascii 0 0 0 0 5 4
    [.drawText 2 0 ['a'], .draw (.horizontal 0 4 1 .solid)]).1
  refine hshift.trans ?_
  decide +kernel

end Grid

end RegexDiagram.Canvas
