import RegexDiagram.Proofs.Canvas.Calls
import RegexDiagram.Text.Terminal

/-!
# Texts under lines

A line leaves a cell alone that holds a character and no line. So the characters of a text stay, whatever
lines are drawn after it, and so do the second cells of its wide characters. A space of a text is no such
character: its cell cannot be told from a blank one, and shows the first line that goes through it
(`Filled.text_under_lines`).
-/

namespace RegexDiagram.Canvas

variable {set : CharacterSet} {x y : Nat}

/-- The call draws lines and nothing else. -/
def Call.IsLine : Call → Prop
  | mergeLine .. | draw _ => True
  | ensure .. | setChar .. | drawText .. => False

/-- The steps of lines are those that add a line to a cell. -/
theorem Call.IsLine.steps [TerminalWidths] {call : Call} (h : call.IsLine) :
    ∀ step ∈ call.steps, ∃ t, step = .merge t := by
  intro step hstep
  cases call with
  | mergeLine x y sides stroke => exact ⟨_, List.mem_singleton.1 hstep⟩
  | draw lines =>
    obtain ⟨t, -, rfl⟩ := List.mem_map.1 hstep
    exact ⟨t, rfl⟩
  | ensure | setChar | drawText => exact absurd h id

/-! ## Cells under lines -/

/-- The cell shows a line. -/
structure Cell.Lined (cell : Cell) : Prop where
  sides : cell.sides ≠ 0
  seen : Seen cell.symbol

namespace Cell

variable {cell : Cell} {steps : List Step}

/-- A cell that holds a character without a line keeps it. -/
theorem merge_of_text (hline : cell.sides = 0) (htext : cell.symbol ≠ ' ') (sides : Nat) (stroke : Stroke) :
    Grid.Cell.merge set cell sides stroke = cell := by
  rw [Grid.Cell.merge, if_neg (not_not_intro hline), if_neg htext]

theorem foldl_effect_of_text (hline : cell.sides = 0) (htext : cell.symbol ≠ ' ')
    (hsteps : ∀ step ∈ steps, ∃ t, step = Step.merge t) :
    steps.foldl (Step.effect set x y) cell = cell := by
  induction steps with
  | nil => rfl
  | cons step rest ih =>
    obtain ⟨⟨t, rfl⟩, hrest⟩ := List.forall_mem_cons.1 hsteps
    have hstep : (Step.merge t).effect set x y cell = cell := by
      rw [Step.effect, merge_of_text hline htext, ite_self]
    rw [List.foldl_cons, hstep, ih hrest]

theorem Lined.merge (h : cell.Lined) (sides : Nat) (stroke : Stroke) :
    (Grid.Cell.merge set cell sides stroke).Lined := by
  have hsides : cell.sides ||| sides ≠ 0 := fun hor => h.sides (Nat.or_eq_zero_iff.1 hor).1
  rw [Grid.Cell.merge, if_pos h.sides]
  exact ⟨hsides, glyph_seen set hsides _⟩

theorem Lined.foldl_effect (h : cell.Lined) (hsteps : ∀ step ∈ steps, ∃ t, step = Step.merge t) :
    (steps.foldl (Step.effect set x y) cell).Lined := by
  refine List.foldlRecOn steps _ h fun cell hcell step hstep => ?_
  obtain ⟨t, rfl⟩ := hsteps step hstep
  rw [Step.effect]
  split
  · exact hcell.merge t.sides t.stroke
  · exact hcell

/-- A blank cell shows a line from the first step on that goes through it. -/
theorem lined_of_addresses (hsteps : ∀ step ∈ steps, ∃ t, step = Step.merge t)
    (h : ∃ step ∈ steps, step.Addresses x y) : (steps.foldl (Step.effect set x y) blank).Lined := by
  induction steps with
  | nil =>
    obtain ⟨step, hstep, -⟩ := h
    exact absurd hstep List.not_mem_nil
  | cons step rest ih =>
    obtain ⟨⟨t, rfl⟩, hrest⟩ := List.forall_mem_cons.1 hsteps
    rw [List.foldl_cons]
    by_cases hplace : (Step.merge t).Addresses x y
    · have hmerge : (Step.merge t).effect set x y blank = ⟨glyph set t.sides t.stroke, t.sides, t.stroke⟩ :=
        if_pos hplace
      rw [hmerge]
      exact Lined.foldl_effect ⟨hplace.1, glyph_seen set hplace.1 _⟩ hrest
    · rw [Step.effect_of_not_addresses hplace]
      refine ih hrest ?_
      obtain ⟨step, hstep, haddresses⟩ := h
      obtain rfl | hstep := List.mem_cons.1 hstep
      · exact absurd haddresses hplace
      · exact ⟨step, hstep, haddresses⟩

/-- A blank cell stays blank as long as no line goes through it. -/
theorem foldl_effect_blank_eq_space_iff (hsteps : ∀ step ∈ steps, ∃ t, step = Step.merge t) :
    (steps.foldl (Step.effect set x y) blank).symbol = ' ' ↔ ∀ step ∈ steps, ¬ step.Addresses x y := by
  constructor
  · intro hspace step hstep haddresses
    exact (lined_of_addresses hsteps ⟨step, hstep, haddresses⟩).seen.2 hspace
  · intro hplace
    rw [Step.foldl_effect_of_not_addresses hplace]
    rfl

end Cell

/-! ## Texts -/

/-- Of characters side by side each comes to its own cell. -/
theorem foldl_effect_spell {cells : List Char} {i : Nat} (hi : i < cells.length) (cell : Cell) :
    (spell x y cells).foldl (Step.effect set (x + i) y) cell = ⟨cells[i], 0, .solid⟩ := by
  induction cells generalizing x i cell with
  | nil => exact absurd hi (Nat.not_lt_zero i)
  | cons c rest ih =>
    rw [spell, List.foldl_cons]
    cases i with
    | zero =>
      have hput : (Step.put x y c).effect set (x + 0) y cell = ⟨c, 0, .solid⟩ := if_pos ⟨rfl, rfl⟩
      rw [hput, Step.foldl_effect_of_not_addresses, List.getElem_cons_zero]
      intro step hstep haddresses
      have hplace := addresses_spell.1 ⟨step, hstep, haddresses⟩
      omega
    | succ i =>
      have hplace : x + (i + 1) = x + 1 + i := by omega
      rw [hplace, ih (Nat.lt_of_succ_lt_succ hi), List.getElem_cons_succ]

namespace Grid

variable {g : Grid}

theorem Filled.cellAt_drawText [TerminalWidths] (h : g.Filled) {text : List Char} {i : Nat}
    (hi : i < (textCells text).length) :
    (g.drawText x y text).cellAt (x + i) y = ⟨(textCells text)[i], 0, .solid⟩ := by
  rw [← foldl_spell_textCells .ascii, h.cellAt_steps, foldl_effect_spell hi]

/-- **Lines leave the characters of a text alone, except for its spaces.** A cell of the text that holds
another character keeps it and stays without a line. One that holds a space shows it exactly as long as no
line goes through it. -/
theorem Filled.text_under_lines [TerminalWidths] (h : g.Filled) (set : CharacterSet) (x y : Nat)
    (text : List Char) {lines : List Call} (hlines : ∀ call ∈ lines, call.IsLine) {i : Nat}
    (hi : i < (textCells text).length) :
    let cell := ((g.drawText x y text).perform set lines).cellAt (x + i) y
    ((textCells text)[i] ≠ ' ' → cell = ⟨(textCells text)[i], 0, .solid⟩) ∧
      ((textCells text)[i] = ' ' →
        (cell.symbol = ' ' ↔ ∀ call ∈ lines, ¬ call.Addresses (x + i) y)) := by
  intro cell
  have hdrawn : (g.drawText x y text).Filled := by
    rw [← foldl_spell_textCells .ascii]
    exact h.steps _
  have hsteps : ∀ step ∈ lines.flatMap Call.steps, ∃ t, step = Step.merge t := by
    intro step hstep
    obtain ⟨call, hcall, hstep⟩ := List.mem_flatMap.1 hstep
    exact (hlines call hcall).steps step hstep
  have hcell : cell = (lines.flatMap Call.steps).foldl (Step.effect set (x + i) y)
      ⟨(textCells text)[i], 0, .solid⟩ := by
    rw [← h.cellAt_drawText hi, ← hdrawn.cellAt_perform]
  rw [hcell]
  constructor
  · intro htext
    exact Cell.foldl_effect_of_text rfl htext hsteps
  · intro hspace
    have hplaces : (∀ step ∈ lines.flatMap Call.steps, ¬ step.Addresses (x + i) y) ↔
        ∀ call ∈ lines, ¬ call.Addresses (x + i) y := by
      simp only [List.mem_flatMap, Call.addresses_iff]
      constructor
      · rintro hall call hcall ⟨step, hstep, haddresses⟩
        exact hall step ⟨call, hcall, hstep⟩ haddresses
      · rintro hall step ⟨call, hcall, hstep⟩ haddresses
        exact hall call hcall ⟨step, hstep, haddresses⟩
    rw [hspace, ← hplaces]
    exact Cell.foldl_effect_blank_eq_space_iff hsteps

/-- A level line through the row of a text with a space: it is seen in the space, and the character in
front of it is kept. -/
theorem text_under_level_line :
    let g := ((blank 9 3).drawText 3 1 "a b".toList).perform .ascii [.draw (.horizontal 0 8 1 .solid)]
    g.cellAt 3 1 = ⟨'a', 0, .solid⟩ ∧ (g.cellAt 4 1).symbol ≠ ' ' := by
  have hfilled := filled_blank 9 3
  have hlines : ∀ call ∈ [Call.draw (.horizontal 0 8 1 .solid)], call.IsLine := by
    intro call hcall
    obtain rfl := List.mem_singleton.1 hcall
    trivial
  have hletter := hfilled.text_under_lines .ascii 3 1 "a b".toList hlines (i := 0) (by decide)
  have hspace := hfilled.text_under_lines .ascii 3 1 "a b".toList hlines (i := 1) (by decide)
  refine ⟨hletter.1 (by decide), fun hsymbol => ?_⟩
  refine (hspace.2 (by decide)).1 hsymbol _ (List.mem_singleton_self _) ?_
  exact ⟨.horizontal 0 8 1 .solid, List.mem_singleton_self _, by decide, rfl, by decide, by decide⟩

/-- Lines do not leave all cells of a text alone. -/
theorem not_text_under_lines :
    ¬ ∀ (g : Grid) (x y : Nat) (text : List Char) (lines : List Call), g.Filled →
      (∀ call ∈ lines, call.IsLine) → ∀ (i : Nat) (_ : i < (textCells text).length),
        (((g.drawText x y text).perform .ascii lines).cellAt (x + i) y).symbol = (textCells text)[i] := by
  intro hall
  have hspace := hall (blank 9 3) 3 1 "a b".toList [.draw (.horizontal 0 8 1 .solid)] (filled_blank 9 3)
    (fun call hcall => by obtain rfl := List.mem_singleton.1 hcall; trivial) 1 (by decide)
  have hcrossed : ((((blank 9 3).drawText 3 1 "a b".toList).perform .ascii
      [.draw (.horizontal 0 8 1 .solid)]).cellAt 4 1).symbol = '-' := by decide
  rw [hcrossed] at hspace
  exact absurd hspace (by decide)

end Grid

end RegexDiagram.Canvas
