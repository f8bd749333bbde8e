import RegexDiagram.Proofs.Canvas.Strokes
import RegexDiagram.Proofs.Text.Lines
import Mathlib.Data.List.TakeWhile

/-!
# Grids as lines of text

When a grid is displayed, the blanks at the end of each row, the empty rows above and below, and the
columns in front of everything else are left out. What stands between two places of a row where
something can be seen is kept as it is, in one line (`Sound.display_shows`).
-/

namespace RegexDiagram

/-! ## Pieces of rows -/

theorem trimEnd_append (s : List Char) :
    ∃ blanks, s = trimEnd s ++ blanks ∧ ∀ c ∈ blanks, isBlank c = true := by
  refine ⟨(s.reverse.takeWhile isBlank).reverse, ?_, fun c hc => ?_⟩
  · rw [trimEnd, ← List.reverse_append, List.takeWhile_append_dropWhile, List.reverse_reverse]
  · exact List.mem_takeWhile_imp (List.mem_reverse.1 hc)

/-- A text stands in a row from a place on. -/
theorem eq_append_of_getElem {row text : List Char} {x : ℕ} (hlength : x + text.length ≤ row.length)
    (h : ∀ (i : ℕ) (hi : i < text.length), row[x + i] = text[i]) :
    ∃ front back, row = front ++ text ++ back ∧ front.length = x := by
  have htext : (row.drop x).take text.length = text := by
    refine List.ext_getElem (by simp; omega) fun i _ hi => ?_
    rw [List.getElem_take, List.getElem_drop, h i hi]
  refine ⟨row.take x, (row.drop x).drop text.length, ?_, by simp; omega⟩
  calc row = row.take x ++ row.drop x := (List.take_append_drop x row).symm
    _ = row.take x ++ ((row.drop x).take text.length ++ (row.drop x).drop text.length) := by
        rw [List.take_append_drop text.length]
    _ = row.take x ++ text ++ (row.drop x).drop text.length := by
        rw [htext, List.append_assoc]

namespace Canvas

namespace Grid

/-! ## Rows -/

theorem mem_rowText {row : List Char} {c : Char} (h : c ∈ rowText row) : c ∈ row ∧ c ≠ continuation := by
  obtain ⟨blanks, hrow, -⟩ := trimEnd_append (row.filter (· ≠ continuation))
  have hmem : c ∈ row.filter (· ≠ continuation) := hrow ▸ List.mem_append_left _ h
  exact (List.mem_filter.1 hmem).imp_right of_decide_eq_true

/-- Of a row that can be shown only blanks at its end are left out. -/
theorem rowText_append {row : List Char} (h : ∀ c ∈ row, Showable c) :
    ∃ blanks, row = rowText row ++ blanks ∧ ∀ c ∈ blanks, isBlank c = true := by
  have hfilter : row.filter (· ≠ continuation) = row :=
    List.filter_eq_self.2 fun c hc => decide_eq_true (h c hc).1
  rw [rowText, hfilter]
  exact trimEnd_append row

/-- Only empty rows are left out, at the top and at the bottom. -/
theorem trimRows_append (rows : List (List Char)) :
    ∃ bottom, rows = rows.takeWhile List.isEmpty ++ trimRows rows ++ bottom ∧
      ∀ row ∈ bottom, row = [] := by
  refine ⟨((rows.dropWhile List.isEmpty).reverse.takeWhile List.isEmpty).reverse, ?_, fun row hrow => ?_⟩
  · rw [List.append_assoc, trimRows, ← List.reverse_append, List.takeWhile_append_dropWhile,
      List.reverse_reverse, List.takeWhile_append_dropWhile]
  · exact List.isEmpty_iff.1 (List.mem_takeWhile_imp (List.mem_reverse.1 hrow))

theorem mem_trimRows {rows : List (List Char)} {row : List Char} (h : row ∈ trimRows rows) : row ∈ rows := by
  obtain ⟨bottom, hrows, -⟩ := trimRows_append rows
  rw [hrows]
  exact List.mem_append_left _ (List.mem_append_right _ h)

/-- A row that is not empty is kept. -/
theorem getElem?_trimRows {rows : List (List Char)} {row : List Char} {y : ℕ} (h : rows[y]? = some row)
    (hne : row ≠ []) : (rows.takeWhile List.isEmpty).length ≤ y ∧
      (trimRows rows)[y - (rows.takeWhile List.isEmpty).length]? = some row := by
  obtain ⟨bottom, hrows, hbottom⟩ := trimRows_append rows
  rw [hrows, List.append_assoc] at h
  have hbelow : (rows.takeWhile List.isEmpty).length ≤ y := Nat.le_of_not_lt fun hlt => by
    rw [List.getElem?_append_left hlt] at h
    exact hne (List.isEmpty_iff.1 (List.mem_takeWhile_imp (List.mem_of_getElem? h)))
  rw [List.getElem?_append_right hbelow] at h
  refine ⟨hbelow, ?_⟩
  obtain hlt | hge := Nat.lt_or_ge (y - (rows.takeWhile List.isEmpty).length) (trimRows rows).length
  · rwa [List.getElem?_append_left hlt] at h
  · rw [List.getElem?_append_right hge] at h
    exact absurd (hbottom row (List.mem_of_getElem? h)) hne

/-- The number of spaces that a row begins with. -/
def lead (row : List Char) : ℕ := (row.takeWhile (· = ' ')).length

theorem commonIndent_le_lead {rows : List (List Char)} {row : List Char} (h : row ∈ rows) (hne : row ≠ []) :
    commonIndent rows ≤ lead row := by
  have hmem : row ∈ rows.filter (!·.isEmpty) := List.mem_filter.2 ⟨h, by simpa using hne⟩
  exact List.min?_getD_le_of_mem (List.mem_map_of_mem hmem)

/-- The common indent ends at the latest where a row shows something. -/
theorem commonIndent_le {rows : List (List Char)} {row : List Char} (h : row ∈ rows) {j : ℕ}
    (hj : j < row.length) (hspace : row[j] ≠ ' ') : commonIndent rows ≤ j := by
  refine (commonIndent_le_lead h (List.ne_nil_of_length_pos (Nat.zero_lt_of_lt hj))).trans ?_
  refine Nat.le_of_not_lt fun hlt => hspace ?_
  have hspaces : row.takeWhile (· = ' ') <+: row := List.takeWhile_prefix _
  rw [← hspaces.getElem hlt]
  simpa using List.mem_takeWhile_imp (List.getElem_mem hlt)

/-! ## What is displayed -/

variable {g : Grid} {text : List Char} {x y : ℕ}

/-- The number of rows that are left out at the top. -/
def top (g : Grid) : ℕ := ((g.symbols.map rowText).takeWhile List.isEmpty).length

/-- The number of columns that are left out on the left. -/
def indent (g : Grid) : ℕ := commonIndent (trimRows (g.symbols.map rowText))

/-- A text stands in a row from a place on, and neither of its ends is lost where blanks at the ends of
the row are left out. -/
structure Shows (g : Grid) (text : List Char) (x y : ℕ) : Prop where
  cells : ∀ (i : ℕ) (h : i < text.length), (g.cellAt (x + i) y).symbol = text[i]
  left : ∃ j ≤ x, g.Inked j y
  right : ∃ k, x + text.length ≤ k + 1 ∧ g.Inked k y

/-- The characters of a row are those that the grid shows in its places. -/
theorem getElem_symbols {row : List Char} (h : g.symbols[y]? = some row) (hx : x < row.length) :
    row[x] = (g.cellAt x y).symbol := by
  rw [symbols, Array.getElem?_toList, Array.getElem?_map] at h
  obtain ⟨cells, hcells, rfl⟩ := Option.map_eq_some_iff.1 h
  rw [Array.length_toList, Array.size_map] at hx
  simp [cellAt, cell?, hcells, hx]

/-- Where something can be seen there is a row. -/
theorem Inked.row (h : g.Inked x y) : ∃ row, g.symbols[y]? = some row ∧ x < row.length := by
  have hblank : g.cellAt x y ≠ .blank := fun hcell => by
    rw [Inked, hcell] at h
    exact h.2 rfl
  rw [cellAt, cell?] at hblank
  cases hrow : g.rows[y]? with
  | none =>
    rw [hrow] at hblank
    exact absurd rfl hblank
  | some row =>
    rw [hrow, Option.bind_some] at hblank
    refine ⟨(row.map (·.symbol)).toList, by simp [symbols, hrow], ?_⟩
    rw [Array.length_toList, Array.size_map]
    refine Nat.lt_of_not_le fun hle => hblank ?_
    rw [Array.getElem?_eq_none hle, Option.getD_none]

theorem Sound.showable (hg : g.Sound) {row : List Char} (hrow : row ∈ g.symbols) :
    ∀ c ∈ row, Showable c := by
  intro c hc
  obtain ⟨y, hy, rfl⟩ := List.getElem_of_mem hrow
  obtain ⟨x, hx, rfl⟩ := List.getElem_of_mem hc
  rw [getElem_symbols (List.getElem?_eq_getElem hy) hx]
  exact hg.shown x y

/-- The lines of a picture are its rows, unless there is a line feed in one. -/
theorem splitLines_display (hfeed : ∀ row ∈ g.symbols, '\n' ∉ row)
    (h : trimRows (g.symbols.map rowText) ≠ []) :
    splitLines g.display = (trimRows (g.symbols.map rowText)).map (List.drop g.indent) := by
  refine splitLines_joinWith (List.map_eq_nil_iff.not.2 h) (List.forall_mem_map.2 fun line hline => ?_)
  intro hmem
  obtain ⟨row, hrow, rfl⟩ := List.mem_map.1 (mem_trimRows hline)
  exact hfeed row hrow (mem_rowText (List.mem_of_mem_drop hmem)).1

theorem Sound.splitLines_display (hg : g.Sound) (h : trimRows (g.symbols.map rowText) ≠ []) :
    splitLines g.display = (trimRows (g.symbols.map rowText)).map (List.drop g.indent) := by
  refine Grid.splitLines_display (fun row hrow hfeed => ?_) h
  exact absurd (hg.showable hrow _ hfeed) (by decide)

/-- The text of a row shows what the grid shows in its places. -/
theorem Sound.getElem_rowText (hg : g.Sound) {row : List Char} (hrow : g.symbols[y]? = some row)
    (hx : x < (rowText row).length) : (rowText row)[x] = (g.cellAt x y).symbol := by
  obtain ⟨blanks, happend, -⟩ := rowText_append (hg.showable (List.mem_of_getElem? hrow))
  have hfront : rowText row <+: row := ⟨blanks, happend.symm⟩
  rw [hfront.getElem hx, getElem_symbols hrow]

/-- What can be seen in a row is in its text. -/
theorem Sound.lt_rowText (hg : g.Sound) {row : List Char} (hrow : g.symbols[y]? = some row)
    (hx : x < row.length) (h : g.Inked x y) : x < (rowText row).length := by
  obtain ⟨blanks, happend, hblanks⟩ := rowText_append (hg.showable (List.mem_of_getElem? hrow))
  refine Nat.lt_of_not_le fun hle => ?_
  have hmem : row[x] ∈ blanks := by
    have hlength := congrArg List.length happend
    rw [List.length_append] at hlength
    rw [List.getElem_of_eq happend hx, List.getElem_append_right hle]
    exact List.getElem_mem _
  -- a blank that can be shown is a space, which cannot be seen
  rw [getElem_symbols hrow] at hmem
  exact h.2 (h.1.2 (hblanks _ hmem))

/-- **What a grid shows between two places where something can be seen is kept in one line.** -/
theorem Sound.display_shows (hg : g.Sound) (h : g.Shows text x y) :
    g.top ≤ y ∧ g.indent ≤ x ∧ ∃ front back,
      (splitLines g.display)[y - g.top]? = some (front ++ text ++ back) ∧
        front.length = x - g.indent := by
  obtain ⟨j, hj, hleft⟩ := h.left
  obtain ⟨k, hk, hright⟩ := h.right
  obtain ⟨row, hrow, hkrow⟩ := hright.row
  obtain ⟨row', hrow', hjrow⟩ := hleft.row
  obtain rfl := Option.some.inj (hrow'.symm.trans hrow)
  have hklt := hg.lt_rowText hrow hkrow hright
  have hjlt := hg.lt_rowText hrow hjrow hleft
  have hlength : x + text.length ≤ (rowText row').length := by omega
  obtain ⟨front, back, hline, rfl⟩ := eq_append_of_getElem hlength fun i hi => by
    rw [hg.getElem_rowText hrow, h.cells i hi]
  have hne : rowText row' ≠ [] := List.ne_nil_of_length_pos (Nat.zero_lt_of_lt hklt)
  have hshown : (g.symbols.map rowText)[y]? = some (rowText row') := by
    rw [List.getElem?_map, hrow, Option.map_some]
  obtain ⟨htop, htrim⟩ := getElem?_trimRows hshown hne
  have hindent : g.indent ≤ j := commonIndent_le (List.mem_of_getElem? htrim) hjlt
    (by rw [hg.getElem_rowText hrow]; exact hleft.2)
  refine ⟨htop, hindent.trans hj, front.drop g.indent, back, ?_, List.length_drop⟩
  rw [hg.splitLines_display (List.ne_nil_of_mem (List.mem_of_getElem? htrim)), List.getElem?_map, top,
    htrim, Option.map_some, hline, List.append_assoc,
    List.drop_append_of_le_length (hindent.trans hj), List.append_assoc]

end Grid

end Canvas

end RegexDiagram
