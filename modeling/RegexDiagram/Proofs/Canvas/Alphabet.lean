import RegexDiagram.Diagram
import RegexDiagram.Proofs.Canvas.Display
import RegexDiagram.Proofs.Canvas.Painting
import RegexDiagram.Proofs.Text.Terminal

/-!
# The alphabet of a drawing in cells

A drawing in cells is written with the blanks, glyphs and marks of its character set, and with the
characters of its texts that fill a column (`symbolsIn_paint`). To what the grid shows, its display adds
line feeds only (`SymbolsIn.display`). So a drawing in ASCII is printable, except for what the pattern itself
has (`textDiagram_ascii`).
-/

namespace RegexDiagram

open Pattern

namespace Canvas

variable {set : CharacterSet} {S : Char → Prop}

/-- A class that has all characters a drawing in cells is made of besides those of its texts. -/
structure HasMarks (set : CharacterSet) (S : Char → Prop) : Prop where
  blank : S ' '
  continuation : S continuation
  glyph : ∀ sides stroke, S (glyph set sides stroke)
  arrow : ∀ direction, S (arrow set direction)
  terminal : S (terminal set)

namespace Grid

/-- All cells of the grid show characters of a class. -/
def SymbolsIn (S : Char → Prop) (g : Grid) : Prop := ∀ row ∈ g.rows, ∀ cell ∈ row, S cell.symbol

namespace SymbolsIn

variable (hS : HasMarks set S) {g : Grid}

/-! ## Cells -/

section Cells

include hS

theorem blankCells (n : ℕ) : ∀ cell ∈ Array.replicate n Cell.blank, S cell.symbol := by
  intro cell hcell
  obtain ⟨-, rfl⟩ := Array.mem_replicate.1 hcell
  exact hS.blank

theorem blank (width height : ℕ) : (blank width height).SymbolsIn S := by
  intro row hrow
  obtain ⟨-, rfl⟩ := Array.mem_replicate.1 hrow
  exact blankCells hS _

theorem widen (h : g.SymbolsIn S) (width : ℕ) : (g.widen width).SymbolsIn S := by
  unfold Grid.widen
  split
  · intro row hrow cell hcell
    obtain ⟨old, hold, rfl⟩ := Array.mem_map.1 hrow
    obtain hcell | hcell := Array.mem_append.1 hcell
    · exact h old hold cell hcell
    · exact blankCells hS _ cell hcell
  · exact h

theorem heighten (h : g.SymbolsIn S) (height : ℕ) : (g.heighten height).SymbolsIn S := by
  unfold Grid.heighten
  split
  · intro row hrow
    obtain hrow | hrow := Array.mem_append.1 hrow
    · exact h row hrow
    · obtain ⟨-, rfl⟩ := Array.mem_replicate.1 hrow
      exact blankCells hS _
  · exact h

theorem grow (h : g.SymbolsIn S) (width height : ℕ) : (g.grow width height).SymbolsIn S :=
  heighten hS (widen hS h width) height

end Cells

/-- What holds of all elements still holds once one of them is changed. -/
theorem forall_modify {β : Type} {P : β → Prop} {f : β → β} (hf : ∀ b, P b → P (f b)) {bs : Array β}
    (h : ∀ b ∈ bs, P b) (i : ℕ) : ∀ b ∈ bs.modify i f, P b := by
  intro b hb
  obtain ⟨j, hj, rfl⟩ := Array.getElem_of_mem hb
  rw [Array.getElem_modify]
  split
  · exact hf _ (h _ (Array.getElem_mem _))
  · exact h _ (Array.getElem_mem _)

theorem alter {f : Cell → Cell} (hf : ∀ cell : Cell, S cell.symbol → S (f cell).symbol)
    (h : g.SymbolsIn S) (x y : ℕ) : (g.alter x y f).SymbolsIn S :=
  forall_modify (fun _ hrow => forall_modify hf hrow x) h y

include hS

theorem setChar (h : g.SymbolsIn S) (x y : ℕ) {c : Char} (hc : S c) : (g.setChar x y c).SymbolsIn S :=
  alter (fun _ _ => hc) (grow hS h _ _) x y

theorem merge {cell : Cell} (h : S cell.symbol) (sides : ℕ) (stroke : Stroke) :
    S (Cell.merge set cell sides stroke).symbol := by
  unfold Cell.merge
  split_ifs
  · exact hS.glyph _ _
  · exact hS.glyph _ _
  · exact h

theorem mergeLine (h : g.SymbolsIn S) (x y sides : ℕ) (stroke : Stroke) :
    (g.mergeLine set x y sides stroke).SymbolsIn S := by
  unfold Grid.mergeLine
  split
  · exact h
  · exact alter (fun _ hcell => merge hS hcell sides stroke) (grow hS h _ _) x y

/-! ## Lines and texts -/

theorem lined {g' : Grid} (h : g.SymbolsIn S) (hlines : Lined set g g') : g'.SymbolsIn S := by
  induction hlines with
  | refl => exact h
  | tail _ hstep ih =>
    obtain ⟨x, y, sides, stroke, rfl⟩ := hstep
    exact mergeLine hS ih x y sides stroke

theorem setWide [TerminalWidths] (h : g.SymbolsIn S) (x y : ℕ) {c : Char} (hc : S c) :
    (g.setWide x y c).SymbolsIn S :=
  List.foldlRecOn _ _ (setChar hS h x y hc) fun _ hg k _ => setChar hS hg k y hS.continuation

/-- A text is drawn in those of its characters that fill a column. -/
theorem drawText [TerminalWidths] (h : g.SymbolsIn S) (x y : ℕ) {text : List Char}
    (htext : ∀ c ∈ text, charColumns c ≠ 0 → S c) : (g.drawText x y text).SymbolsIn S := by
  induction text generalizing g x with
  | nil => exact h
  | cons c rest ih =>
    obtain ⟨hc, hrest⟩ := List.forall_mem_cons.1 htext
    rw [Grid.drawText]
    split_ifs with hcolumns
    · exact ih h x hrest
    · exact ih (setWide hS h x y (hc hcolumns)) _ hrest

omit hS

/-! ## Display -/

/-- What is displayed of a grid are its symbols, without second cells, and line feeds. -/
theorem display (h : g.SymbolsIn S) : AllIn (fun c => c = '\n' ∨ S c ∧ c ≠ continuation) g.display := by
  refine joinWith_allIn (List.forall_mem_singleton.2 (.inl rfl)) (List.forall_mem_map.2 ?_)
  intro line hline c hc
  obtain ⟨symbols, hsymbols, rfl⟩ := List.mem_map.1 (mem_trimRows hline)
  obtain ⟨hc, hcontinuation⟩ := mem_rowText (List.mem_of_mem_drop hc)
  obtain ⟨row, hrow, rfl⟩ := Array.mem_map.1 (Array.mem_toList_iff.1 hsymbols)
  obtain ⟨cell, hcell, rfl⟩ := Array.mem_map.1 (Array.mem_toList_iff.1 hc)
  exact .inr ⟨h row hrow cell hcell, hcontinuation⟩

end SymbolsIn

end Grid

/-! ## Drawings -/

section Drawings

open Grid

variable {α : Type} [Scalar α] {g : Grid}

/-- The marks of a shape that has no text, or whose text is in the class where it fills columns. -/
theorem symbolsIn_paintShapeMarks [TerminalWidths] (hS : HasMarks set S) (h : g.SymbolsIn S)
    (corner : Point α)
    {s : Shape α} (htext : ∀ text ∈ s.text?, ∀ c ∈ text, charColumns c ≠ 0 → S c) :
    (paintShapeMarks set corner g s).SymbolsIn S := by
  cases s with
  | text origin extent words className => exact .drawText hS h _ _ (htext words rfl)
  | arrow tip direction => exact .setChar hS h _ _ (hS.arrow direction)
  | circle center radius className => exact .setChar hS h _ _ hS.terminal
  | _ => exact h

/-- **What a drawing in cells is written with**: blanks, glyphs and marks, and the characters of its texts that
fill a column. -/
theorem symbolsIn_paint [TerminalWidths] (hS : HasMarks set S) (d : Drawing α)
    (htexts : ∀ text ∈ d.fragment.texts, ∀ c ∈ text, charColumns c ≠ 0 → S c) :
    (paint set d).SymbolsIn S := by
  rw [paint_eq, draw]
  have hlines := SymbolsIn.lined hS (.blank hS _ _) (lined_drawLines set (d.fragment.shapesAt .origin)
    (blank (Scalar.cell d.width) (Scalar.cell d.height)))
  refine List.foldlRecOn _ _ hlines fun g hg s hs => symbolsIn_paintShapeMarks hS hg s.1 fun text htext => ?_
  refine htexts text ?_
  rw [Fragment.texts_eq_shapesAt (.origin : Point α)]
  exact List.mem_filterMap.2 ⟨s, hs, htext⟩

end Drawings

/-! ## Drawings in ASCII -/

/-- The glyphs and marks of ASCII are printable. -/
theorem hasMarks_ascii {S : Char → Prop} (hprintable : HasPrintable S) (hcontinuation : S continuation) :
    HasMarks .ascii S where
  blank := hprintable _ (by decide)
  continuation := hcontinuation
  glyph sides stroke := by
    refine hprintable _ ?_
    rw [glyph, asciiGlyph]
    split_ifs <;> decide
  arrow direction := hprintable _ (by cases direction <;> decide)
  terminal := hprintable _ (by decide)

end Canvas

/-- A character of ASCII that is no control character is printable. -/
theorem printable_of_isControl {c : Char} (hascii : c.toNat < 0x80) (h : isControl c = false) :
    Printable c := by
  simp only [isControl, Bool.or_eq_false_iff, Bool.and_eq_false_iff, decide_eq_false_iff_not] at h
  rw [Printable]
  omega

/-- **A drawing in ASCII adds nothing but ASCII.** If control characters have no width, every character of the
text diagram of a pattern is a line feed, a printable character, or a character of the pattern beyond ASCII
that is no control character. So if the pattern is in ASCII, its control characters included, the diagram
is printable. -/
theorem textDiagram_ascii [TerminalWidths] [ControlWidths] (input : List Char) :
    (∀ c ∈ textDiagram input .ascii,
      c = '\n' ∨ Printable c ∨ (c ∈ input ∧ 0x80 ≤ c.toNat ∧ isControl c = false)) ∧
    ((∀ c ∈ input, c.toNat < 0x80) → ∀ c ∈ textDiagram input .ascii, c = '\n' ∨ Printable c) := by
  let Shown (c : Char) : Prop := Printable c ∨ (c ∈ input ∧ 0x80 ≤ c.toNat ∧ isControl c = false)
  have hK : HasPrintable fun c => Printable c ∨ c ∈ input := fun _ h => .inl h
  have htexts := Root.texts_allIn
    ((CharacterSet.ascii.spacing : Spacing Float).renders_ascii rfl hK) .cells
    (read_allIn hK fun _ hc => .inr hc) (read_flags input)
  have hmarks : Canvas.HasMarks .ascii fun c => c = Canvas.continuation ∨ Shown c :=
    Canvas.hasMarks_ascii (fun _ hc => .inr (.inl hc)) (.inl rfl)
  have hsymbols := Canvas.symbolsIn_paint hmarks
    ((read input).root.drawing (CharacterSet.ascii.spacing : Spacing Float) .cells)
    fun text htext c hc hcolumns => by
      have hcontrol := isControl_of_charColumns hcolumns
      obtain hprintable | hmem := htexts text htext c hc
      · exact .inr (.inl hprintable)
      · obtain hlt | hge := Nat.lt_or_ge c.toNat 0x80
        · exact .inr (.inl (printable_of_isControl hlt hcontrol))
        · exact .inr (.inr ⟨hmem, hge, hcontrol⟩)
  have hshown : ∀ c ∈ textDiagram input .ascii, c = '\n' ∨ Shown c := fun c hc =>
    (hsymbols.display c hc).imp_right fun h => h.1.resolve_left h.2
  refine ⟨hshown, fun hinput c hc => (hshown c hc).imp_right fun h => h.resolve_right ?_⟩
  rintro ⟨hmem, hge, -⟩
  exact absurd (hinput c hmem) (Nat.not_lt_of_le hge)

/-- The bell in the pattern is drawn in no column of the diagram. -/
theorem textDiagram_ascii_bell : (∀ c, isControl c = true → charWidth? c = none) ∧
    ∀ c ∈ textDiagram ['\\', 'p', '\x7b', '\x07', '\x7d'] .ascii, c = '\n' ∨ Printable c := by
  refine ⟨fun _ => ControlWidths.charWidth?_control, ?_⟩
  have hinput : ['\\', 'p', '\x7b', '\x07', '\x7d'].all (·.toNat < 0x80) = true := by decide
  exact (textDiagram_ascii _).2 fun c hc => of_decide_eq_true (List.all_eq_true.1 hinput c hc)

end RegexDiagram
