import RegexDiagram.Diagram
import RegexDiagram.Proofs.Canvas.Display
import RegexDiagram.Proofs.Canvas.Painting

/-!
# Texts on the canvas

In a drawing in cells each text stands in the cells of its area, and in its row there is something to be
seen at both of its ends, or beside them: the ends themselves, or the sides of the label around it. So no
row is cut off inside a text when it is shown (`Root.paint_shows`).
-/

namespace RegexDiagram

open Pattern

/-! ## Distances in cells -/

namespace CharacterSet

theorem strokeInset_spacing (set : CharacterSet) : (set.spacing : Spacing ℚ).strokeInset = 1 := by
  cases set <;> exact rational_one

theorem labelPadding_spacing (set : CharacterSet) :
    (set.spacing : Spacing ℚ).labelPaddingX = 2 ∧ (set.spacing : Spacing ℚ).labelPaddingY = 1 := by
  cases set <;> exact ⟨rational_numeral 2, rational_one⟩

end CharacterSet

namespace Canvas

open Grid

variable (set : CharacterSet) {g : Grid} {shapes : List (Point ℚ × Shape ℚ)}
  {corner origin : Point ℚ} {extent : Extent ℚ} {words : List Char} {className : String}

/-- A text stands in the cells of its area. -/
theorem symbol_draw [TerminalWidths] [PlainWidths] (hg : g.Sound) (h : Typeset shapes)
    (hs : (corner, .text origin extent words className) ∈ shapes) {i : ℕ} (hi : i < words.length) :
    ((draw set shapes g).cellAt (Scalar.cell (corner.x + origin.x) + i)
      (Scalar.cell (corner.y + origin.y))).symbol = words[i] := by
  obtain ⟨hplain, rfl⟩ := h.monospaced _ hs
  have hsound := (lined_drawLines set shapes g).sound hg
  obtain ⟨g', hg', hown⟩ := cellAt_drawMarks_of_mem set hsound h hs (.head _)
  have hholds : (Rect.strip ((⟨origin.x, origin.y, words.length, 1⟩ : Rect ℚ).moved corner)).Holds
      (Scalar.cell (corner.x + origin.x) + i) (Scalar.cell (corner.y + origin.y)) := by
    refine ⟨rfl, Nat.le_add_right _ _, Nat.add_lt_add_left ?_ _⟩
    rwa [Rect.strip, Rect.moved, cell_natCast]
  rw [draw, (hown _ _ hholds).2]
  exact hg'.cellAt_drawText hplain _ _ hi

/-- The ends of a blunt text can be seen, so it is shown. -/
theorem shows_blunt [TerminalWidths] [PlainWidths] (hg : g.Sound) (h : Typeset shapes)
    (hs : (corner, .text origin extent words className) ∈ shapes) (hblunt : Blunt words) :
    (draw set shapes g).Shows words (Scalar.cell (corner.x + origin.x))
      (Scalar.cell (corner.y + origin.y)) := by
  have hcells {i : ℕ} (hi : i < words.length) := symbol_draw set hg h hs hi
  have hseen {i : ℕ} (hi : i < words.length) (hblank : isBlank words[i] = false) :
      (draw set shapes g).Inked (Scalar.cell (corner.x + origin.x) + i)
        (Scalar.cell (corner.y + origin.y)) := by
    rw [Inked, hcells hi]
    refine ⟨showable_of_plain ((h.monospaced _ hs).1 _ (List.getElem_mem hi)), fun hspace => ?_⟩
    rw [hspace] at hblank
    exact absurd hblank (by decide)
  refine ⟨fun i hi => hcells hi, ?_, ?_⟩
  · obtain ⟨c, rest, rfl, hc⟩ := hblunt.begins
    exact ⟨_, le_rfl, hseen (Nat.succ_pos _) hc⟩
  · obtain ⟨front, c, rfl, hc⟩ := hblunt.ends
    have hlast : front.length < (front ++ [c]).length := by simp
    refine ⟨_, ?_, hseen hlast (by simpa using hc)⟩
    rw [List.length_append, List.length_singleton, Nat.add_assoc]

section Labels

variable {width radius : ℚ} {dashed : Bool}

theorem areas_label (corner : Point ℚ) (width radius : ℚ) (dashed : Bool) :
    areas (corner, .rect ⟨0, 0, width, 3⟩ radius dashed "label") =
      [⟨corner.x, corner.y + 1, 1, 1⟩, ⟨corner.x + width - 1, corner.y + 1, 1, 1⟩] := by
  simp [areas, Shape.room, Rect.moved, add_sub_assoc]

/-- Both sides of a frame of three rows can be seen in the middle row. -/
theorem inked_frame (hg : g.Sound) (htop : 0 ≤ corner.y + 1) :
    (paintShapeLines set corner g (.rect ⟨0, 0, width, 3⟩ radius dashed className)).Inked
        (Scalar.cell corner.x) (Scalar.cell (corner.y + 1)) ∧
      (paintShapeLines set corner g (.rect ⟨0, 0, width, 3⟩ radius dashed className)).Inked
        (Scalar.cell (corner.x + width - 1)) (Scalar.cell (corner.y + 1)) := by
  have habove : Scalar.cell corner.y ≤ Scalar.cell (corner.y + 1) := cell_mono (by linarith)
  have hbelow : Scalar.cell (corner.y + 3 - 1) = Scalar.cell (corner.y + 1) + 1 := by
    rw [← cell_add_natCast htop, Nat.cast_one]
    congr 1
    ring
  simp only [paintShapeLines, Rect.right, Rect.bottom, rational_one, add_zero, zero_add, hbelow]
  exact inked_drawRect hg (Nat.lt_succ_of_le habove) habove (Nat.le_succ _) _ _ _

/-- The sides of a label can be seen in the row of its text. -/
theorem inked_label [TerminalWidths] [PlainWidths] (hg : g.Sound) (h : Typeset shapes)
    (hs : (corner, .rect ⟨0, 0, width, 3⟩ radius dashed "label") ∈ shapes) :
    (draw set shapes g).Inked (Scalar.cell corner.x) (Scalar.cell (corner.y + 1)) ∧
      (draw set shapes g).Inked (Scalar.cell (corner.x + width - 1)) (Scalar.cell (corner.y + 1)) := by
  have hleft : (⟨corner.x, corner.y + 1, 1, 1⟩ : Rect ℚ) ∈
      areas (corner, .rect ⟨0, 0, width, 3⟩ radius dashed "label") := areas_label .. ▸ .head _
  have hright : (⟨corner.x + width - 1, corner.y + 1, 1, 1⟩ : Rect ℚ) ∈
      areas (corner, .rect ⟨0, 0, width, 3⟩ radius dashed "label") := areas_label .. ▸ .tail _ (.head _)
  have htop := (h.cellular _ hs _ hleft).top
  exact ⟨inked_draw set hg h hs hleft (holds_place.2 ⟨rfl, rfl⟩) fun _ hg' =>
      (inked_frame set hg' htop).1,
    inked_draw set hg h hs hright (holds_place.2 ⟨rfl, rfl⟩) fun _ hg' => (inked_frame set hg' htop).2⟩

/-- The text of a label stands between the sides of its frame, so it is shown. -/
theorem shows_framed [TerminalWidths] [PlainWidths] (hg : g.Sound) (h : Typeset shapes)
    (hs : (corner, .text ⟨2, 1⟩ extent words className) ∈ shapes)
    (hframe : (corner, .rect ⟨0, 0, extent.width + 4, 3⟩ radius dashed "label") ∈ shapes) :
    (draw set shapes g).Shows words (Scalar.cell (corner.x + 2)) (Scalar.cell (corner.y + 1)) := by
  have hcells {i : ℕ} (hi : i < words.length) := symbol_draw set hg h hs hi
  obtain ⟨-, rfl⟩ := h.monospaced _ hs
  have hleft : 0 ≤ corner.x + 2 := (h.cellular _ hs _ (.head _)).left
  have hright : Scalar.cell (corner.x + (words.length + 4) - 1) =
      Scalar.cell (corner.x + 2) + (words.length + 1) := by
    rw [← cell_add_natCast hleft, Nat.cast_add, Nat.cast_one]
    congr 1
    ring
  obtain ⟨hpost, hpost'⟩ := inked_label set hg h hframe
  refine ⟨fun i hi => hcells hi, ⟨_, cell_mono (by linarith), hpost⟩, ⟨_, ?_, hpost'⟩⟩
  rw [hright]
  exact Nat.add_le_add_left (Nat.le_add_right _ 2) _

end Labels

end Canvas

/-! ## Drawings of printable patterns -/

namespace Pattern.Root

variable [TerminalWidths] [PlainWidths] {root : Root} (set : CharacterSet)
  (hletters : AllPrintable (root.alternation.views.flatMap View.letters))
  (hflags : ∀ d ∈ root.flags, d.isAlpha = true)

include hletters hflags

theorem monospaced : ∀ s ∈ (root.drawing (set.spacing : Spacing ℚ) .cells).fragment.shapesAt .origin,
    s.2.Monospaced := by
  rintro ⟨corner, s⟩ hs
  cases s with
  | text origin extent words className =>
    have hplain : PlainText words := by
      refine root.texts_plain (set.spacing : Spacing ℚ) .cells hletters hflags _ ?_
      rw [Fragment.texts_eq_shapesAt (.origin : Point ℚ)]
      exact List.mem_filterMap.2 ⟨_, hs, rfl⟩
    obtain ⟨p, hp, -, hmem⟩ := Fragment.mem_shapesAt.1 hs
    have hextent :=
      (held (set.spacing : Spacing ℚ) .cells hflags _ (Fragment.mem_descendants hp) _ hmem).1
    exact ⟨hplain, hextent.trans (extent_plain hplain)⟩
  | _ => trivial

/-- In a drawing in cells every text has cells of its own. -/
theorem typeset :
    Typeset ((root.drawing (set.spacing : Spacing ℚ) .cells).fragment.shapesAt .origin) := by
  have hmonospaced := monospaced set hletters hflags
  obtain ⟨hapart, hwithin⟩ := Fragment.rooms_apart
    (root.orderly set.ample_spacing Measure.nonNegative_cells) .origin
  rw [set.strokeInset_spacing, Fragment.rooms_eq_areas, root.area_drawing] at hwithin
  rw [set.strokeInset_spacing, Fragment.rooms_eq_areas, List.pairwise_flatMap] at hapart
  refine ⟨hmonospaced, fun s hs r hr => ?_, hapart.2⟩
  have hcanvas := hwithin r (List.mem_flatMap.2 ⟨s, hs, hr⟩)
  obtain ⟨hwidth, hheight⟩ := size_areas (hmonospaced s hs) r hr
  exact ⟨hcanvas.left, hcanvas.top, hwidth, hheight⟩

theorem sound_paint : (Canvas.paint set (root.drawing (set.spacing : Spacing ℚ) .cells)).Sound := by
  rw [Canvas.paint_eq]
  exact Canvas.sound_draw set (Canvas.Grid.sound_blank _ _) (monospaced set hletters hflags)

/-- Every text of a drawing in cells is shown where it lies. -/
theorem paint_shows {corner origin : Point ℚ} {extent : Extent ℚ} {words : List Char}
    {className : String} (hs : (corner, .text origin extent words className) ∈
      (root.drawing (set.spacing : Spacing ℚ) .cells).fragment.shapesAt .origin) :
    (Canvas.paint set (root.drawing (set.spacing : Spacing ℚ) .cells)).Shows words
      (Scalar.cell (corner.x + origin.x)) (Scalar.cell (corner.y + origin.y)) := by
  have hsound := Canvas.Grid.sound_blank
    (Scalar.cell (root.drawing (set.spacing : Spacing ℚ) .cells).width)
    (Scalar.cell (root.drawing (set.spacing : Spacing ℚ) .cells).height)
  have htypeset := typeset set hletters hflags
  obtain ⟨p, hp, rfl, hmem⟩ := Fragment.mem_shapesAt.1 hs
  obtain ⟨-, hheld⟩ :=
    held (set.spacing : Spacing ℚ) .cells hflags _ (Fragment.mem_descendants hp) _ hmem
  rw [Canvas.paint_eq]
  obtain hblunt | ⟨rfl, radius, dashed, hframe⟩ := hheld
  · exact Canvas.shows_blunt set hsound htypeset hs hblunt
  · obtain ⟨hx, hy⟩ := set.labelPadding_spacing
    obtain ⟨-, rfl⟩ := monospaced set hletters hflags _ hs
    have hwidth : (words.length : ℚ) + 4 = words.length + 2 * 2 := by norm_num
    have hrows : (3 : ℚ) = 1 + 2 * 1 := by norm_num
    rw [hx, hy] at hs ⊢
    rw [hx, hy, rational_zero, rational_numeral] at hframe
    have hlabel : (p.offset, .rect ⟨0, 0, words.length + 4, 3⟩ radius dashed "label") ∈
        (root.drawing (set.spacing : Spacing ℚ) .cells).fragment.shapesAt .origin := by
      rw [hwidth, hrows]
      exact Fragment.mem_shapesAt.2 ⟨p, hp, rfl, hframe⟩
    exact Canvas.shows_framed set hsound htypeset hs hlabel

end Pattern.Root

end RegexDiagram
