import RegexDiagram.Proofs.Canvas.Strokes
import RegexDiagram.Proofs.Drawing.Lettering
import RegexDiagram.Proofs.Drawing.Separation

/-!
# What is painted where

A drawing in cells is painted shape by shape, first all lines and then all marks
(`paintFragment_eq`). Every mark has a strip of cells of its own, because what the shapes of a drawing
need lies apart (`strip_apart`), so no mark is painted over: each text can be read where it lies, and
the sides of its label, if it has one, can be seen beside it.
-/

namespace RegexDiagram

/-! ## Shapes where they lie -/

section Shapes

variable {α : Type} [Scalar α]

/-- All shapes of a fragment whose corner lies at `origin` and of the fragments in it, each with the
corner of its own fragment. -/
def Fragment.shapesAt (origin : Point α) (f : Fragment α) : List (Point α × Shape α) :=
  (f.placements origin).flatMap fun p => p.fragment.shapes.map (p.offset, ·)

theorem Fragment.mem_shapesAt {origin corner : Point α} {f : Fragment α} {s : Shape α} :
    (corner, s) ∈ f.shapesAt origin ↔
      ∃ p ∈ f.placements origin, p.offset = corner ∧ s ∈ p.fragment.shapes := by
  simp only [shapesAt, List.mem_flatMap, List.mem_map, Prod.mk.injEq]
  constructor
  · rintro ⟨p, hp, t, ht, hcorner, rfl⟩
    exact ⟨p, hp, hcorner, ht⟩
  · rintro ⟨p, hp, hcorner, hs⟩
    exact ⟨p, hp, s, hs, hcorner, rfl⟩

theorem Fragment.mem_descendants {origin : Point α} {f : Fragment α} {p : Placed α}
    (h : p ∈ f.placements origin) : p.fragment ∈ f.descendants :=
  map_placements f origin ▸ List.mem_map_of_mem h

/-- The texts of a fragment are those of its shapes. -/
theorem Fragment.texts_eq_shapesAt (origin : Point α) (f : Fragment α) :
    f.texts = (f.shapesAt origin).filterMap fun s => s.2.text? := by
  rw [texts, shapesAt, ← map_placements f origin, List.flatMap_map, List.filterMap_flatMap]
  simp only [List.filterMap_map]
  rfl

namespace Canvas

variable (paint : Point α → Grid → Shape α → Grid)

mutual

/-- A fragment is painted shape by shape. -/
theorem paintFragment_eq (origin : Point α) (g : Grid) : ∀ f : Fragment α,
    paintFragment paint origin g f = (f.shapesAt origin).foldl (fun g s => paint s.1 g s.2) g
  | ⟨className, box, shapes, children⟩ => by
    rw [paintFragment, paintChildren_eq origin _ children, Fragment.shapesAt, Fragment.placements,
      List.flatMap_cons, List.foldl_append, List.foldl_map]

theorem paintChildren_eq (origin : Point α) (g : Grid) : ∀ children : List (Placed α),
    paintChildren paint origin g children =
      ((childPlacements origin children).flatMap fun p => p.fragment.shapes.map (p.offset, ·)).foldl
        (fun g s => paint s.1 g s.2) g
  | [] => rfl
  | ⟨offset, fragment⟩ :: rest => by
    rw [paintChildren, paintFragment_eq _ _ fragment, paintChildren_eq origin _ rest, childPlacements,
      List.flatMap_append, List.foldl_append]
    rfl

end

end Canvas

end Shapes

/-! ## Strips -/

theorem cell_of_nonneg {x : ℚ} (h : 0 ≤ x) : Scalar.cell x = ⌊x + 1 / 2⌋₊ := by
  rw [rational_cell, max_eq_left h]

theorem cell_add_natCast {x : ℚ} (h : 0 ≤ x) (n : ℕ) : Scalar.cell (x + n) = Scalar.cell x + n := by
  rw [cell_of_nonneg h, cell_of_nonneg (by positivity), add_right_comm, Nat.floor_add_natCast (by positivity)]

theorem cell_natCast (n : ℕ) : Scalar.cell (n : ℚ) = n := by
  have hzero : Scalar.cell (0 : ℚ) = 0 := by
    rw [cell_of_nonneg le_rfl]
    norm_num
  have hadd := cell_add_natCast le_rfl n
  rwa [zero_add, hzero, Nat.zero_add] at hadd

theorem cell_mono {x y : ℚ} (h : x ≤ y) : Scalar.cell x ≤ Scalar.cell y := by
  rw [rational_cell, rational_cell]
  exact Nat.floor_le_floor (by linarith [max_le_max_right 0 h])

/-- Cells side by side in a row. -/
structure Strip where
  x : ℕ
  y : ℕ
  length : ℕ

namespace Strip

def Holds (a : Strip) (x y : ℕ) : Prop := y = a.y ∧ a.x ≤ x ∧ x < a.x + a.length

def Apart (a b : Strip) : Prop := a.y ≠ b.y ∨ a.x + a.length ≤ b.x ∨ b.x + b.length ≤ a.x

theorem Apart.not_holds {a b : Strip} (h : a.Apart b) {x y : ℕ} (ha : a.Holds x y) : ¬ b.Holds x y := by
  unfold Apart Holds at *
  omega

end Strip

namespace Rect

/-- The cells that an area takes. -/
def strip (r : Rect ℚ) : Strip := ⟨Scalar.cell r.x, Scalar.cell r.y, Scalar.cell r.width⟩

/-- The area is one row high and a whole number of cells wide, and does not reach beyond the canvas on
its left and its top. -/
structure Cellular (r : Rect ℚ) : Prop where
  left : 0 ≤ r.x
  top : 0 ≤ r.y
  width : ∃ n : ℕ, r.width = n
  height : r.height = 1

variable {r s : Rect ℚ}

/-- The cells of areas that lie apart are apart. -/
theorem strip_apart (hr : r.Cellular) (hs : s.Cellular) (h : r.Apart s) : r.strip.Apart s.strip := by
  have hbeside {r s : Rect ℚ} (hr : r.Cellular) (h : r.right ≤ s.x) :
      r.strip.x + r.strip.length ≤ s.strip.x := by
    obtain ⟨n, hn⟩ := hr.width
    have hcells := cell_mono h
    rw [Rect.right, hn, cell_add_natCast hr.left] at hcells
    rw [strip, strip, hn, cell_natCast]
    exact hcells
  have habove {r s : Rect ℚ} (hr : r.Cellular) (h : r.bottom ≤ s.y) : r.strip.y < s.strip.y := by
    have hcells := cell_mono h
    have hone : r.y + r.height = r.y + (1 : ℕ) := by rw [hr.height, Nat.cast_one]
    rw [Rect.bottom, hone, cell_add_natCast hr.top] at hcells
    exact hcells
  rcases h with h | h | h | h
  · exact .inr (.inl (hbeside hr h))
  · exact .inr (.inr (hbeside hs h))
  · exact .inl (Nat.ne_of_lt (habove hr h))
  · exact .inl (Nat.ne_of_gt (habove hs h))

end Rect

/-! ## Typeset shapes -/

/-- The areas that a shape needs in a drawing in cells, where it lies. -/
def areas (s : Point ℚ × Shape ℚ) : List (Rect ℚ) := (s.2.room 1).map (·.moved s.1)

theorem Fragment.rooms_eq_areas (origin : Point ℚ) (f : Fragment ℚ) :
    f.rooms 1 origin = (f.shapesAt origin).flatMap areas := by
  rw [rooms, shapesAt, List.flatMap_assoc]
  simp only [room, List.map_flatMap, List.flatMap_map]
  rfl

/-- A text is plain and as large as its characters are in cells. -/
def Shape.Monospaced : Shape ℚ → Prop
  | .text _ extent words _ => PlainText words ∧ extent = ⟨words.length, 1, 0⟩
  | _ => True

/-- What a shape needs is one row high and a whole number of cells wide. -/
theorem size_areas {s : Point ℚ × Shape ℚ} (h : s.2.Monospaced) :
    ∀ r ∈ areas s, (∃ n : ℕ, r.width = n) ∧ r.height = 1 := by
  have hsquare {a b : ℚ} : (∃ n : ℕ, (⟨a, b, 1, 1⟩ : Rect ℚ).width = n) ∧
      (⟨a, b, 1, 1⟩ : Rect ℚ).height = 1 := ⟨⟨1, Nat.cast_one.symm⟩, rfl⟩
  obtain ⟨corner, s⟩ := s
  refine List.forall_mem_map.2 ?_
  cases s with
  | text origin extent words className =>
    obtain ⟨-, rfl⟩ := h
    exact List.forall_mem_singleton.2 ⟨⟨words.length, rfl⟩, rfl⟩
  | arrow tip direction => exact List.forall_mem_singleton.2 hsquare
  | circle center radius className => exact List.forall_mem_singleton.2 hsquare
  | rect area radius dashed className =>
    simp only [Shape.room]
    split
    · exact List.forall_mem_cons.2 ⟨hsquare, List.forall_mem_singleton.2 hsquare⟩
    · exact fun r hr => absurd hr List.not_mem_nil
  | path segments className => exact fun r hr => absurd hr List.not_mem_nil

/-- Shapes whose texts and other marks have cells of their own. -/
structure Typeset (shapes : List (Point ℚ × Shape ℚ)) : Prop where
  monospaced : ∀ s ∈ shapes, s.2.Monospaced
  cellular : ∀ s ∈ shapes, ∀ r ∈ areas s, r.Cellular
  apart : shapes.Pairwise fun s t => ∀ r ∈ areas s, ∀ q ∈ areas t, r.Apart q

theorem holds_text {corner origin : Point ℚ} {words : List Char} {className : String} {x y : ℕ} :
    (∀ r ∈ areas (corner, .text origin ⟨words.length, 1, 0⟩ words className), ¬ r.strip.Holds x y) ↔
      ¬ (y = Scalar.cell (corner.y + origin.y) ∧ Scalar.cell (corner.x + origin.x) ≤ x ∧
        x < Scalar.cell (corner.x + origin.x) + words.length) := by
  rw [areas, Shape.room, List.map_singleton, List.forall_mem_singleton, Rect.strip, Strip.Holds,
    Rect.moved, cell_natCast]

theorem holds_place {a b : ℚ} {x y : ℕ} :
    (Rect.strip ⟨a, b, 1, 1⟩).Holds x y ↔ x = Scalar.cell a ∧ y = Scalar.cell b := by
  have hone := cell_natCast 1
  rw [Nat.cast_one] at hone
  simp only [Rect.strip, Strip.Holds, hone]
  omega

namespace Canvas

open Grid

variable (set : CharacterSet) {g : Grid} {shapes : List (Point ℚ × Shape ℚ)} {s : Point ℚ × Shape ℚ}

/-! ## Marks -/

section Marks

variable [TerminalWidths]

theorem sound_paintShapeMarks [PlainWidths] (hg : g.Sound) (hs : s.2.Monospaced) :
    (paintShapeMarks set s.1 g s.2).Sound := by
  obtain ⟨corner, s⟩ := s
  cases s with
  | text origin extent words className => exact hg.drawText hs.1 _ _
  | arrow tip direction => exact hg.setChar _ _ (arrow_showable set direction)
  | circle center radius className => exact hg.setChar _ _ (terminal_showable set)
  | _ => exact hg

/-- The marks of a shape are drawn in the cells that it needs. -/
theorem cellAt_paintShapeMarks [PlainWidths] (hg : g.Sound) (hs : s.2.Monospaced) {x y : ℕ}
    (hout : ∀ r ∈ areas s, ¬ r.strip.Holds x y) :
    (paintShapeMarks set s.1 g s.2).cellAt x y = g.cellAt x y := by
  obtain ⟨corner, s⟩ := s
  have hplace (p : Point ℚ) (c : Char) (hp : ∀ r ∈ [(⟨p.x, p.y, 1, 1⟩ : Rect ℚ).moved corner],
      ¬ r.strip.Holds x y) : (g.setChar (Scalar.cell (corner.x + p.x)) (Scalar.cell (corner.y + p.y))
        c).cellAt x y = g.cellAt x y := by
    have hfree := hp _ (.head _)
    rw [Rect.moved, holds_place] at hfree
    rw [hg.cellAt_setChar, if_neg hfree]
  cases s with
  | text origin extent words className =>
    obtain ⟨hplain, rfl⟩ := hs
    exact hg.cellAt_drawText_of_ne hplain _ _ (holds_text.1 hout)
  | arrow tip direction => exact hplace tip _ hout
  | circle center radius className => exact hplace center _ hout
  | _ => rfl

/-- The marks of shapes, one after the other. -/
def drawMarks {α : Type} [Scalar α] (shapes : List (Point α × Shape α)) (g : Grid) : Grid :=
  shapes.foldl (fun g s => paintShapeMarks set s.1 g s.2) g

theorem sound_drawMarks [PlainWidths] (hg : g.Sound) (h : ∀ s ∈ shapes, s.2.Monospaced) :
    (drawMarks set shapes g).Sound := by
  induction shapes generalizing g with
  | nil => exact hg
  | cons s rest ih =>
    obtain ⟨hs, hrest⟩ := List.forall_mem_cons.1 h
    exact ih (sound_paintShapeMarks set hg hs) hrest

theorem cellAt_drawMarks [PlainWidths] (hg : g.Sound) (h : ∀ s ∈ shapes, s.2.Monospaced) {x y : ℕ}
    (hout : ∀ s ∈ shapes, ∀ r ∈ areas s, ¬ r.strip.Holds x y) :
    (drawMarks set shapes g).cellAt x y = g.cellAt x y := by
  induction shapes generalizing g with
  | nil => rfl
  | cons s rest ih =>
    obtain ⟨hs, hrest⟩ := List.forall_mem_cons.1 h
    obtain ⟨hown, hmore⟩ := List.forall_mem_cons.1 hout
    exact (ih (sound_paintShapeMarks set hg hs) hrest hmore).trans (cellAt_paintShapeMarks set hg hs hown)

/-- In the cells that a shape needs stands what the shape itself put there. -/
theorem cellAt_drawMarks_of_mem [PlainWidths] (hg : g.Sound) (h : Typeset shapes) (hs : s ∈ shapes)
    {r : Rect ℚ}
    (hr : r ∈ areas s) :
    ∃ g' : Grid, g'.Sound ∧ ∀ x y, r.strip.Holds x y → g'.cellAt x y = g.cellAt x y ∧
      (drawMarks set shapes g).cellAt x y = (paintShapeMarks set s.1 g' s.2).cellAt x y := by
  obtain ⟨front, back, rfl⟩ := List.append_of_mem hs
  obtain ⟨hmonospaced, hcellular, hapart⟩ := h
  obtain ⟨hfront, hrest⟩ := List.forall_mem_append.1 hmonospaced
  obtain ⟨hown, hback⟩ := List.forall_mem_cons.1 hrest
  obtain ⟨-, hbehind, hbefore⟩ := List.pairwise_append.1 hapart
  -- no other shape needs a cell of the strip
  have hother {t : Point ℚ × Shape ℚ} (ht : t ∈ front ++ s :: back) {q : Rect ℚ} (hq : q ∈ areas t)
      (hrq : r.Apart q) {x y : ℕ} (hxy : r.strip.Holds x y) : ¬ q.strip.Holds x y :=
    (Rect.strip_apart (hcellular s hs r hr) (hcellular t ht q hq) hrq).not_holds hxy
  have hsound := sound_drawMarks set hg hfront
  refine ⟨drawMarks set front g, hsound, fun x y hxy => ⟨?_, ?_⟩⟩
  · exact cellAt_drawMarks set hg hfront fun t ht q hq =>
      hother (List.mem_append_left _ ht) hq (hbefore t ht s (.head _) q hq r hr).symm hxy
  · rw [drawMarks, List.foldl_append, List.foldl_cons]
    exact cellAt_drawMarks set (sound_paintShapeMarks set hsound hown) hback fun t ht q hq =>
      hother (List.mem_append_right _ (.tail _ ht)) hq ((List.pairwise_cons.1 hbehind).1 t ht r hr q hq)
        hxy

end Marks

/-! ## Lines -/

section Lines

variable {α : Type} [Scalar α]

theorem lined_paintLine (p q : Point α) (g : Grid) : Lined set g (paintLine set g p q) := by
  unfold paintLine
  simp only
  split_ifs
  · exact Lined.drawHorizontal _ _ _ _ _
  · exact Lined.drawVertical _ _ _ _ _
  · exact (Lined.drawHorizontal _ _ _ _ _).trans (Lined.drawVertical _ _ _ _ _)

theorem lined_paintSegment (origin : Point α) (state : Grid × Point α) (segment : Segment α) :
    Lined set state.1 (paintSegment set origin state segment).1 := by
  cases segment with
  | moveTo p => exact Lined.refl _
  | lineTo p => exact lined_paintLine set _ _ _
  | quadTo control p => exact (lined_paintLine set _ _ _).trans (lined_paintLine set _ _ _)

theorem lined_paintSegments (origin : Point α) (segments : List (Segment α)) (state : Grid × Point α) :
    Lined set state.1 (segments.foldl (paintSegment set origin) state).1 := by
  induction segments generalizing state with
  | nil => exact Lined.refl _
  | cons segment rest ih => exact (lined_paintSegment set origin state segment).trans (ih _)

theorem lined_paintShapeLines (s : Point α × Shape α) (g : Grid) :
    Lined set g (paintShapeLines set s.1 g s.2) := by
  obtain ⟨corner, s⟩ := s
  cases s with
  | rect area radius dashed className => exact Lined.drawRect _ _ _ _ _ _
  | path segments className => exact lined_paintSegments set corner segments (g, corner)
  | _ => exact Lined.refl _

/-- The lines of shapes, one after the other. -/
def drawLines (shapes : List (Point α × Shape α)) (g : Grid) : Grid :=
  shapes.foldl (fun g s => paintShapeLines set s.1 g s.2) g

theorem lined_drawLines (shapes : List (Point α × Shape α)) (g : Grid) :
    Lined set g (drawLines set shapes g) :=
  Lined.foldl (fun g s => lined_paintShapeLines set s g) shapes g

end Lines

/-- What can be seen once the lines of a shape are drawn can be seen once all lines are. -/
theorem inked_drawLines (hg : g.Sound) (hs : s ∈ shapes) {x y : ℕ}
    (h : ∀ g' : Grid, g'.Sound → (paintShapeLines set s.1 g' s.2).Inked x y) :
    (drawLines set shapes g).Inked x y := by
  obtain ⟨front, back, rfl⟩ := List.append_of_mem hs
  have hsound := (lined_drawLines set front g).sound hg
  rw [drawLines, List.foldl_append, List.foldl_cons]
  exact (lined_drawLines set back _).seen ((lined_paintShapeLines set s _).sound hsound) (h _ hsound)

/-! ## Whole drawings -/

variable [TerminalWidths]

/-- Shapes on a grid: first the lines of all of them, then their marks. -/
def draw {α : Type} [Scalar α] (shapes : List (Point α × Shape α)) (g : Grid) : Grid :=
  drawMarks set shapes (drawLines set shapes g)

theorem sound_draw [PlainWidths] (hg : g.Sound) (h : ∀ s ∈ shapes, s.2.Monospaced) :
    (draw set shapes g).Sound :=
  sound_drawMarks set ((lined_drawLines set shapes g).sound hg) h

theorem paint_eq {α : Type} [Scalar α] (d : Drawing α) :
    paint set d = draw set (d.fragment.shapesAt .origin)
      (blank (Scalar.cell d.width) (Scalar.cell d.height)) := by
  simp only [paint, paintFragment_eq]
  rfl

/-- What can be seen of the lines of a rectangle in the cells that it needs can be seen in the drawing. -/
theorem inked_draw [PlainWidths] (hg : g.Sound) (h : Typeset shapes) {corner : Point ℚ} {area : Rect ℚ}
    {radius : ℚ}
    {dashed : Bool} {className : String} (hs : (corner, .rect area radius dashed className) ∈ shapes)
    {r : Rect ℚ} (hr : r ∈ areas (corner, .rect area radius dashed className)) {x y : ℕ}
    (hxy : r.strip.Holds x y) (hlines : ∀ g' : Grid, g'.Sound →
      (paintShapeLines set corner g' (.rect area radius dashed className)).Inked x y) :
    (draw set shapes g).Inked x y := by
  have hsound := (lined_drawLines set shapes g).sound hg
  obtain ⟨g', -, hown⟩ := cellAt_drawMarks_of_mem set hsound h hs hr
  obtain ⟨hbefore, hafter⟩ := hown x y hxy
  -- a rectangle has no marks of its own
  rw [draw, Inked, hafter, paintShapeMarks, hbefore]
  exact inked_drawLines set hg hs hlines

end Canvas

end RegexDiagram
