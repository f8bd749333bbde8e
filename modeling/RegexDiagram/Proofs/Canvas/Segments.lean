import RegexDiagram.Proofs.Canvas.Strokes
import Mathlib.Data.Nat.Bitwise

/-!
# Lines as a set of segments

What a grid shows after lines are drawn on it does not depend on their order. A line is drawn cell by
cell, and each step, a `Touch`, adds sides and a stroke to one cell. `Grid.Drawn` says what a grid is
after some touches without saying in which order they came: a touch adds itself (`Drawn.touch`), and two
grids drawn by the same touches are the same grid (`Drawn.unique`).

`drawAll_blank` states this for horizontal and vertical lines and for rectangles. A rectangle is its four
sides, and a line whose ends are the same is nothing.
-/

namespace RegexDiagram.Canvas

/-! ## Cells -/

/-- A step of drawing a line: the cell it goes through, the sides through which it leaves the cell, and
how it is drawn. -/
structure Touch where
  x : Nat
  y : Nat
  sides : Nat
  stroke : Stroke

/-- The cell is what lines through it make of a blank one. Its line leaves through the sides of all
of them, is dashed if all are, and rounded if one is. -/
structure Cell.Joins (set : CharacterSet) (cell : Cell) (touches : List Touch) : Prop where
  symbol : cell.symbol = glyph set cell.sides cell.stroke
  sides : ∀ side, cell.sides &&& side ≠ 0 ↔ ∃ t ∈ touches, t.sides &&& side ≠ 0
  dashed : cell.stroke.dashed = true ↔ touches ≠ [] ∧ ∀ t ∈ touches, t.stroke.dashed = true
  rounded : cell.stroke.rounded = true ↔ ∃ t ∈ touches, t.stroke.rounded = true

theorem glyph_zero (set : CharacterSet) (stroke : Stroke) : glyph set 0 stroke = ' ' := by
  cases set <;> rfl

/-- Numbers are the same if they have the same digits. -/
theorem eq_of_and_ne_zero {a b : Nat} (h : ∀ side, a &&& side ≠ 0 ↔ b &&& side ≠ 0) : a = b := by
  refine Nat.eq_of_testBit_eq fun i => ?_
  have hi := h (2 ^ i)
  rw [Nat.and_two_pow, Nat.and_two_pow] at hi
  have hpos := Nat.two_pow_pos i
  cases ha : a.testBit i <;> cases hb : b.testBit i <;> simp_all

namespace Cell.Joins

variable {set : CharacterSet} {cell cell' : Cell} {touches touches' : List Touch}

theorem blank (set : CharacterSet) : Cell.blank.Joins set [] where
  symbol := (glyph_zero set _).symm
  sides := by simp [Cell.blank]
  dashed := by simp [Cell.blank, Stroke.solid]
  rounded := by simp [Cell.blank, Stroke.solid]

/-- A cell without a line is one that nothing goes through. -/
theorem sides_eq_zero_iff (h : cell.Joins set touches) (hsides : ∀ t ∈ touches, t.sides ≠ 0) :
    cell.sides = 0 ↔ touches = [] := by
  constructor
  · intro hzero
    refine List.eq_nil_iff_forall_not_mem.2 fun t ht => ?_
    refine absurd ((h.sides t.sides).2 ⟨t, ht, ?_⟩) ?_
    · rw [Nat.and_self]
      exact hsides t ht
    · rw [hzero, Nat.zero_and]
      exact fun h => h rfl
  · rintro rfl
    refine Decidable.byContradiction fun hne => ?_
    obtain ⟨t, ht, -⟩ := (h.sides cell.sides).1 (by rwa [Nat.and_self])
    exact absurd ht List.not_mem_nil

/-- Another line through the cell. -/
theorem merge (h : cell.Joins set touches) (hsides : ∀ t ∈ touches, t.sides ≠ 0) (t : Touch) :
    (Grid.Cell.merge set cell t.sides t.stroke).Joins set (touches ++ [t]) := by
  by_cases hzero : cell.sides = 0
  · -- the first line through the cell
    obtain rfl := (h.sides_eq_zero_iff hsides).1 hzero
    have hspace : cell.symbol = ' ' := by
      rw [h.symbol, hzero, glyph_zero]
    rw [Grid.Cell.merge, if_neg (not_not_intro hzero), if_pos hspace]
    exact ⟨rfl, by simp, by simp, by simp⟩
  · have hne := mt (h.sides_eq_zero_iff hsides).2 hzero
    have hdashed := h.dashed
    rw [and_iff_right hne] at hdashed
    rw [Grid.Cell.merge, if_pos hzero]
    refine ⟨rfl, fun side => ?_, ?_, ?_⟩
    · rw [Nat.and_or_distrib_right, ne_eq, Nat.or_eq_zero_iff, not_and_or, ← ne_eq, h.sides side]
      simp only [List.mem_append, List.mem_singleton, or_and_right, exists_or, exists_eq_left]
    · rw [Stroke.merge, Bool.and_eq_true, hdashed]
      simp [or_imp, forall_and]
    · rw [Stroke.merge, Bool.or_eq_true, h.rounded]
      simp only [List.mem_append, List.mem_singleton, or_and_right, exists_or, exists_eq_left]

/-- The touches, in any order, determine the cell. -/
theorem unique (h : cell.Joins set touches) (h' : cell'.Joins set touches')
    (hsame : ∀ t, t ∈ touches ↔ t ∈ touches') : cell = cell' := by
  have hnil : touches = [] ↔ touches' = [] := by
    simp only [List.eq_nil_iff_forall_not_mem, hsame]
  have hsides : cell.sides = cell'.sides := by
    refine eq_of_and_ne_zero fun side => ?_
    simp only [h.sides, h'.sides, hsame]
  have hdashed : cell.stroke.dashed = cell'.stroke.dashed := by
    rw [Bool.eq_iff_iff, h.dashed, h'.dashed]
    simp only [ne_eq, hnil, hsame]
  have hrounded : cell.stroke.rounded = cell'.stroke.rounded := by
    rw [Bool.eq_iff_iff, h.rounded, h'.rounded]
    simp only [hsame]
  have hstroke : cell.stroke = cell'.stroke := by
    rw [Stroke.mk.injEq]
    exact ⟨hdashed, hrounded⟩
  have hsymbol : cell.symbol = cell'.symbol := by
    rw [h.symbol, h'.symbol, hsides, hstroke]
  rw [Cell.mk.injEq]
  exact ⟨hsymbol, hsides, hstroke⟩

end Cell.Joins

/-! ## Grids -/

namespace Grid

variable {g g' : Grid} {spare : Nat}

/-- The rows are exactly as long as the width says, one cell at least, and there are `spare` more of them
than the height says. -/
structure Shaped (spare : Nat) (g : Grid) : Prop where
  rows : g.rows.size = g.height + spare
  columns : ∀ row ∈ g.rows, row.size = max g.width 1

theorem shaped_blank (width height : Nat) : (blank width height).Shaped (1 - height) where
  rows := by
    have hheight : (blank width height).height = height := rfl
    have hrows : (blank width height).rows.size = max height 1 := Array.size_replicate
    omega
  columns := by
    intro row hrow
    obtain ⟨-, rfl⟩ := Array.mem_replicate.1 hrow
    exact Array.size_replicate

namespace Shaped

theorem widen (h : g.Shaped spare) {width : Nat} (hwidth : 0 < width) :
    (g.widen width).Shaped spare := by
  unfold Grid.widen
  split
  next hlt =>
    refine ⟨?_, fun row hrow => ?_⟩
    · rw [Array.size_map]
      exact h.rows
    · obtain ⟨old, hold, rfl⟩ := Array.mem_map.1 hrow
      have hcolumns := h.columns old hold
      simp only [Array.size_append, Array.size_replicate]
      omega
  next => exact h

theorem heighten (h : g.Shaped spare) (hwidth : 0 < g.width) (height : Nat) :
    (g.heighten height).Shaped spare := by
  have hrows := h.rows
  unfold Grid.heighten
  split
  · refine ⟨?_, fun row hrow => ?_⟩
    · simp only [Array.size_append, Array.size_replicate]
      omega
    · obtain hrow | hrow := Array.mem_append.1 hrow
      · exact h.columns row hrow
      · obtain ⟨-, rfl⟩ := Array.mem_replicate.1 hrow
        rw [Array.size_replicate]
        exact (Nat.max_eq_left hwidth).symm
  · exact h

theorem grow (h : g.Shaped spare) {width : Nat} (hwidth : 0 < width) (height : Nat) :
    (g.grow width height).Shaped spare := by
  refine (h.widen hwidth).heighten ?_ height
  have hgrown := g.width_grow width 0
  have hsame : (g.grow width 0).width = (g.widen width).width := rfl
  omega

theorem alter (h : g.Shaped spare) (x y : Nat) (f : Cell → Cell) : (g.alter x y f).Shaped spare where
  rows := by
    rw [Grid.alter, Array.size_modify]
    exact h.rows
  columns := by
    intro row hrow
    obtain ⟨before, hbefore, hsize⟩ := size_of_mem_alter hrow
    rw [hsize]
    exact h.columns before hbefore

/-- A grid is what it shows and how large it is. -/
theorem ext (h : g.Shaped spare) (h' : g'.Shaped spare) (hwidth : g.width = g'.width)
    (hheight : g.height = g'.height) (hcells : ∀ x y, g.cellAt x y = g'.cellAt x y) : g = g' := by
  have hcell {g : Grid} {x y : Nat} (hy : y < g.rows.size) (hx : x < g.rows[y].size) :
      g.cellAt x y = g.rows[y][x] := by
    rw [cellAt, cell?, Array.getElem?_eq_getElem hy, Option.bind_some, Array.getElem?_eq_getElem hx,
      Option.getD_some]
  have hrows : g.rows = g'.rows := by
    refine Array.ext (by rw [h.rows, h'.rows, hheight]) fun y hy hy' => ?_
    refine Array.ext ?_ fun x hx hx' => ?_
    · rw [h.columns _ (Array.getElem_mem hy), h'.columns _ (Array.getElem_mem hy'), hwidth]
    · rw [← hcell hy hx, ← hcell hy' hx', hcells]
  rw [Grid.mk.injEq]
  exact ⟨hwidth, hheight, hrows⟩

end Shaped

variable {set : CharacterSet} {width height : Nat} {touches touches' : List Touch}

def touch (set : CharacterSet) (g : Grid) (t : Touch) : Grid := g.mergeLine set t.x t.y t.sides t.stroke

/-- The touches that go through a place. -/
def through (touches : List Touch) (x y : Nat) : List Touch :=
  touches.filter fun t => t.x = x ∧ t.y = y

theorem mem_through {t : Touch} {x y : Nat} :
    t ∈ through touches x y ↔ t ∈ touches ∧ t.x = x ∧ t.y = y := by
  rw [through, List.mem_filter, decide_eq_true_eq]

/-- A further touch goes through its own place. -/
theorem through_append (touches : List Touch) (t : Touch) (x y : Nat) :
    through (touches ++ [t]) x y = through touches x y ++ if t.x = x ∧ t.y = y then [t] else [] := by
  rw [through, List.filter_append, List.filter_singleton]
  simp only [Bool.cond_decide]
  rfl

/-- The grid is what the touches, in whatever order, make of a blank one of the given size. -/
structure Drawn (set : CharacterSet) (width height : Nat) (g : Grid) (touches : List Touch) : Prop where
  sound : g.Sound
  shaped : g.Shaped (1 - height)
  cells : ∀ x y, (g.cellAt x y).Joins set (through touches x y)
  width : ∀ n, g.width ≤ n ↔ width ≤ n ∧ ∀ t ∈ touches, t.x < n
  height : ∀ n, g.height ≤ n ↔ height ≤ n ∧ ∀ t ∈ touches, t.y < n

theorem drawn_blank (set : CharacterSet) (width height : Nat) :
    Drawn set width height (blank width height) [] where
  sound := sound_blank width height
  shaped := shaped_blank width height
  cells x y := by
    rw [cellAt_blank]
    exact .blank set
  width n := by simp [blank]
  height n := by simp [blank]

namespace Drawn

/-- A touch changes the cell it goes through, and the grid grows to hold it. -/
theorem touch (h : Drawn set width height g touches) (hsides : ∀ t ∈ touches, t.sides ≠ 0) {t : Touch}
    (ht : t.sides ≠ 0) : Drawn set width height (g.touch set t) (touches ++ [t]) where
  sound := h.sound.mergeLine set _ _ _ _
  shaped := by
    rw [Grid.touch, mergeLine, if_neg ht]
    exact (h.shaped.grow (Nat.succ_pos _) _).alter _ _ _
  cells x y := by
    rw [Grid.touch, h.sound.cellAt_mergeLine t.x t.y ht, through_append]
    by_cases hplace : t.x = x ∧ t.y = y
    · obtain ⟨rfl, rfl⟩ := hplace
      rw [if_pos ⟨rfl, rfl⟩, if_pos ⟨rfl, rfl⟩]
      exact (h.cells t.x t.y).merge (fun u hu => hsides u (mem_through.1 hu).1) t
    · rw [if_neg fun hother => hplace ⟨hother.1.symm, hother.2.symm⟩, if_neg hplace, List.append_nil]
      exact h.cells x y
  width n := by
    have hwidth : (g.touch set t).width = max g.width (t.x + 1) := by
      rw [Grid.touch, mergeLine, if_neg ht]
      exact width_grow _ _ _
    rw [hwidth, Nat.max_le, h.width, List.forall_mem_append, List.forall_mem_singleton, and_assoc]
    rfl
  height n := by
    have hheight : (g.touch set t).height = max g.height (t.y + 1) := by
      rw [Grid.touch, mergeLine, if_neg ht]
      exact height_grow _ _ _
    rw [hheight, Nat.max_le, h.height, List.forall_mem_append, List.forall_mem_singleton, and_assoc]
    rfl

/-- All the touches of a drawing. -/
theorem foldl (h : Drawn set width height g touches) (hsides : ∀ t ∈ touches ++ touches', t.sides ≠ 0) :
    Drawn set width height (touches'.foldl (Grid.touch set) g) (touches ++ touches') := by
  induction touches' generalizing g touches with
  | nil =>
    rw [List.append_nil]
    exact h
  | cons t rest ih =>
    rw [List.append_cons] at hsides ⊢
    obtain ⟨hfront, -⟩ := List.forall_mem_append.1 hsides
    obtain ⟨hold, ht⟩ := List.forall_mem_append.1 hfront
    exact ih (h.touch hold (ht t (List.mem_singleton_self t))) hsides

/-- The touches, in any order, determine the grid. -/
theorem unique (h : Drawn set width height g touches) (h' : Drawn set width height g' touches')
    (hsame : ∀ t, t ∈ touches ↔ t ∈ touches') : g = g' := by
  refine h.shaped.ext h'.shaped ?_ ?_ fun x y => ?_
  · refine eq_of_forall_ge_iff fun n => ?_
    simp only [h.width, h'.width, hsame]
  · refine eq_of_forall_ge_iff fun n => ?_
    simp only [h.height, h'.height, hsame]
  · refine (h.cells x y).unique (h'.cells x y) fun t => ?_
    rw [mem_through, mem_through, hsame]

/-- Nothing goes through a place outside the size. -/
theorem through_eq_nil (h : Drawn set width height g touches) {x y : Nat}
    (hplace : ¬ (y < g.height ∧ x < g.width)) : through touches x y = [] := by
  refine List.eq_nil_iff_forall_not_mem.2 fun t ht => ?_
  obtain ⟨hmem, rfl, rfl⟩ := mem_through.1 ht
  exact hplace ⟨((h.height _).1 (Nat.le_refl _)).2 t hmem, ((h.width _).1 (Nat.le_refl _)).2 t hmem⟩

/-- The character in a place is that of its cell. -/
theorem charAt_eq (h : Drawn set width height g touches) (hsides : ∀ t ∈ touches, t.sides ≠ 0)
    (x y : Nat) : g.charAt x y = (g.cellAt x y).symbol := by
  by_cases hplace : y < g.height ∧ x < g.width
  · rw [charAt, if_pos hplace, h.sound.cell?_eq hplace.2 hplace.1]
    rfl
  · have hcell := h.cells x y
    have hzero : (g.cellAt x y).sides = 0 :=
      (hcell.sides_eq_zero_iff fun t ht => hsides t (mem_through.1 ht).1).2 (h.through_eq_nil hplace)
    rw [charAt, if_neg hplace, hcell.symbol, hzero, glyph_zero]

end Drawn

end Grid

/-! ## Segments -/

/-- A straight line between two ends, which come in either order. -/
inductive LineSegment where
  | horizontal (x₀ x₁ y : Nat) (stroke : Stroke)
  | vertical (x y₀ y₁ : Nat) (stroke : Stroke)

namespace LineSegment

def stroke : LineSegment → Stroke
  | horizontal _ _ _ stroke | vertical _ _ _ stroke => stroke

/-- The line goes through the place. One whose ends are the same goes through none. -/
def Covers (x y : Nat) : LineSegment → Prop
  | horizontal x₀ x₁ row _ => x₀ ≠ x₁ ∧ y = row ∧ min x₀ x₁ ≤ x ∧ x ≤ max x₀ x₁
  | vertical column y₀ y₁ _ => y₀ ≠ y₁ ∧ x = column ∧ min y₀ y₁ ≤ y ∧ y ≤ max y₀ y₁

/-- The line goes on from the place to the next one on its right. -/
def GoesRight (x y : Nat) : LineSegment → Prop
  | horizontal x₀ x₁ row _ => y = row ∧ min x₀ x₁ ≤ x ∧ x < max x₀ x₁
  | vertical .. => False

def GoesLeft (x y : Nat) : LineSegment → Prop
  | horizontal x₀ x₁ row _ => y = row ∧ min x₀ x₁ < x ∧ x ≤ max x₀ x₁
  | vertical .. => False

def GoesDown (x y : Nat) : LineSegment → Prop
  | vertical column y₀ y₁ _ => x = column ∧ min y₀ y₁ ≤ y ∧ y < max y₀ y₁
  | horizontal .. => False

def GoesUp (x y : Nat) : LineSegment → Prop
  | vertical column y₀ y₁ _ => x = column ∧ min y₀ y₁ < y ∧ y ≤ max y₀ y₁
  | horizontal .. => False

/-- The sides through which the line leaves a place that it goes through. -/
def sides (x y : Nat) : LineSegment → Nat
  | horizontal x₀ x₁ _ _ => Grid.runSides left right (min x₀ x₁) (max x₀ x₁) x
  | vertical _ y₀ y₁ _ => Grid.runSides up down (min y₀ y₁) (max y₀ y₁) y

/-- The steps in which the line is drawn. -/
def touches (s : LineSegment) : List Touch :=
  match s with
  | horizontal x₀ x₁ y stroke => (Grid.run x₀ x₁).map fun x => ⟨x, y, s.sides x y, stroke⟩
  | vertical x y₀ y₁ stroke => (Grid.run y₀ y₁).map fun y => ⟨x, y, s.sides x y, stroke⟩

theorem mem_run {a b k : Nat} : k ∈ Grid.run a b ↔ a ≠ b ∧ min a b ≤ k ∧ k ≤ max a b := by
  unfold Grid.run
  split
  next h => simp [h]
  next h =>
    rw [List.mem_range'_1]
    omega

/-- A line is drawn by one step in each place that it goes through. -/
theorem mem_touches {s : LineSegment} {t : Touch} :
    t ∈ s.touches ↔ s.Covers t.x t.y ∧ t = ⟨t.x, t.y, s.sides t.x t.y, s.stroke⟩ := by
  cases s with
  | horizontal x₀ x₁ y stroke =>
    simp only [touches, List.mem_map, mem_run, Covers, LineSegment.stroke]
    constructor
    · rintro ⟨x, hx, rfl⟩
      exact ⟨⟨hx.1, rfl, hx.2⟩, rfl⟩
    · rintro ⟨⟨hne, hy, hx⟩, ht⟩
      refine ⟨t.x, ⟨hne, hx⟩, ?_⟩
      rw [ht, hy]
  | vertical x y₀ y₁ stroke =>
    simp only [touches, List.mem_map, mem_run, Covers, LineSegment.stroke]
    constructor
    · rintro ⟨y, hy, rfl⟩
      exact ⟨⟨hy.1, rfl, hy.2⟩, rfl⟩
    · rintro ⟨⟨hne, hx, hy⟩, ht⟩
      refine ⟨t.y, ⟨hne, hy⟩, ?_⟩
      rw [ht, hx]

theorem sides_ne_zero {s : LineSegment} {x y : Nat} (h : s.Covers x y) : s.sides x y ≠ 0 := by
  cases s with
  | horizontal x₀ x₁ row stroke =>
    have hne := h.1
    exact Grid.runSides_ne (by decide) (by decide) (by omega)
  | vertical column y₀ y₁ stroke =>
    have hne := h.1
    exact Grid.runSides_ne (by decide) (by decide) (by omega)

theorem runSides_and (before after low high k side : Nat) :
    Grid.runSides before after low high k &&& side ≠ 0 ↔
      low < k ∧ before &&& side ≠ 0 ∨ k < high ∧ after &&& side ≠ 0 := by
  rw [Grid.runSides, Nat.and_or_distrib_right, ne_eq, Nat.or_eq_zero_iff, not_and_or]
  split <;> split <;> simp [*]

/-- The sides of a line are those towards the places where it goes on. -/
theorem leaves_iff (s : LineSegment) (x y : Nat) :
    (s.Covers x y ∧ s.sides x y &&& right ≠ 0 ↔ s.GoesRight x y) ∧
      (s.Covers x y ∧ s.sides x y &&& left ≠ 0 ↔ s.GoesLeft x y) ∧
      (s.Covers x y ∧ s.sides x y &&& down ≠ 0 ↔ s.GoesDown x y) ∧
      (s.Covers x y ∧ s.sides x y &&& up ≠ 0 ↔ s.GoesUp x y) := by
  -- a level line has no side up or down, and an upright one none to the left or to the right
  cases s with
  | horizontal x₀ x₁ row stroke =>
    simp only [Covers, sides, runSides_and, GoesRight, GoesLeft, GoesDown, GoesUp, left, right, up, down,
      Nat.reduceAnd, ne_eq, not_true_eq_false, OfNat.ofNat_ne_zero, not_false_eq_true, and_true, and_false,
      or_false, false_or]
    omega
  | vertical column y₀ y₁ stroke =>
    simp only [Covers, sides, runSides_and, GoesRight, GoesLeft, GoesDown, GoesUp, left, right, up, down,
      Nat.reduceAnd, ne_eq, not_true_eq_false, OfNat.ofNat_ne_zero, one_ne_zero, not_false_eq_true, and_true,
      and_false, or_false, false_or, true_and]
    omega

/-- A line leaves a place through the four sides and nothing else. -/
theorem sides_and (s : LineSegment) (x y : Nat) :
    s.sides x y &&& (up ||| down ||| left ||| right) = s.sides x y := by
  cases s with
  | horizontal x₀ x₁ row stroke =>
    rw [sides, Grid.runSides]
    split <;> split <;> rfl
  | vertical column y₀ y₁ stroke =>
    rw [sides, Grid.runSides]
    split <;> split <;> rfl

theorem goesRight_iff (s : LineSegment) (x y : Nat) : s.GoesRight x y ↔ s.GoesLeft (x + 1) y := by
  cases s with
  | horizontal x₀ x₁ row stroke =>
    rw [GoesRight, GoesLeft]
    omega
  | vertical column y₀ y₁ stroke => exact Iff.rfl

theorem goesDown_iff (s : LineSegment) (x y : Nat) : s.GoesDown x y ↔ s.GoesUp x (y + 1) := by
  cases s with
  | horizontal x₀ x₁ row stroke => exact Iff.rfl
  | vertical column y₀ y₁ stroke =>
    rw [GoesDown, GoesUp]
    omega

end LineSegment

/-- A call that draws lines. -/
inductive Draw where
  | horizontal (x₀ x₁ y : Nat) (stroke : Stroke)
  | vertical (x y₀ y₁ : Nat) (stroke : Stroke)
  | rect (x y x₂ y₂ : Nat) (stroke : Stroke)

namespace Draw

def apply (set : CharacterSet) (g : Grid) : Draw → Grid
  | horizontal x₀ x₁ y stroke => g.drawHorizontal set x₀ x₁ y stroke
  | vertical x y₀ y₁ stroke => g.drawVertical set x y₀ y₁ stroke
  | rect x y x₂ y₂ stroke => g.drawRect set x y x₂ y₂ stroke

/-- The lines that a call draws: a rectangle has four. -/
def segments : Draw → List LineSegment
  | horizontal x₀ x₁ y stroke => [.horizontal x₀ x₁ y stroke]
  | vertical x y₀ y₁ stroke => [.vertical x y₀ y₁ stroke]
  | rect x y x₂ y₂ stroke =>
    [.horizontal x x₂ y stroke, .horizontal x x₂ y₂ stroke, .vertical x y y₂ stroke,
      .vertical x₂ y y₂ stroke]

end Draw

namespace Grid

theorem foldl_touches_horizontal (set : CharacterSet) (g : Grid) (x₀ x₁ y : Nat) (stroke : Stroke) :
    (LineSegment.horizontal x₀ x₁ y stroke).touches.foldl (touch set) g =
      g.drawHorizontal set x₀ x₁ y stroke := by
  rw [LineSegment.touches, List.foldl_map]
  rfl

theorem foldl_touches_vertical (set : CharacterSet) (g : Grid) (x y₀ y₁ : Nat) (stroke : Stroke) :
    (LineSegment.vertical x y₀ y₁ stroke).touches.foldl (touch set) g =
      g.drawVertical set x y₀ y₁ stroke := by
  rw [LineSegment.touches, List.foldl_map]
  rfl

/-- The grid after a list of calls. -/
def drawAll (set : CharacterSet) (g : Grid) (draws : List Draw) : Grid := draws.foldl (Draw.apply set) g

/-- Calls draw their segments step by step. -/
theorem drawAll_eq (set : CharacterSet) (g : Grid) (draws : List Draw) :
    g.drawAll set draws =
      ((draws.flatMap Draw.segments).flatMap LineSegment.touches).foldl (touch set) g := by
  have happly (g : Grid) (draw : Draw) :
      draw.apply set g = (draw.segments.flatMap LineSegment.touches).foldl (touch set) g := by
    cases draw <;>
      simp only [Draw.apply, Draw.segments, List.flatMap_cons, List.flatMap_nil, List.append_nil,
        List.foldl_append, foldl_touches_horizontal, foldl_touches_vertical, drawRect]
  rw [List.flatMap_assoc]
  induction draws generalizing g with
  | nil => rfl
  | cons draw rest ih =>
    rw [List.flatMap_cons, List.foldl_append, ← happly, ← ih]
    rfl

/-- A place is touched by the segments that go through it. -/
theorem mem_through_segments {segments : List LineSegment} {x y : Nat} {t : Touch} :
    t ∈ through (segments.flatMap LineSegment.touches) x y ↔
      ∃ s ∈ segments, s.Covers x y ∧ t = ⟨x, y, s.sides x y, s.stroke⟩ := by
  simp only [mem_through, List.mem_flatMap, LineSegment.mem_touches]
  constructor
  · rintro ⟨⟨s, hs, hcovers, ht⟩, rfl, rfl⟩
    exact ⟨s, hs, hcovers, ht⟩
  · rintro ⟨s, hs, hcovers, rfl⟩
    exact ⟨⟨s, hs, hcovers, rfl⟩, rfl, rfl⟩

theorem exists_through_segments {segments : List LineSegment} {x y : Nat} {P : Touch → Prop} :
    (∃ t ∈ through (segments.flatMap LineSegment.touches) x y, P t) ↔
      ∃ s ∈ segments, s.Covers x y ∧ P ⟨x, y, s.sides x y, s.stroke⟩ := by
  simp only [mem_through_segments]
  constructor
  · rintro ⟨_, ⟨s, hs, hcovers, rfl⟩, ht⟩
    exact ⟨s, hs, hcovers, ht⟩
  · rintro ⟨s, hs, hcovers, ht⟩
    exact ⟨_, ⟨s, hs, hcovers, rfl⟩, ht⟩

theorem forall_through_segments {segments : List LineSegment} {x y : Nat} {P : Touch → Prop} :
    (∀ t ∈ through (segments.flatMap LineSegment.touches) x y, P t) ↔
      ∀ s ∈ segments, s.Covers x y → P ⟨x, y, s.sides x y, s.stroke⟩ := by
  simp only [mem_through_segments]
  constructor
  · exact fun h s hs hcovers => h _ ⟨s, hs, hcovers, rfl⟩
  · rintro h _ ⟨s, hs, hcovers, rfl⟩
    exact h s hs hcovers

theorem sides_of_segments (segments : List LineSegment) :
    ∀ t ∈ segments.flatMap LineSegment.touches, t.sides ≠ 0 := by
  intro t ht
  obtain ⟨s, -, hs⟩ := List.mem_flatMap.1 ht
  obtain ⟨hcovers, heq⟩ := LineSegment.mem_touches.1 hs
  rw [heq]
  exact LineSegment.sides_ne_zero hcovers

/-- The stroke of a cell is that of the segments through it. -/
theorem exists_stroke {set : CharacterSet} {segments : List LineSegment} {cell : Cell} {x y : Nat}
    (h : cell.Joins set (through (segments.flatMap LineSegment.touches) x y)) :
    ∃ stroke : Stroke,
      (stroke.dashed = true ↔ ∀ s ∈ segments, s.Covers x y → s.stroke.dashed = true) ∧
      (stroke.rounded = true ↔ ∃ s ∈ segments, s.Covers x y ∧ s.stroke.rounded = true) ∧
      cell.symbol = if cell.sides = 0 then ' ' else glyph set cell.sides stroke := by
  have hthrough : ∀ t ∈ through (segments.flatMap LineSegment.touches) x y, t.sides ≠ 0 :=
    fun t ht => sides_of_segments segments t (mem_through.1 ht).1
  have hdashed := h.dashed
  have hrounded := h.rounded
  rw [forall_through_segments (P := fun t => t.stroke.dashed = true)] at hdashed
  rw [exists_through_segments (P := fun t => t.stroke.rounded = true)] at hrounded
  by_cases hzero : cell.sides = 0
  · -- nothing goes through the place: a stroke of no segments is dashed and not rounded
    have hnil := (h.sides_eq_zero_iff hthrough).1 hzero
    have hall : ∀ s ∈ segments, s.Covers x y → s.stroke.dashed = true := by
      refine (forall_through_segments (P := fun t => t.stroke.dashed = true)).1 ?_
      rw [hnil]
      exact fun _ ht => absurd ht List.not_mem_nil
    refine ⟨⟨true, cell.stroke.rounded⟩, iff_of_true rfl hall, hrounded, ?_⟩
    rw [h.symbol, if_pos hzero, hzero, glyph_zero]
  · have hne := mt (h.sides_eq_zero_iff hthrough).2 hzero
    rw [and_iff_right hne] at hdashed
    exact ⟨cell.stroke, hdashed, hrounded, by rw [h.symbol, if_neg hzero]⟩

theorem drawn_drawAll (set : CharacterSet) (width height : Nat) (draws : List Draw) :
    Drawn set width height ((blank width height).drawAll set draws)
      ((draws.flatMap Draw.segments).flatMap LineSegment.touches) := by
  rw [drawAll_eq]
  exact (drawn_blank set width height).foldl (sides_of_segments _)

theorem sidesAt_eq (g : Grid) (x y : Nat) : g.sidesAt x y = (g.cellAt x y).sides := by
  rw [sidesAt, cellAt]
  cases g.cell? x y <;> rfl

/-- **A drawing of lines is the set of its segments.** After any calls on a blank grid, a line leaves a
place through a side exactly if a segment goes on there, and it has no other sides. A place without a
line is blank, and any other one has the glyph of its sides in the stroke of the segments through it,
dashed if all of them are and rounded if one is. So the order of the calls does not matter, and the sides
of neighbours face each other. -/
theorem drawAll_blank (set : CharacterSet) (width height : Nat) (draws : List Draw) :
    let segments := draws.flatMap Draw.segments
    let g := (blank width height).drawAll set draws
    (∀ x y,
      (g.sidesAt x y &&& right ≠ 0 ↔ ∃ s ∈ segments, s.GoesRight x y) ∧
      (g.sidesAt x y &&& left ≠ 0 ↔ ∃ s ∈ segments, s.GoesLeft x y) ∧
      (g.sidesAt x y &&& down ≠ 0 ↔ ∃ s ∈ segments, s.GoesDown x y) ∧
      (g.sidesAt x y &&& up ≠ 0 ↔ ∃ s ∈ segments, s.GoesUp x y) ∧
      g.sidesAt x y &&& (up ||| down ||| left ||| right) = g.sidesAt x y ∧
      (∃ stroke : Stroke,
        (stroke.dashed = true ↔ ∀ s ∈ segments, s.Covers x y → s.stroke.dashed = true) ∧
        (stroke.rounded = true ↔ ∃ s ∈ segments, s.Covers x y ∧ s.stroke.rounded = true) ∧
        g.charAt x y = if g.sidesAt x y = 0 then ' ' else glyph set (g.sidesAt x y) stroke) ∧
      ∀ cell, g.cell? x y = some cell → cell.symbol = g.charAt x y) ∧
    (∀ draws', draws'.Perm draws → (blank width height).drawAll set draws' = g) ∧
    ∀ x y,
      (g.sidesAt x y &&& right ≠ 0 ↔ g.sidesAt (x + 1) y &&& left ≠ 0) ∧
      (g.sidesAt x y &&& down ≠ 0 ↔ g.sidesAt x (y + 1) &&& up ≠ 0) := by
  intro segments g
  have hdrawn := drawn_drawAll set width height draws
  have hsides (x y side : Nat) : g.sidesAt x y &&& side ≠ 0 ↔
      ∃ s ∈ segments, s.Covers x y ∧ s.sides x y &&& side ≠ 0 := by
    rw [sidesAt_eq, (hdrawn.cells x y).sides, exists_through_segments]
  have hright (x y : Nat) : g.sidesAt x y &&& right ≠ 0 ↔ ∃ s ∈ segments, s.GoesRight x y := by
    simp only [hsides, (LineSegment.leaves_iff _ x y).1]
  have hleft (x y : Nat) : g.sidesAt x y &&& left ≠ 0 ↔ ∃ s ∈ segments, s.GoesLeft x y := by
    simp only [hsides, (LineSegment.leaves_iff _ x y).2.1]
  have hdown (x y : Nat) : g.sidesAt x y &&& down ≠ 0 ↔ ∃ s ∈ segments, s.GoesDown x y := by
    simp only [hsides, (LineSegment.leaves_iff _ x y).2.2.1]
  have hup (x y : Nat) : g.sidesAt x y &&& up ≠ 0 ↔ ∃ s ∈ segments, s.GoesUp x y := by
    simp only [hsides, (LineSegment.leaves_iff _ x y).2.2.2]
  refine ⟨fun x y => ⟨hright x y, hleft x y, hdown x y, hup x y, ?_, ?_, ?_⟩, ?_, fun x y => ⟨?_, ?_⟩⟩
  · refine eq_of_and_ne_zero fun side => ?_
    rw [Nat.and_assoc, hsides, hsides]
    simp only [← Nat.and_assoc, LineSegment.sides_and]
  · rw [hdrawn.charAt_eq (sides_of_segments segments), sidesAt_eq]
    exact exists_stroke (hdrawn.cells x y)
  · intro cell hcell
    rw [hdrawn.charAt_eq (sides_of_segments segments), cellAt, hcell]
    rfl
  · intro draws' hperm
    refine (drawn_drawAll set width height draws').unique hdrawn fun t => ?_
    exact ((hperm.flatMap_right _).flatMap_right _).mem_iff
  · simp only [hright, hleft, LineSegment.goesRight_iff]
  · simp only [hdown, hup, LineSegment.goesDown_iff]

/-- A box and a line from the left to its side, drawn from right to left, in both orders. -/
theorem drawAll_blank_box :
    [Draw.horizontal 3 0 1 .dashes, .rect 3 0 7 2 .solid].Perm
        [.rect 3 0 7 2 .solid, .horizontal 3 0 1 .dashes] ∧
      (blank 0 0).drawAll .unicode [.horizontal 3 0 1 .dashes, .rect 3 0 7 2 .solid] =
        (blank 0 0).drawAll .unicode [.rect 3 0 7 2 .solid, .horizontal 3 0 1 .dashes] ∧
      ((blank 0 0).drawAll .unicode
        [.rect 3 0 7 2 .solid, .horizontal 3 0 1 .dashes]).charAt 3 1 = '┤' := by
  have hperm : [Draw.horizontal 3 0 1 .dashes, .rect 3 0 7 2 .solid].Perm
      [.rect 3 0 7 2 .solid, .horizontal 3 0 1 .dashes] := .swap _ _ _
  exact ⟨hperm, (drawAll_blank .unicode 0 0 _).2.1 _ hperm, by decide +kernel⟩

end Grid

end RegexDiagram.Canvas
