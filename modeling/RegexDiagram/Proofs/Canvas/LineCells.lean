import RegexDiagram.Proofs.Canvas.Segments
import RegexDiagram.Proofs.Canvas.WholeCells

/-!
# The cells of lines

The line pass over shapes as a list of calls (`Shape.draws`), so that the cells with a line are those
that some segment goes through (`sidesAt_drawLines`). The elbows of a path go through its points and stay
between them: the lines of shapes that reach from the corner of a fragment to a point stay between both
(`Fragment.HasLine.between`).
-/

namespace RegexDiagram

open Canvas

/-! ## Calls -/

/-- The calls that draw a line between two points. -/
def lineDraws (p q : Point ℚ) : List Draw :=
  if Scalar.cell p.y = Scalar.cell q.y then
    [.horizontal (Scalar.cell p.x) (Scalar.cell q.x) (Scalar.cell p.y) .round]
  else if Scalar.cell p.x = Scalar.cell q.x then
    [.vertical (Scalar.cell p.x) (Scalar.cell p.y) (Scalar.cell q.y) .round]
  else
    [.horizontal (Scalar.cell p.x) (Scalar.cell q.x) (Scalar.cell p.y) .round,
     .vertical (Scalar.cell q.x) (Scalar.cell p.y) (Scalar.cell q.y) .round]

/-- The calls that draw the segments of a path from a point on. -/
def pathDraws (corner current : Point ℚ) : List (Segment ℚ) → List Draw
  | [] => []
  | .moveTo p :: rest => pathDraws corner (corner.translate p.x p.y) rest
  | .lineTo p :: rest =>
    lineDraws current (corner.translate p.x p.y) ++ pathDraws corner (corner.translate p.x p.y) rest
  | .quadTo control p :: rest =>
    lineDraws current (corner.translate control.x control.y) ++
      (lineDraws (corner.translate control.x control.y) (corner.translate p.x p.y) ++
        pathDraws corner (corner.translate p.x p.y) rest)

/-- The calls that draw the lines of a shape. -/
def Shape.draws (corner : Point ℚ) : Shape ℚ → List Draw
  | .rect area radius dashed _ =>
    [.rect (Scalar.cell (corner.x + area.x)) (Scalar.cell (corner.y + area.y))
      (Scalar.cell (corner.x + area.right - 1)) (Scalar.cell (corner.y + area.bottom - 1))
      ⟨dashed, Scalar.less 0 radius⟩]
  | .path segments _ => pathDraws corner corner segments
  | .text .. | .circle .. | .arrow .. => []

namespace Canvas

variable (set : CharacterSet)

theorem paintLine_eq (g : Grid) (p q : Point ℚ) : paintLine set g p q = g.drawAll set (lineDraws p q) := by
  unfold paintLine lineDraws
  simp only
  split_ifs <;> rfl

theorem paintSegments_eq (corner : Point ℚ) (segments : List (Segment ℚ)) (g : Grid) (current : Point ℚ) :
    (segments.foldl (paintSegment set corner) (g, current)).1 =
      g.drawAll set (pathDraws corner current segments) := by
  induction segments generalizing g current with
  | nil => rfl
  | cons segment rest ih =>
    cases segment with
    | moveTo p => exact ih g _
    | lineTo p =>
      have hstep : paintSegment set corner (g, current) (.lineTo p) =
          (g.drawAll set (lineDraws current (corner.translate p.x p.y)), corner.translate p.x p.y) :=
        congrArg (·, _) (paintLine_eq set g _ _)
      rw [List.foldl_cons, hstep, ih, pathDraws, Grid.drawAll, Grid.drawAll, Grid.drawAll,
        List.foldl_append]
    | quadTo control p =>
      have hstep : paintSegment set corner (g, current) (.quadTo control p) =
          ((g.drawAll set (lineDraws current (corner.translate control.x control.y))).drawAll set
            (lineDraws (corner.translate control.x control.y) (corner.translate p.x p.y)),
            corner.translate p.x p.y) := by
        rw [← paintLine_eq, ← paintLine_eq]
        rfl
      rw [List.foldl_cons, hstep, ih, pathDraws, Grid.drawAll, Grid.drawAll, Grid.drawAll, Grid.drawAll,
        List.foldl_append, List.foldl_append]

theorem paintShapeLines_eq (corner : Point ℚ) (g : Grid) (s : Shape ℚ) :
    paintShapeLines set corner g s = g.drawAll set (s.draws corner) := by
  cases s with
  | rect area radius dashed className =>
    rw [paintShapeLines, rational_one]
    rfl
  | path segments className => exact paintSegments_eq set corner segments g corner
  | _ => rfl

/-- The line pass over a fragment is a list of calls. -/
theorem paintFragment_lines (origin : Point ℚ) (g : Grid) (f : Fragment ℚ) :
    paintFragment (paintShapeLines set) origin g f =
      g.drawAll set ((f.shapesAt origin).flatMap fun s => s.2.draws s.1) := by
  have hfold (shapes : List (Point ℚ × Shape ℚ)) (g : Grid) :
      shapes.foldl (fun g s => paintShapeLines set s.1 g s.2) g =
        g.drawAll set (shapes.flatMap fun s => s.2.draws s.1) := by
    induction shapes generalizing g with
    | nil => rfl
    | cons s rest ih =>
      rw [List.foldl_cons, paintShapeLines_eq, ih, List.flatMap_cons, Grid.drawAll, Grid.drawAll,
        Grid.drawAll, List.foldl_append]
  rw [paintFragment_eq, hfold]

/-- A cell has a line after calls on a blank grid exactly if one of their segments goes through it. -/
theorem sidesAt_drawAll (width height : ℕ) (draws : List Draw) (x y : ℕ) :
    ((Grid.blank width height).drawAll set draws).sidesAt x y ≠ 0 ↔
      ∃ d ∈ draws, ∃ s ∈ d.segments, s.Covers x y := by
  have hjoins := (Grid.drawn_drawAll set width height draws).cells x y
  have hzero := hjoins.sides_eq_zero_iff fun t ht =>
    Grid.sides_of_segments _ t (Grid.mem_through.1 ht).1
  have hthrough : (∃ t, t ∈ Grid.through ((draws.flatMap Draw.segments).flatMap LineSegment.touches) x y) ↔
      ∃ s, (∃ d ∈ draws, s ∈ d.segments) ∧ s.Covers x y := by
    simpa only [and_true, List.mem_flatMap] using @Grid.exists_through_segments
      (draws.flatMap Draw.segments) x y fun _ => True
  rw [Grid.sidesAt_eq, ne_eq, hzero, List.eq_nil_iff_forall_not_mem, not_forall_not, hthrough]
  constructor
  · rintro ⟨s, ⟨d, hd, hs⟩, hcovers⟩
    exact ⟨d, hd, s, hs, hcovers⟩
  · rintro ⟨d, hd, s, hs, hcovers⟩
    exact ⟨s, ⟨d, hd, hs⟩, hcovers⟩

end Canvas

/-! ## Cells -/

/-- One of the calls draws a line through the cell. -/
def LineThrough (draws : List Draw) (x y : ℕ) : Prop := ∃ d ∈ draws, ∃ s ∈ d.segments, s.Covers x y

theorem not_lineThrough_nil (x y : ℕ) : ¬ LineThrough [] x y := by
  rintro ⟨d, hd, -⟩
  exact List.not_mem_nil hd

/-- The line pass over a fragment whose corner lies at the given point, and over all that is in it, draws
a line through the cell. -/
def Fragment.HasLine (set : CharacterSet) (corner : Point ℚ) (f : Fragment ℚ) (x y : ℕ) : Prop :=
  (paintFragment (paintShapeLines set) corner (Grid.blank 0 0) f).sidesAt x y ≠ 0

/-- A line of a fragment belongs to one of the shapes in it. -/
theorem Fragment.hasLine_iff {set : CharacterSet} {corner : Point ℚ} {f : Fragment ℚ} {x y : ℕ} :
    f.HasLine set corner x y ↔ ∃ s ∈ f.shapesAt corner, LineThrough (s.2.draws s.1) x y := by
  rw [HasLine, paintFragment_lines, sidesAt_drawAll]
  simp only [List.mem_flatMap]
  constructor
  · rintro ⟨d, ⟨s, hs, hd⟩, hcovers⟩
    exact ⟨s, hs, d, hd, hcovers⟩
  · rintro ⟨s, hs, d, hd, hcovers⟩
    exact ⟨d, ⟨s, hs, hd⟩, hcovers⟩

namespace LineThrough

variable {draws others : List Draw} {x y : ℕ}

theorem append : LineThrough (draws ++ others) x y ↔ LineThrough draws x y ∨ LineThrough others x y := by
  unfold LineThrough
  simp only [List.mem_append, or_and_right, exists_or]

end LineThrough

/-! ## Windows -/

/-- The cells from one column to another and from one row to another, both included. -/
structure Window where
  left : ℕ
  right : ℕ
  top : ℕ
  bottom : ℕ

namespace Window

variable {w : Window} {p q corner : Point ℚ} {x y : ℕ}

def Holds (w : Window) (x y : ℕ) : Prop := w.left ≤ x ∧ x ≤ w.right ∧ w.top ≤ y ∧ y ≤ w.bottom

/-- The cell of the point is in the window. -/
def HoldsPoint (w : Window) (p : Point ℚ) : Prop := w.Holds (Scalar.cell p.x) (Scalar.cell p.y)

/-- Both ends of the line, or two opposite corners of the rectangle, are in the window. -/
def HoldsEnds (w : Window) : Draw → Prop
  | .horizontal x₀ x₁ y _ => w.Holds x₀ y ∧ w.Holds x₁ y
  | .vertical x y₀ y₁ _ => w.Holds x y₀ ∧ w.Holds x y₁
  | .rect x y x₂ y₂ _ => w.Holds x y ∧ w.Holds x₂ y₂

/-- What a call draws stays between its ends. -/
theorem holds_draw {d : Draw} (h : w.HoldsEnds d) {s : LineSegment} (hs : s ∈ d.segments)
    (hcovers : s.Covers x y) : w.Holds x y := by
  unfold HoldsEnds Holds at h
  unfold Holds
  cases d with
  | rect x y x₂ y₂ stroke =>
    simp only [Draw.segments, List.mem_cons, List.not_mem_nil, or_false] at hs
    obtain rfl | rfl | rfl | rfl := hs <;> unfold LineSegment.Covers at hcovers <;> omega
  | _ =>
    obtain rfl := List.mem_singleton.1 hs
    unfold LineSegment.Covers at hcovers
    omega

/-- A line stays between its ends. -/
theorem holds_line (hp : w.HoldsPoint p) (hq : w.HoldsPoint q) (h : LineThrough (lineDraws p q) x y) :
    w.Holds x y := by
  have hends : ∀ d ∈ lineDraws p q, w.HoldsEnds d := by
    unfold HoldsPoint Holds at hp hq
    unfold lineDraws
    split_ifs <;> simp only [List.forall_mem_cons, List.not_mem_nil, false_imp_iff, implies_true, and_true,
      HoldsEnds, Holds] <;> omega
  obtain ⟨d, hd, s, hs, hcovers⟩ := h
  exact holds_draw (hends d hd) hs hcovers

/-- A path stays between its points. -/
theorem holds_path {segments : List (Segment ℚ)}
    (h : ∀ p ∈ segments.flatMap Segment.points, w.HoldsPoint (corner.translate p.x p.y))
    (hp : w.HoldsPoint p) (hline : LineThrough (pathDraws corner p segments) x y) : w.Holds x y := by
  induction segments generalizing p with
  | nil => exact absurd hline (not_lineThrough_nil x y)
  | cons segment rest ih =>
    obtain ⟨hsegment, hrest⟩ := List.forall_mem_append.1 h
    cases segment with
    | moveTo q => exact ih hrest (hsegment q (.head _)) hline
    | lineTo q =>
      have hq := hsegment q (.head _)
      obtain hline | hline := LineThrough.append.1 hline
      · exact holds_line hp hq hline
      · exact ih hrest hq hline
    | quadTo control q =>
      have hcontrol := hsegment control (.head _)
      have hq := hsegment q (.tail _ (.head _))
      obtain hline | hline := LineThrough.append.1 hline
      · exact holds_line hp hcontrol hline
      · obtain hline | hline := LineThrough.append.1 hline
        · exact holds_line hcontrol hq hline
        · exact ih hrest hq hline

/-- The lines of a shape stay between its corners and the corner of the fragment. -/
theorem holds_shape {s : Shape ℚ} (hcorner : w.HoldsPoint corner)
    (h : ∀ p ∈ s.corners, w.HoldsPoint (corner.translate p.x p.y))
    (hline : LineThrough (s.draws corner) x y) : w.Holds x y := by
  cases s with
  | rect area radius dashed className =>
    have hfirst := h _ (.head _)
    have hlast := h _ (.tail _ (.head _))
    simp only [HoldsPoint, Point.translate, ← add_sub_assoc] at hfirst hlast
    obtain ⟨d, hd, s, hs, hcovers⟩ := hline
    obtain rfl := List.mem_singleton.1 hd
    refine holds_draw ?_ hs hcovers
    exact ⟨hfirst, hlast⟩
  | path segments className => exact holds_path h hcorner hline
  | _ => exact absurd hline (not_lineThrough_nil x y)

end Window

/-! ## Shapes on cells -/

section Shapes

variable {corner : Point ℚ} {x y : ℕ}

/-- A line needs points to go through. -/
theorem exists_corner {s : Shape ℚ} (h : LineThrough (s.draws corner) x y) : ∃ p, p ∈ s.corners := by
  cases s with
  | rect area radius dashed className => exact ⟨_, .head _⟩
  | path segments className =>
    cases segments with
    | nil => exact absurd h (not_lineThrough_nil x y)
    | cons segment rest => cases segment <;> exact ⟨_, .head _⟩
  | _ => exact absurd h (not_lineThrough_nil x y)

/-- The lines of a shape on cells reach no farther than its corners. -/
theorem Shape.OnCells.line_within {s : Shape ℚ} (hs : s.OnCells) (hcorner : corner.Whole) {right bottom : ℚ}
    (hreach : ∀ p ∈ s.corners, (0 ≤ p.x ∧ p.x ≤ right) ∧ 0 ≤ p.y ∧ p.y ≤ bottom)
    (hline : LineThrough (s.draws corner) x y) :
    (corner.x ≤ x ∧ (x : ℚ) ≤ corner.x + right) ∧ corner.y ≤ y ∧ (y : ℚ) ≤ corner.y + bottom := by
  obtain ⟨q, hq⟩ := exists_corner hline
  obtain ⟨⟨hleft, hright⟩, htop, hbottom⟩ := hreach q hq
  obtain ⟨⟨a, ha⟩, b, hb⟩ := hcorner
  let w : Window := ⟨a, ⌊corner.x + right⌋₊, b, ⌊corner.y + bottom⌋₊⟩
  have hpoint {p : Point ℚ} (hp : p.Whole) (hx : 0 ≤ p.x ∧ p.x ≤ right) (hy : 0 ≤ p.y ∧ p.y ≤ bottom) :
      w.HoldsPoint (corner.translate p.x p.y) := by
    obtain ⟨⟨m, hm⟩, n, hn⟩ := hp
    have hcells : Scalar.cell (corner.x + p.x) = a + m ∧ Scalar.cell (corner.y + p.y) = b + n := by
      rw [ha, hm, hb, hn, ← Nat.cast_add, ← Nat.cast_add, cell_natCast, cell_natCast]
      exact ⟨rfl, rfl⟩
    simp only [Window.HoldsPoint, Window.Holds, Point.translate, hcells, w]
    refine ⟨Nat.le_add_right _ _, Nat.le_floor ?_, Nat.le_add_right _ _, Nat.le_floor ?_⟩
    · rw [Nat.cast_add, ← ha, ← hm]
      linarith
    · rw [Nat.cast_add, ← hb, ← hn]
      linarith
  have horigin : corner.translate 0 0 = corner := by
    rw [Point.translate, add_zero, add_zero]
  have hfirst : w.HoldsPoint corner :=
    horigin ▸ hpoint (p := ⟨0, 0⟩) ⟨⟨0, Nat.cast_zero.symm⟩, ⟨0, Nat.cast_zero.symm⟩⟩
      ⟨le_rfl, hleft.trans hright⟩ ⟨le_rfl, htop.trans hbottom⟩
  obtain ⟨hxleft, hxright, hytop, hybottom⟩ := Window.holds_shape hfirst
    (fun p hp => hpoint (hs.corners p hp) (hreach p hp).1 (hreach p hp).2) hline
  have hx : 0 ≤ corner.x + right := by linarith [ha ▸ (Nat.cast_nonneg a : (0 : ℚ) ≤ a)]
  have hy : 0 ≤ corner.y + bottom := by linarith [hb ▸ (Nat.cast_nonneg b : (0 : ℚ) ≤ b)]
  refine ⟨⟨?_, (Nat.le_floor_iff hx).1 hxright⟩, ?_, (Nat.le_floor_iff hy).1 hybottom⟩
  · rw [ha]
    exact_mod_cast hxleft
  · rw [hb]
    exact_mod_cast hytop

/-- A level line goes through the cell where it ends. -/
theorem lineThrough_level {p q : Point ℚ} (hy : Scalar.cell p.y = Scalar.cell q.y)
    (hx : Scalar.cell p.x ≠ Scalar.cell q.x) :
    LineThrough (lineDraws p q) (Scalar.cell q.x) (Scalar.cell q.y) := by
  unfold lineDraws
  rw [if_pos hy]
  refine ⟨_, .head _, _, .head _, hx, hy.symm, ?_⟩
  omega

end Shapes

end RegexDiagram
