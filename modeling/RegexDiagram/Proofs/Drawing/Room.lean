import RegexDiagram.Proofs.Drawing.Placements
import RegexDiagram.Proofs.Geometry.Areas
import Mathlib.Tactic.NormNum

/-!
# Room

What the parts of a drawing need to stay apart. `Fragment.Orderly` says of one fragment that its
children lie side by side inside its box and that its own texts, arrowheads and terminals touch neither
each other nor the children. The order of fragments in a line, from left to right or from top to bottom,
is that of their offsets (`Spaced`).
-/

namespace RegexDiagram

open Pattern

/-! ## Distances and measures -/

/-- Distances that leave room for what is drawn: none is negative, and a stroke, whose width is that of
the inset, is not wider than the room that is left for it. -/
structure Spacing.Ample (c : Spacing ℚ) : Prop where
  stroke : 0 ≤ c.strokeInset
  labelX : c.strokeInset ≤ c.labelPaddingX
  labelY : c.strokeInset ≤ c.labelPaddingY
  hyphen : c.strokeInset ≤ 2 * c.snapped (c.labelPaddingX / 2)
  sequence : 0 ≤ c.sequenceGap
  branch : 0 ≤ c.branchGap
  indent : c.strokeInset ≤ c.branchIndent
  radius : c.strokeInset ≤ c.curveRadius
  group : 0 ≤ c.groupPadding
  caption : 0 ≤ c.captionGap
  terminal : 0 ≤ c.terminalRadius
  stub : c.strokeInset ≤ c.terminalStub
  margin : c.strokeInset ≤ c.margin
  positive : 0 < c.margin

theorem Spacing.ample_pixels : (pixels : Spacing ℚ).Ample := by
  constructor <;> simp only [pixels, snapped, rational_zero, rational_numeral] <;> norm_num

theorem Spacing.ample_cells : (cells : Spacing ℚ).Ample := by
  constructor <;>
    simp only [cells, snapped, rational_zero, rational_one, rational_numeral, rational_floor] <;>
    norm_num

theorem Spacing.ample_asciiCells : (asciiCells : Spacing ℚ).Ample := by
  obtain ⟨hstroke, hlabelX, hlabelY, hhyphen, hsequence, hbranch, hindent, hradius, hgroup, hcaption,
    hterminal, hstub, hmargin, hpositive⟩ := ample_cells
  exact ⟨hstroke, hlabelX, hlabelY, hhyphen, hsequence, hbranch, hindent, hradius, hgroup, hcaption,
    hterminal, hstub, hmargin, hpositive⟩

theorem CharacterSet.ample_spacing (set : CharacterSet) : (set.spacing : Spacing ℚ).Ample := by
  cases set with
  | ascii => exact Spacing.ample_asciiCells
  | unicode => exact Spacing.ample_cells

/-- No text has a negative extent. -/
def Measure.NonNegative (m : Measure ℚ) : Prop :=
  ∀ text extent, m text = .ok extent → 0 ≤ extent.width ∧ 0 ≤ extent.height

theorem Measure.NonNegative.extent {m : Measure ℚ} (h : m.NonNegative) (text : List Char) :
    0 ≤ (m.extent text).width ∧ 0 ≤ (m.extent text).height := by
  unfold Measure.extent
  split
  next extent hextent => exact h text extent hextent
  next => simp [Extent.zero]

/-! ## Order in a fragment -/

/-- A box at the origin, whose attachments lie between its edges. -/
structure Box.Attached (b : Box ℚ) : Prop where
  x : b.x = 0
  y : b.y = 0
  entry : 0 ≤ b.entry
  passage : b.entry ≤ b.exit
  exit : b.exit ≤ b.width
  top : 0 ≤ b.track
  bottom : b.track ≤ b.height

namespace Box.Attached

variable {b : Box ℚ}

theorem exit_nonneg (h : b.Attached) : 0 ≤ b.exit := h.entry.trans h.passage

theorem width_nonneg (h : b.Attached) : 0 ≤ b.width := h.exit_nonneg.trans h.exit

theorem height_nonneg (h : b.Attached) : 0 ≤ b.height := h.top.trans h.bottom

end Box.Attached

theorem Placed.area_box {p : Placed ℚ} (h : p.fragment.box.Attached) :
    p.box.area = ⟨p.offset.x, p.offset.y, p.fragment.box.width, p.fragment.box.height⟩ := by
  simp only [Placed.box, Box.translate, Box.area, h.x, h.y, zero_add]

/-- The areas that a shape needs for itself, lines apart. A text needs its extent; an arrowhead and a
terminal need a square as wide as a stroke, and so does the frame of a label on both sides of the
text. In pictures a stroke has no width. -/
def Shape.room (stroke : ℚ) : Shape ℚ → List (Rect ℚ)
  | .text origin extent _ _ => [⟨origin.x, origin.y, extent.width, extent.height⟩]
  | .arrow tip _ => [⟨tip.x, tip.y, stroke, stroke⟩]
  | .circle center _ _ => [⟨center.x, center.y, stroke, stroke⟩]
  | .rect area _ _ className =>
    if className = "label" then
      [⟨area.x, area.y + stroke, stroke, stroke⟩,
       ⟨area.x + area.width - stroke, area.y + stroke, stroke, stroke⟩]
    else []
  | .path .. => []

/-- The areas that the shapes of a fragment need. -/
def Fragment.room (stroke : ℚ) (f : Fragment ℚ) : List (Rect ℚ) :=
  f.shapes.flatMap (Shape.room stroke)

/-- A fragment keeps what is in it apart: its children from one another, and what its own shapes need
from each other and from the children, all of it inside its box. -/
structure Fragment.Orderly (stroke : ℚ) (f : Fragment ℚ) : Prop where
  attached : f.box.Attached
  inside : ∀ p ∈ f.children, p.box.area.Within f.box.area
  siblings : f.children.Pairwise fun p q => p.box.area.Apart q.box.area
  own : ∀ r ∈ f.room stroke, r.Within f.box.area ∧ ∀ p ∈ f.children, r.Apart p.box.area
  apart : (f.room stroke).Pairwise Rect.Apart

/-! ## The largest of several numbers -/

theorem foldl_max_le {xs : List ℚ} {a b : ℚ} :
    xs.foldl Scalar.max a ≤ b ↔ a ≤ b ∧ ∀ x ∈ xs, x ≤ b := by
  induction xs generalizing a with
  | nil => simp
  | cons x rest ih =>
    rw [List.foldl_cons, ih, List.forall_mem_cons, rational_max, max_le_iff, and_assoc]

theorem le_foldl_max (xs : List ℚ) (a : ℚ) : a ≤ xs.foldl Scalar.max a :=
  (foldl_max_le.1 le_rfl).1

theorem le_foldl_max_of_mem {xs : List ℚ} {x : ℚ} (h : x ∈ xs) (a : ℚ) :
    x ≤ xs.foldl Scalar.max a :=
  (foldl_max_le.1 le_rfl).2 x h

namespace Railroad

variable {c : Spacing ℚ} {m : Measure ℚ}

theorem widest_nonneg (fragments : List (Fragment ℚ)) : 0 ≤ widest fragments := by
  rw [widest, rational_zero]
  exact le_foldl_max _ 0

theorem le_widest {f : Fragment ℚ} {fragments : List (Fragment ℚ)} (h : f ∈ fragments) :
    f.box.width ≤ widest fragments :=
  le_foldl_max_of_mem (List.mem_map_of_mem h) _

/-! ## Fragments in a line -/

/-- Placed fragments in a line along one axis from `start` to `stop`, with a gap after each. -/
structure Spaced (position size : Placed ℚ → ℚ) (gap start stop : ℚ) (placed : List (Placed ℚ)) :
    Prop where
  start_le : start ≤ stop
  between : ∀ p ∈ placed, start ≤ position p ∧ position p + (size p + gap) ≤ stop
  ordered : placed.Pairwise fun p q => position p + (size p + gap) ≤ position q

theorem Spaced.cons {position size : Placed ℚ → ℚ} {gap start stop : ℚ} {p : Placed ℚ}
    {placed : List (Placed ℚ)} (hgap : 0 ≤ gap) (hp : position p = start) (hsize : 0 ≤ size p)
    (h : Spaced position size gap (start + (size p + gap)) stop placed) :
    Spaced position size gap start stop (p :: placed) where
  start_le := by linarith [h.start_le]
  between := by
    refine List.forall_mem_cons.2 ⟨⟨hp.ge, hp ▸ h.start_le⟩, fun q hq => ?_⟩
    have hbetween := h.between q hq
    exact ⟨by linarith, hbetween.2⟩
  ordered := by
    refine .cons (fun q hq => ?_) h.ordered
    have hbetween := h.between q hq
    linarith

theorem Spaced.apart_beside {gap start stop : ℚ} (hgap : 0 ≤ gap) {placed : List (Placed ℚ)}
    (h : Spaced (·.offset.x) (·.fragment.box.width) gap start stop placed)
    (hattached : ∀ p ∈ placed, p.fragment.box.Attached) :
    placed.Pairwise fun p q => p.box.area.Apart q.box.area :=
  h.ordered.imp_of_mem fun {p q} hp hq hle => by
    rw [Placed.area_box (hattached p hp), Placed.area_box (hattached q hq)]
    refine Rect.apart_of_beside ?_
    simp only [Rect.right]
    linarith

theorem Spaced.apart_above {gap start stop : ℚ} (hgap : 0 ≤ gap) {placed : List (Placed ℚ)}
    (h : Spaced (·.offset.y) (·.fragment.box.height) gap start stop placed)
    (hattached : ∀ p ∈ placed, p.fragment.box.Attached) :
    placed.Pairwise fun p q => p.box.area.Apart q.box.area :=
  h.ordered.imp_of_mem fun {p q} hp hq hle => by
    rw [Placed.area_box (hattached p hp), Placed.area_box (hattached q hq)]
    refine Rect.apart_of_above ?_
    simp only [Rect.bottom]
    linarith

theorem spaced_stack (hc : c.Ample) (left : Fragment ℚ → ℚ) (y : ℚ) {fragments : List (Fragment ℚ)}
    (h : ∀ f ∈ fragments, f.box.Attached) :
    Spaced (·.offset.y) (·.fragment.box.height) c.branchGap y (stack c left y fragments).2
      (stack c left y fragments).1 := by
  induction fragments generalizing y with
  | nil => exact ⟨le_rfl, fun p hp => absurd hp List.not_mem_nil, .nil⟩
  | cons f rest ih =>
    obtain ⟨hf, hrest⟩ := List.forall_mem_cons.1 h
    exact .cons hc.branch rfl hf.height_nonneg (ih _ hrest)

theorem spaced_row (hc : c.Ample) (track x : ℚ) {fragments : List (Fragment ℚ)}
    (h : ∀ f ∈ fragments, f.box.Attached) :
    Spaced (·.offset.x) (·.fragment.box.width) c.sequenceGap x (row c track x fragments).2
      (row c track x fragments).1 := by
  induction fragments generalizing x with
  | nil => exact ⟨le_rfl, fun p hp => absurd hp List.not_mem_nil, .nil⟩
  | cons f rest ih =>
    obtain ⟨hf, hrest⟩ := List.forall_mem_cons.1 h
    exact .cons hc.sequence rfl hf.width_nonneg (ih _ hrest)

theorem stack_placed (left : Fragment ℚ → ℚ) (y : ℚ) (fragments : List (Fragment ℚ)) :
    ∀ p ∈ (stack c left y fragments).1, p.fragment ∈ fragments ∧ p.offset.x = left p.fragment := by
  induction fragments generalizing y with
  | nil => exact fun p hp => absurd hp List.not_mem_nil
  | cons f rest ih =>
    exact List.forall_mem_cons.2
      ⟨⟨.head _, rfl⟩, fun p hp => ⟨.tail _ (ih _ p hp).1, (ih _ p hp).2⟩⟩

theorem row_placed (track x : ℚ) (fragments : List (Fragment ℚ)) :
    ∀ p ∈ (row c track x fragments).1,
      p.fragment ∈ fragments ∧ p.offset.y = track - p.fragment.box.track := by
  induction fragments generalizing x with
  | nil => exact fun p hp => absurd hp List.not_mem_nil
  | cons f rest ih =>
    exact List.forall_mem_cons.2
      ⟨⟨.head _, rfl⟩, fun p hp => ⟨.tail _ (ih _ p hp).1, (ih _ p hp).2⟩⟩

end Railroad

end RegexDiagram
