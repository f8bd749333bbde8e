import RegexDiagram.Proofs.Canvas.Painting
import RegexDiagram.Proofs.Drawing.Upright

/-!
# Whole cells

A drawing in cells has whole numbers only, so its corners and all positions in the drawing are whole
too. Painting turns positions into cells with `Scalar.cell`, which takes a missing or negative number for
zero and rounds the others. Here it does neither: any other conversion that leaves natural numbers alone
paints the same grid.
-/

namespace RegexDiagram

open Pattern

/-- The rational numbers with another way of turning positions into cells. -/
abbrev converting (convert : ℚ → ℕ) : Scalar ℚ := { (inferInstance : Scalar ℚ) with cell := convert }

/-! ## Positions -/

/-- The coordinates of the point are whole. -/
structure Point.Whole (p : Point ℚ) : Prop where
  x : RegexDiagram.Whole p.x
  y : RegexDiagram.Whole p.y

theorem Point.whole_origin : (origin : Point ℚ).Whole := ⟨⟨0, rfl⟩, ⟨0, rfl⟩⟩

theorem Point.Whole.translate {p q : Point ℚ} (hp : p.Whole) (hq : q.Whole) :
    (p.translate q.x q.y).Whole :=
  ⟨hp.x.add hq.x, hp.y.add hq.y⟩

/-- All positions that a shape is painted from are whole. -/
structure Shape.OnCells (s : Shape ℚ) : Prop where
  numbers : ∀ x ∈ s.numbers, Whole x
  corners : ∀ p ∈ s.corners, p.Whole

namespace Canvas

variable (set : CharacterSet) {convert : ℚ → ℕ}

mutual

/-- Where the parts of a fragment lie does not depend on the conversion. -/
theorem paintFragment_converting (paint : Point ℚ → Grid → Shape ℚ → Grid) (origin : Point ℚ) (g : Grid) :
    ∀ f : Fragment ℚ,
      @paintFragment ℚ (converting convert) paint origin g f = paintFragment paint origin g f
  | ⟨_, _, shapes, children⟩ => paintChildren_converting paint origin (shapes.foldl (paint origin) g) children

theorem paintChildren_converting (paint : Point ℚ → Grid → Shape ℚ → Grid) (origin : Point ℚ) (g : Grid) :
    ∀ children : List (Placed ℚ),
      @paintChildren ℚ (converting convert) paint origin g children = paintChildren paint origin g children
  | [] => rfl
  | ⟨offset, fragment⟩ :: rest => by
    have hfirst := paintFragment_converting paint (origin.translate offset.x offset.y) g fragment
    have hrest := paintChildren_converting paint origin
      (paintFragment paint (origin.translate offset.x offset.y) g fragment) rest
    exact (congrArg (@paintChildren ℚ (converting convert) paint origin · rest) hfirst).trans hrest

end

section Converting

variable (hconvert : ∀ n : ℕ, convert n = n)
include hconvert

/-- On whole numbers all conversions agree. -/
theorem convert_eq {x : ℚ} (h : Whole x) : convert x = Scalar.cell x := by
  obtain ⟨n, rfl⟩ := h
  rw [hconvert, cell_natCast]

theorem paintLine_converting {p q : Point ℚ} (hp : p.Whole) (hq : q.Whole) (g : Grid) :
    @paintLine ℚ (converting convert) set g p q = paintLine set g p q := by
  have hcells : (convert p.x, convert p.y, convert q.x, convert q.y) =
      (Scalar.cell p.x, Scalar.cell p.y, Scalar.cell q.x, Scalar.cell q.y) := by
    rw [convert_eq hconvert hp.x, convert_eq hconvert hp.y, convert_eq hconvert hq.x,
      convert_eq hconvert hq.y]
  simp only [Prod.mk.injEq] at hcells
  obtain ⟨hpx, hpy, hqx, hqy⟩ := hcells
  unfold paintLine
  simp only [← hpx, ← hpy, ← hqx, ← hqy]
  rfl

theorem paintSegments_converting {origin : Point ℚ} (horigin : origin.Whole) {segments : List (Segment ℚ)}
    (h : ∀ p ∈ segments.flatMap Segment.points, p.Whole) (g : Grid) {current : Point ℚ}
    (hcurrent : current.Whole) :
    segments.foldl (@paintSegment ℚ (converting convert) set origin) (g, current) =
      segments.foldl (paintSegment set origin) (g, current) := by
  induction segments generalizing g current with
  | nil => rfl
  | cons segment rest ih =>
    obtain ⟨hsegment, hrest⟩ := List.forall_mem_append.1 h
    rw [List.foldl_cons, List.foldl_cons]
    cases segment with
    | moveTo p =>
      exact ih hrest g (horigin.translate (hsegment p (.head _)))
    | lineTo p =>
      have hnext := horigin.translate (hsegment p (.head _))
      have hstep : @paintSegment ℚ (converting convert) set origin (g, current) (.lineTo p) =
          paintSegment set origin (g, current) (.lineTo p) :=
        congrArg (·, _) (paintLine_converting set hconvert hcurrent hnext g)
      rw [hstep]
      exact ih hrest _ hnext
    | quadTo control p =>
      have hbend := horigin.translate (hsegment control (.head _))
      have hnext := horigin.translate (hsegment p (.tail _ (.head _)))
      have hstep : @paintSegment ℚ (converting convert) set origin (g, current) (.quadTo control p) =
          paintSegment set origin (g, current) (.quadTo control p) := by
        have hfirst := paintLine_converting set hconvert hcurrent hbend g
        have hsecond := paintLine_converting set hconvert hbend hnext
          (paintLine set g current (origin.translate control.x control.y))
        exact congrArg (·, _) ((congrArg (@paintLine ℚ (converting convert) set · _ _) hfirst).trans hsecond)
      rw [hstep]
      exact ih hrest _ hnext

/-- A shape on cells has the same lines and the same marks with any conversion. -/
theorem paintShape_converting [TerminalWidths] {origin : Point ℚ} (horigin : origin.Whole) {s : Shape ℚ}
    (hs : s.OnCells)
    (g : Grid) :
    @paintShapeLines ℚ (converting convert) set origin g s = paintShapeLines set origin g s ∧
      @paintShapeMarks ℚ (converting convert) set _ origin g s = paintShapeMarks set origin g s := by
  obtain ⟨hnumbers, hcorners⟩ := hs
  have hpoint (p : Point ℚ) (hx : Whole p.x) (hy : Whole p.y) :
      convert (origin.x + p.x) = Scalar.cell (origin.x + p.x) ∧
        convert (origin.y + p.y) = Scalar.cell (origin.y + p.y) :=
    ⟨convert_eq hconvert (horigin.x.add hx), convert_eq hconvert (horigin.y.add hy)⟩
  cases s with
  | rect area radius dashed className =>
    have hfirst := hcorners _ (.head _)
    have hlast := hcorners _ (.tail _ (.head _))
    obtain ⟨hx, hy⟩ := hpoint ⟨area.x, area.y⟩ hfirst.x hfirst.y
    obtain ⟨hright, hbottom⟩ := hpoint ⟨area.right - 1, area.bottom - 1⟩ hlast.x hlast.y
    simp only [← add_sub_assoc] at hx hy hright hbottom
    refine ⟨?_, rfl⟩
    show g.drawRect set (convert (origin.x + area.x)) (convert (origin.y + area.y))
      (convert (origin.x + area.right - 1)) (convert (origin.y + area.bottom - 1)) _ = _
    rw [hx, hy, hright, hbottom]
    rfl
  | text at_ extent text className =>
    have hplace := hpoint at_ (hnumbers _ (.head _)) (hnumbers _ (.tail _ (.head _)))
    refine ⟨rfl, ?_⟩
    show g.drawText (convert (origin.x + at_.x)) (convert (origin.y + at_.y)) text = _
    rw [hplace.1, hplace.2]
    rfl
  | path segments className =>
    exact ⟨congrArg Prod.fst (paintSegments_converting set hconvert horigin hcorners g horigin), rfl⟩
  | circle center radius className =>
    have hplace := hpoint center (hnumbers _ (.head _)) (hnumbers _ (.tail _ (.head _)))
    refine ⟨rfl, ?_⟩
    show g.setChar (convert (origin.x + center.x)) (convert (origin.y + center.y)) _ = _
    rw [hplace.1, hplace.2]
    rfl
  | arrow tip direction =>
    have hplace := hpoint tip (hnumbers _ (.head _)) (hnumbers _ (.tail _ (.head _)))
    refine ⟨rfl, ?_⟩
    show g.setChar (convert (origin.x + tip.x)) (convert (origin.y + tip.y)) _ = _
    rw [hplace.1, hplace.2]
    rfl

/-- Shapes on cells are painted alike by any conversion. -/
theorem paint_converting [TerminalWidths] {d : Drawing ℚ} (hwidth : Whole d.width) (hheight : Whole d.height)
    (h : ∀ s ∈ d.fragment.shapesAt .origin, s.1.Whole ∧ s.2.OnCells) :
    @paint ℚ (converting convert) set _ d = paint set d := by
  have hlines (g : Grid) : @paintFragment ℚ (converting convert)
      (@paintShapeLines ℚ (converting convert) set) .origin g d.fragment =
        paintFragment (paintShapeLines set) .origin g d.fragment := by
    rw [paintFragment_converting, paintFragment_eq, paintFragment_eq]
    exact List.foldl_ext _ _ _ fun g s hs =>
      (paintShape_converting set hconvert (h s hs).1 (h s hs).2 g).1
  have hmarks (g : Grid) : @paintFragment ℚ (converting convert)
      (@paintShapeMarks ℚ (converting convert) set _) .origin g d.fragment =
        paintFragment (paintShapeMarks set) .origin g d.fragment := by
    rw [paintFragment_converting, paintFragment_eq, paintFragment_eq]
    exact List.foldl_ext _ _ _ fun g s hs =>
      (paintShape_converting set hconvert (h s hs).1 (h s hs).2 g).2
  have hblank : Grid.blank (convert d.width) (convert d.height) =
      Grid.blank (Scalar.cell d.width) (Scalar.cell d.height) := by
    rw [convert_eq hconvert hwidth, convert_eq hconvert hheight]
  have hpainted := (hmarks _).trans (congrArg (paintFragment (paintShapeMarks set) .origin · d.fragment)
    (hlines (Grid.blank (convert d.width) (convert d.height))))
  exact hpainted.trans (congrArg (fun g => paintFragment (paintShapeMarks set) .origin
    (paintFragment (paintShapeLines set) .origin g d.fragment) d.fragment) hblank)

end Converting

end Canvas

/-! ## Drawings -/

/-- If all numbers of a fragment and of those in it are whole, so are the corners of all of them. -/
theorem Fragment.placements_whole {f : Fragment ℚ} (h : ∀ g ∈ f.descendants, ∀ x ∈ g.numbers, Whole x)
    {origin : Point ℚ} (horigin : origin.Whole) : ∀ p ∈ f.placements origin, p.offset.Whole := by
  induction f using Fragment.induct generalizing origin with
  | h f ih =>
    obtain ⟨hown, hparts⟩ := forall_descendants.1 h
    rw [placements_eq]
    refine List.forall_mem_cons.2 ⟨horigin, fun q hq => ?_⟩
    obtain ⟨p, hp, hq⟩ := List.mem_flatMap.1 hq
    have hoffset : ∀ x ∈ p.offset.numbers, Whole x := fun x hx =>
      hown x (List.mem_append_right _ (List.mem_flatMap.2 ⟨p, hp, hx⟩))
    have hcorner := horigin.translate ⟨hoffset _ (.head _), hoffset _ (.tail _ (.head _))⟩
    exact ih p hp (hparts _ (List.mem_map_of_mem hp)) hcorner q hq

/-- The shapes of an upright fragment with whole numbers are on cells. -/
theorem Fragment.Upright.onCells {f : Fragment ℚ} (h : f.Upright) (hnumbers : ∀ x ∈ f.numbers, Whole x)
    {s : Shape ℚ} (hs : s ∈ f.shapes) : s.OnCells := by
  have hown : ∀ x ∈ s.numbers, Whole x := fun x hx =>
    hnumbers x (List.mem_append_left _ (List.mem_append_right _ (List.mem_flatMap.2 ⟨s, hs, hx⟩)))
  obtain ⟨right, bottom, hreach⟩ := h.reach
  have hcorner {p : Point ℚ} (hp : p ∈ s.corners) := hreach p (List.mem_flatMap.2 ⟨s, hs, hp⟩)
  refine ⟨hown, ?_⟩
  cases s with
  | rect area radius dashed className =>
    have hx := hown _ (.head _)
    have hy := hown _ (.tail _ (.head _))
    have hwidth := hown _ (.tail _ (.tail _ (.head _)))
    have hheight := hown _ (.tail _ (.tail _ (.tail _ (.head _))))
    obtain ⟨⟨hright, -⟩, hbottom, -⟩ := hcorner (.tail _ (.head _))
    refine List.forall_mem_cons.2 ⟨⟨hx, hy⟩, List.forall_mem_singleton.2 ⟨?_, ?_⟩⟩
    · exact ((hx.integral.add hwidth.integral).sub .one).whole hright
    · exact ((hy.integral.add hheight.integral).sub .one).whole hbottom
  | path segments className =>
    exact fun p hp => ⟨hown _ (List.mem_flatMap.2 ⟨p, hp, .head _⟩),
      hown _ (List.mem_flatMap.2 ⟨p, hp, .tail _ (.head _)⟩)⟩
  | _ => exact fun p hp => absurd hp List.not_mem_nil

namespace Pattern

/-- **A drawing in text stands on whole cells.** Whatever the widths, for every tree and both character sets
every number of the drawing is a natural number, texts that cannot be measured included; so turning positions
into cells neither rounds nor clamps anything, and the drawing is painted alike by every conversion that
leaves natural numbers as they are. -/
theorem Root.stands_on_cells [TerminalWidths] (root : Root) (set : CharacterSet) :
    let d : Drawing ℚ := root.drawing set.spacing .cells
    (∀ x ∈ d.numbers, ∃ n : ℕ, x = n) ∧
      ∀ convert : ℚ → ℕ, (∀ n : ℕ, convert n = n) →
        @Canvas.paint ℚ (converting convert) set _ d = Canvas.paint set d := by
  intro d
  have hnumbers := root.whole_numbers set
  refine ⟨hnumbers, fun convert hconvert => ?_⟩
  obtain ⟨hwidth, hrest⟩ := List.forall_mem_cons.1 hnumbers
  obtain ⟨hheight, -⟩ := List.forall_mem_cons.1 hrest
  have hfragment := root.whole_fragments set
  refine Canvas.paint_converting set hconvert hwidth hheight fun s hs => ?_
  obtain ⟨p, hp, hcorner, hshape⟩ := Fragment.mem_shapesAt.1 hs
  have hmem := Fragment.mem_descendants hp
  exact ⟨hcorner ▸ Fragment.placements_whole hfragment Point.whole_origin p hp,
    (root.integral_upright set _ hmem).2.onCells (hfragment _ hmem) hshape⟩

end Pattern

end RegexDiagram
