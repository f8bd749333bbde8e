import RegexDiagram.Proofs.Drawing.Numbers

/-!
# Whole numbers in drawings

In character cells no number of a drawing is negative: this follows from the order of the fragments and
from how far their lines reach, and from the lengths of their shapes. With `Fragment.Integral` it gives
`Root.whole_numbers`: every number of a drawing in cells is a natural number.
-/

namespace RegexDiagram

open Pattern

/-! ## Numbers that are not negative -/

/-- The lengths of a shape, which do not depend on where it lies. -/
def Shape.lengths : Shape ℚ → List ℚ
  | .rect area radius _ _ => [area.width, area.height, radius]
  | .text _ extent _ _ => [extent.width, extent.height, extent.baseline]
  | .circle _ radius _ => [radius]
  | .path .. | .arrow .. => []

/-- A fragment is in order, its lines do not reach beyond its corner, and no length is negative. -/
structure Fragment.Upright (f : Fragment ℚ) : Prop where
  orderly : f.Orderly 1
  reach : ∃ right bottom, Reach f.shapes right bottom
  lengths : ∀ x ∈ f.shapes.flatMap Shape.lengths, 0 ≤ x

namespace Fragment

/-- The children of a fragment of a drawing are fragments of the drawing. -/
theorem mem_descendants_child {f g : Fragment ℚ} (hg : g ∈ f.descendants) {p : Placed ℚ}
    (hp : p ∈ g.children) : p.fragment ∈ f.descendants := by
  induction f using Fragment.induct with
  | h f ih =>
    rw [descendants_eq] at hg ⊢
    refine .tail _ (List.mem_flatMap.2 ?_)
    obtain rfl | hg := List.mem_cons.1 hg
    · exact ⟨p, hp, descendants_eq p.fragment ▸ .head _⟩
    · obtain ⟨q, hq, hg⟩ := List.mem_flatMap.1 hg
      exact ⟨q, hq, ih q hq hg⟩

/-- Where an own mark of a fragment lies. -/
theorem Orderly.mark_nonneg {f : Fragment ℚ} (h : f.Orderly 1) {s : Shape ℚ} (hs : s ∈ f.shapes)
    {p : Point ℚ} {width height : ℚ} (hroom : ⟨p.x, p.y, width, height⟩ ∈ s.room 1) :
    0 ≤ p.x ∧ 0 ≤ p.y := by
  obtain ⟨hleft, htop, -, -⟩ := (h.own _ (List.mem_flatMap.2 ⟨s, hs, hroom⟩)).1
  simp only [Box.area, h.attached.x, h.attached.y] at hleft htop
  exact ⟨hleft, htop⟩

theorem Upright.shape_nonneg {f : Fragment ℚ} (h : f.Upright) {s : Shape ℚ} (hs : s ∈ f.shapes) :
    ∀ x ∈ s.numbers, 0 ≤ x := by
  obtain ⟨horderly, ⟨right, bottom, hreach⟩, hlengths⟩ := h
  have hlength : ∀ x ∈ s.lengths, 0 ≤ x := fun x hx => hlengths x (List.mem_flatMap.2 ⟨s, hs, hx⟩)
  have hcorner : ∀ p ∈ s.corners, 0 ≤ p.x ∧ 0 ≤ p.y := fun p hp =>
    have hp := hreach p (List.mem_flatMap.2 ⟨s, hs, hp⟩)
    ⟨hp.1.1, hp.2.1⟩
  have hpoint {p : Point ℚ} (hp : 0 ≤ p.x ∧ 0 ≤ p.y) : ∀ x ∈ p.numbers, 0 ≤ x :=
    List.forall_mem_cons.2 ⟨hp.1, List.forall_mem_singleton.2 hp.2⟩
  cases s with
  | rect area radius dashed className =>
    obtain ⟨hx, hy⟩ := hcorner _ (.head _)
    exact List.forall_mem_cons.2 ⟨hx, List.forall_mem_cons.2 ⟨hy, hlength⟩⟩
  | text origin extent words className =>
    exact List.forall_mem_append.2 ⟨hpoint (horderly.mark_nonneg hs (.head _)), hlength⟩
  | path segments className =>
    intro x hx
    obtain ⟨p, hp, hx⟩ := List.mem_flatMap.1 hx
    exact hpoint (hcorner p hp) x hx
  | circle center radius className =>
    exact List.forall_mem_append.2 ⟨hpoint (horderly.mark_nonneg hs (.head _)), hlength⟩
  | arrow tip direction => exact hpoint (horderly.mark_nonneg hs (.head _))

theorem Upright.numbers_nonneg {f : Fragment ℚ} (h : f.Upright)
    (hchildren : ∀ p ∈ f.children, p.fragment.box.Attached) : ∀ x ∈ f.numbers, 0 ≤ x := by
  have hbox := h.orderly.attached
  refine List.forall_mem_append.2 ⟨List.forall_mem_append.2 ⟨?_, fun x hx => ?_⟩, fun x hx => ?_⟩
  · simp only [Box.numbers, List.forall_mem_cons, List.not_mem_nil, false_imp_iff, implies_true, and_true]
    exact ⟨hbox.x.ge, hbox.y.ge, hbox.width_nonneg, hbox.height_nonneg, hbox.entry, hbox.exit_nonneg,
      hbox.top⟩
  · obtain ⟨s, hs, hx⟩ := List.mem_flatMap.1 hx
    exact h.shape_nonneg hs x hx
  · obtain ⟨p, hp, hx⟩ := List.mem_flatMap.1 hx
    obtain ⟨hleft, htop, -, -⟩ := h.orderly.inside p hp
    rw [Placed.area_box (hchildren p hp)] at hleft htop
    simp only [Box.area, hbox.x, hbox.y] at hleft htop
    obtain rfl | hx := List.mem_cons.1 hx
    · exact hleft
    · exact List.mem_singleton.1 hx ▸ htop

end Fragment

namespace Railroad

variable {c : Spacing ℚ} {m : Measure ℚ}

theorem lengths_rowConnectors (track : ℚ) (placed : List (Placed ℚ)) :
    (rowConnectors track placed).flatMap Shape.lengths = [] :=
  List.flatMap_eq_nil_iff.2 fun s hs => by
    obtain ⟨p, q, rfl⟩ := track_of_mem_rowConnectors hs
    rfl

theorem lengths_branchConnectors (b : Box ℚ) (mid right : ℚ) :
    (branchConnectors c b mid right).flatMap Shape.lengths = [] :=
  List.flatMap_eq_nil_iff.2 fun s hs => by
    obtain ⟨segments, rfl⟩ := connector_of_mem_branchConnectors hs
    rfl

/-- No branch has its track below the column. -/
theorem track_le_branchesHeight (hample : c.Ample) {branches : List (Fragment ℚ)}
    (h : ∀ f ∈ branches, f.box.Attached) {p : Placed ℚ}
    (hp : p ∈ (column c c.branchIndent 0 branches).1) : p.box.track ≤ branchesHeight c branches := by
  have hbox := h _ (mem_of_column hp)
  obtain ⟨-, -, -, hbottom⟩ := (orderly_alternatives hample h).inside p hp
  rw [Placed.area_box hbox, box_alternatives] at hbottom
  simp only [Box.area, Box.sized, Rect.bottom, rational_zero] at hbottom
  simp only [Placed.box, Box.translate]
  linarith [hbox.bottom]

variable (hc : c.Gridded) (hample : c.Ample) (hm : m.NonNegative)
  (hbaseline : ∀ text, 0 ≤ (m.extent text).baseline)
include hc hample hm hbaseline

theorem upright_labelBox (className : String) (text : List Char) :
    (labelBox c m className text).Upright := by
  obtain ⟨hwidth, hheight⟩ := hm.extent text
  refine ⟨hc.strokeInset ▸ orderly_labelBox hample hm className text,
    ⟨_, _, reach_labelBox hc hm className text⟩, ?_⟩
  simp only [labelBox, List.flatMap_cons, List.flatMap_nil, Shape.lengths, List.append_nil, List.cons_append,
    List.nil_append, List.forall_mem_cons, List.not_mem_nil, false_imp_iff, implies_true, and_true,
    hc.labelPaddingX, hc.labelPaddingY, hc.labelRadius, rational_numeral]
  exact ⟨by linarith, by linarith, le_rfl, hwidth, hheight, hbaseline text⟩

theorem upright_charset (negated : Bool) {members : List (Fragment ℚ)}
    (h : ∀ f ∈ members, f.box.Attached) : (charset c m negated members).Upright := by
  obtain ⟨hwidth, hheight⟩ := hm.extent (charsetCaption negated)
  have hinner := widest_nonneg members
  have hclass := classHeight_nonneg m negated hample h
  refine ⟨hc.strokeInset ▸ orderly_charset hample hm h, ⟨_, _, reach_charset hc hample hm negated h⟩, ?_⟩
  have hlengths : (charset c m negated members).shapes.flatMap Shape.lengths =
      [(m.extent (charsetCaption negated)).width, (m.extent (charsetCaption negated)).height,
       (m.extent (charsetCaption negated)).baseline, widest members + 2 * c.labelPaddingX,
       classHeight c m negated members, 0] := rfl
  rw [hlengths]
  simp only [List.forall_mem_cons, List.not_mem_nil, false_imp_iff, implies_true, and_true, hc.labelPaddingX]
  exact ⟨hwidth, hheight, hbaseline _, by linarith, hclass, le_rfl⟩

theorem upright_frame (caption : List Char) {content : Fragment ℚ} (h : content.box.Attached) :
    (frame c m caption content).Upright := by
  obtain ⟨hwidth, hheight⟩ := hm.extent caption
  refine ⟨hc.strokeInset ▸ orderly_frame hample hm h, ⟨_, _, reach_frame hc hm caption h⟩, ?_⟩
  have hlengths : (frame c m caption content).shapes.flatMap Shape.lengths =
      [(m.extent caption).width, (m.extent caption).height, (m.extent caption).baseline,
       frameWidth c m caption content, content.box.height + 2 * c.groupPadding, 0] := rfl
  have hframe : 0 ≤ frameWidth c m caption content := hwidth.trans (le_max_left _ _)
  have hinner := h.height_nonneg
  rw [hlengths]
  simp only [List.forall_mem_cons, List.not_mem_nil, false_imp_iff, implies_true, and_true, hc.groupPadding]
  exact ⟨hwidth, hheight, hbaseline _, hframe, by linarith, le_rfl⟩

theorem upright_range {first last : Fragment ℚ} (hfirst : first.box.Attached)
    (hlast : last.box.Attached) : (range c m first last).Upright := by
  obtain ⟨hwidth, hheight⟩ := hm.extent ['-']
  refine ⟨hc.strokeInset ▸ orderly_range hample hm hfirst hlast, ⟨0, 0, reach_range first last 0 0⟩, ?_⟩
  exact List.forall_mem_cons.2 ⟨hwidth, List.forall_mem_cons.2 ⟨hheight,
    List.forall_mem_singleton.2 (hbaseline _)⟩⟩

omit hc hample in
theorem lengths_repetition (r : Repetition) (inner : Fragment ℚ) :
    ∀ x ∈ (repetition c m r inner).shapes.flatMap Shape.lengths, 0 ≤ x := by
  have hlengths : (repetition c m r inner).shapes.flatMap Shape.lengths =
      (captionShapes c m r inner).flatMap Shape.lengths := by
    have hskip : (skipShapes c m r inner).flatMap Shape.lengths = [] := by
      unfold skipShapes
      cases r.canSkip <;> cases r.greedy <;> rfl
    have hloop : (loopShapes c r inner).flatMap Shape.lengths = [] := by
      unfold loopShapes
      cases r.canRepeat <;> cases r.greedy <;> rfl
    rw [shapes_repetition, List.flatMap_cons, List.flatMap_cons, List.flatMap_append, List.flatMap_append,
      hskip, hloop]
    rfl
  rw [hlengths]
  unfold captionShapes
  cases hcaption : lapCaption c m r inner with
  | none => exact fun x hx => absurd hx List.not_mem_nil
  | some caption =>
    obtain ⟨label, -, rfl⟩ := Option.map_eq_some_iff.1 hcaption
    obtain ⟨hwidth, hheight⟩ := hm.extent (c.shown label)
    exact List.forall_mem_cons.2 ⟨hwidth, List.forall_mem_cons.2 ⟨hheight,
      List.forall_mem_singleton.2 (hbaseline _)⟩⟩

theorem drawnClosed_upright : DrawnClosed c m Fragment.Upright where
  label className _ text := upright_labelBox hc hample hm hbaseline className text
  sequence parts hparts := by
    match parts, hparts with
    | [], _ =>
      exact ⟨hc.strokeInset ▸ orderly_sequence_nil, ⟨0, 0, Reach.nil _ _⟩,
        fun x hx => absurd hx List.not_mem_nil⟩
    | [only], hparts => exact hparts only (.head _)
    | first :: second :: rest, hparts =>
      have hattached := fun f hf => (hparts f hf).orderly.attached
      obtain ⟨last, -, hlast, -⟩ := series_last hample hattached
      refine ⟨hc.strokeInset ▸ orderly_sequence hample hattached,
        ⟨_, _, reach_sequence hample hattached hlast⟩, ?_⟩
      have hlengths := lengths_rowConnectors (rowTrack (first :: second :: rest))
        (series c (first :: second :: rest)).1
      exact fun x hx => absurd (hlengths ▸ hx) List.not_mem_nil
  alternatives branches h := by
    have hattached := fun f hf => (h f hf).orderly.attached
    have horderly := orderly_alternatives hample hattached
    refine ⟨hc.strokeInset ▸ horderly, ⟨_, _, reach_alternatives hc hample hattached
      (c.snapped_half (le_max_right _ _)).2 fun p hp => track_le_branchesHeight hample hattached hp⟩, ?_⟩
    rw [alternatives, List.flatMap_assoc]
    refine fun x hx => absurd hx ?_
    simp only [List.mem_flatMap, lengths_branchConnectors, List.not_mem_nil, and_false, exists_false,
      not_false_eq_true]
  range _ _ hfirst hlast :=
    upright_range hc hample hm hbaseline hfirst.orderly.attached hlast.orderly.attached
  charset negated _ h := upright_charset hc hample hm hbaseline negated fun f hf => (h f hf).orderly.attached
  frame _ _ caption _ _ h := upright_frame hc hample hm hbaseline caption h.orderly.attached
  repetition r inner h :=
    ⟨hc.strokeInset ▸ orderly_repetition hample h.orderly.attached,
      ⟨_, _, reach_repetition hc hample m h.orderly.attached⟩, lengths_repetition hm hbaseline r inner⟩

theorem upright_drawing (flags : List Char) {content : Fragment ℚ} (h : content.box.Attached) :
    (drawing c m flags content).fragment.Upright := by
  refine ⟨hc.strokeInset ▸ orderly_drawing hample hm h, ⟨_, _, reach_drawing hc hample hm flags h⟩, ?_⟩
  rw [shapes_drawing, List.flatMap_append]
  refine List.forall_mem_append.2 ⟨?_, ?_⟩
  · cases hline : flagsLine c m flags with
    | none => exact fun x hx => absurd hx List.not_mem_nil
    | some line =>
      obtain ⟨caption, -, rfl⟩ := Option.map_eq_some_iff.1 hline
      obtain ⟨hwidth, hheight⟩ := hm.extent (c.shown caption)
      exact List.forall_mem_cons.2 ⟨hwidth, List.forall_mem_cons.2 ⟨hheight,
        List.forall_mem_singleton.2 (hbaseline _)⟩⟩
  · exact List.forall_mem_cons.2 ⟨hample.terminal, List.forall_mem_singleton.2 hample.terminal⟩

end Railroad

/-! ## Whole numbers -/

theorem Measure.baseline_cells [TerminalWidths] (text : List Char) :
    0 ≤ ((cells : Measure ℚ).extent text).baseline := by
  rw [extent, cells]
  cases refuseControl text with
  | error failure => exact rational_zero.ge
  | ok _ => exact rational_zero.ge

namespace Pattern

variable [TerminalWidths]

theorem Root.integral_upright (root : Root) (set : CharacterSet) :
    ∀ f ∈ (root.drawing (set.spacing : Spacing ℚ) .cells).fragment.descendants,
      f.Integral ∧ f.Upright := by
  have hc := set.gridded_spacing
  have hample := set.ample_spacing
  have hintegral := (Railroad.drawnClosed_integral hc Measure.integral_cells).drawing root
    fun _ hcontent => Railroad.integral_drawing hc Measure.integral_cells root.flags hcontent.box
  have hupright := (Railroad.drawnClosed_upright hc hample Measure.nonNegative_cells
    Measure.baseline_cells).drawing root fun _ hcontent => Railroad.upright_drawing hc hample
      Measure.nonNegative_cells Measure.baseline_cells root.flags hcontent.orderly.attached
  exact fun f hf => ⟨hintegral f hf, hupright f hf⟩

/-- Every number of a fragment of a drawing in cells is whole. -/
theorem Root.whole_fragments (root : Root) (set : CharacterSet) :
    ∀ f ∈ (root.drawing (set.spacing : Spacing ℚ) .cells).fragment.descendants,
      ∀ x ∈ f.numbers, Whole x := fun f hf x hx => by
  have hall := root.integral_upright set
  have hnonneg := (hall f hf).2.numbers_nonneg
    fun p hp => (hall _ (Fragment.mem_descendants_child hf hp)).2.orderly.attached
  exact ((hall f hf).1.numbers x hx).whole (hnonneg x hx)

/-- Every number of a drawing in cells is whole. -/
theorem Root.whole_numbers (root : Root) (set : CharacterSet) :
    ∀ x ∈ (root.drawing (set.spacing : Spacing ℚ) .cells).numbers, Whole x := by
  have hfragment := root.whole_fragments set
  have hbox : ∀ x ∈ (root.drawing (set.spacing : Spacing ℚ) .cells).fragment.box.numbers, Whole x :=
    fun x hx => hfragment _ (Fragment.mem_descendants_self _) x
      (List.mem_append_left _ (List.mem_append_left _ hx))
  rw [Root.drawing, Railroad.box_drawing] at hbox
  refine List.forall_mem_cons.2 ⟨?_, List.forall_mem_cons.2 ⟨?_, fun x hx => ?_⟩⟩
  · exact hbox _ (.tail _ (.tail _ (.head _)))
  · exact hbox _ (.tail _ (.tail _ (.tail _ (.head _))))
  · obtain ⟨f, hf, hx⟩ := List.mem_flatMap.1 hx
    exact hfragment f hf x hx

end Pattern

end RegexDiagram
