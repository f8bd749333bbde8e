import RegexDiagram.Proofs.Drawing.Separation
import RegexDiagram.Proofs.Geometry.Whole

/-!
# How far lines reach

The points that the lines of a shape go through. In character cells a line stays between them, so they
say how far the own lines of a fragment reach: each construct has a lemma that bounds its corners.
-/

namespace RegexDiagram

open Pattern

/-! ## Points of shapes -/

/-- The points of a segment, control points included. -/
def Segment.points {α : Type} : Segment α → List (Point α)
  | .moveTo p | .lineTo p => [p]
  | .quadTo control p => [control, p]

/-- The points that the lines of a shape go through. Those of a rectangle are the first and the last
cell of its area. -/
def Shape.corners : Shape ℚ → List (Point ℚ)
  | .rect area _ _ _ => [⟨area.x, area.y⟩, ⟨area.right - 1, area.bottom - 1⟩]
  | .path segments _ => segments.flatMap Segment.points
  | .text .. | .circle .. | .arrow .. => []

/-- The lines of the shapes lie between the origin and a point, which they may meet. -/
def Reach (shapes : List (Shape ℚ)) (right bottom : ℚ) : Prop :=
  ∀ p ∈ shapes.flatMap Shape.corners, (0 ≤ p.x ∧ p.x ≤ right) ∧ 0 ≤ p.y ∧ p.y ≤ bottom

namespace Reach

variable {shapes others : List (Shape ℚ)} {right bottom right' bottom' : ℚ}

theorem nil (right bottom : ℚ) : Reach [] right bottom := fun _ hp => absurd hp List.not_mem_nil

theorem append (h : Reach shapes right bottom) (h' : Reach others right bottom) :
    Reach (shapes ++ others) right bottom := by
  rw [Reach, List.flatMap_append]
  exact List.forall_mem_append.2 ⟨h, h'⟩

theorem cons {s : Shape ℚ} (hs : Reach [s] right bottom) (h : Reach shapes right bottom) :
    Reach (s :: shapes) right bottom := append hs h

theorem mono (h : Reach shapes right bottom) (hright : right ≤ right') (hbottom : bottom ≤ bottom') :
    Reach shapes right' bottom' := fun p hp =>
  ⟨⟨(h p hp).1.1, (h p hp).1.2.trans hright⟩, (h p hp).2.1, (h p hp).2.2.trans hbottom⟩

end Reach

/-! ## Points of a path -/

section PathPoints

variable {P : Point ℚ → Prop} {control p : Point ℚ} {rest : List (Segment ℚ)}

theorem forall_points_nil : (∀ q ∈ ([] : List (Segment ℚ)).flatMap Segment.points, P q) ↔ True :=
  iff_true_intro fun _ hq => absurd hq List.not_mem_nil

theorem forall_points_moveTo :
    (∀ q ∈ (Segment.moveTo p :: rest).flatMap Segment.points, P q) ↔
      P p ∧ ∀ q ∈ rest.flatMap Segment.points, P q := List.forall_mem_cons

theorem forall_points_lineTo :
    (∀ q ∈ (Segment.lineTo p :: rest).flatMap Segment.points, P q) ↔
      P p ∧ ∀ q ∈ rest.flatMap Segment.points, P q := List.forall_mem_cons

theorem forall_points_quadTo :
    (∀ q ∈ (Segment.quadTo control p :: rest).flatMap Segment.points, P q) ↔
      P control ∧ P p ∧ ∀ q ∈ rest.flatMap Segment.points, P q :=
  List.forall_mem_cons.trans (and_congr_right fun _ => List.forall_mem_cons)

end PathPoints

namespace Railroad

variable {c : Spacing ℚ} {m : Measure ℚ}

/-! ## Paths -/

/-- A level track reaches from one end to the other. -/
theorem reach_track {x x' y right bottom : ℚ} (hx : 0 ≤ x ∧ x ≤ right) (hx' : 0 ≤ x' ∧ x' ≤ right)
    (hy : 0 ≤ y ∧ y ≤ bottom) : Reach [.track ⟨x, y⟩ ⟨x', y⟩] right bottom :=
  List.forall_mem_cons.2 ⟨⟨hx, hy⟩, List.forall_mem_singleton.2 ⟨hx', hy⟩⟩

/-- A path between points reaches no farther than they do. -/
theorem reach_connector {segments : List (Segment ℚ)} {right bottom : ℚ}
    (h : ∀ p ∈ segments.flatMap Segment.points, (0 ≤ p.x ∧ p.x ≤ right) ∧ 0 ≤ p.y ∧ p.y ≤ bottom) :
    Reach [.connector segments] right bottom := by
  rw [Reach, List.flatMap_singleton]
  exact h

theorem reach_pair {there back : List (Segment ℚ)} {right bottom : ℚ}
    (hthere : ∀ p ∈ there.flatMap Segment.points, (0 ≤ p.x ∧ p.x ≤ right) ∧ 0 ≤ p.y ∧ p.y ≤ bottom)
    (hback : ∀ p ∈ back.flatMap Segment.points, (0 ≤ p.x ∧ p.x ≤ right) ∧ 0 ≤ p.y ∧ p.y ≤ bottom) :
    Reach [.connector there, .connector back] right bottom :=
  (reach_connector hthere).cons (reach_connector hback)

/-- In character cells a branch is joined to the line in the middle by level tracks, by curves that meet
half way, or by curves of one cell with an upright run between them. -/
theorem branchConnectors_cases (hc : c.Gridded) (b : Box ℚ) (mid right : ℚ) :
    b.track = mid ∧ branchConnectors c b mid right =
        [.track ⟨0, mid⟩ ⟨b.entry, b.track⟩, .track ⟨b.exit, b.track⟩ ⟨right, mid⟩] ∨
      b.track ≠ mid ∧ |b.track - mid| < 1 ∧ branchConnectors c b mid right =
        [.connector
          [.moveTo ⟨0, mid⟩, .quadTo ⟨2, mid⟩ ⟨2, mid + (b.track - mid) / 2⟩,
           .quadTo ⟨2, b.track⟩ ⟨4, b.track⟩, .lineTo ⟨b.entry, b.track⟩],
         .connector
          [.moveTo ⟨b.exit, b.track⟩, .lineTo ⟨right - 4, b.track⟩,
           .quadTo ⟨right - 2, b.track⟩ ⟨right - 2, b.track - (b.track - mid) / 2⟩,
           .quadTo ⟨right - 2, mid⟩ ⟨right, mid⟩]] ∨
      ∃ way, (way = 1 ∧ mid + 1 ≤ b.track ∨ way = -1 ∧ b.track + 1 ≤ mid) ∧
        branchConnectors c b mid right =
          [.connector
            [.moveTo ⟨0, mid⟩, .quadTo ⟨1, mid⟩ ⟨1, mid + way⟩, .lineTo ⟨1, b.track - way⟩,
             .quadTo ⟨1, b.track⟩ ⟨2, b.track⟩, .lineTo ⟨b.entry, b.track⟩],
           .connector
            [.moveTo ⟨b.exit, b.track⟩, .lineTo ⟨right - 2, b.track⟩,
             .quadTo ⟨right - 1, b.track⟩ ⟨right - 1, b.track - way⟩,
             .lineTo ⟨right - 1, mid + way⟩, .quadTo ⟨right - 1, mid⟩ ⟨right, mid⟩]] := by
  have hradius : Scalar.min (1 : ℚ) 2 = 1 := min_eq_left (by norm_num)
  have hhalf : (4 : ℚ) / 2 = 2 := by norm_num
  have hsame : Scalar.same (b.track - mid) (0 : ℚ) = decide (b.track - mid = 0) := rfl
  have hless : Scalar.less (Scalar.abs (b.track - mid)) (1 : ℚ) = decide (|b.track - mid| < 1) := rfl
  have hsign : Scalar.sign (b.track - mid) = if b.track - mid < 0 then -1 else 1 := rfl
  unfold branchConnectors
  simp only [hc.branchIndent, hc.nearThreshold, hc.curveRadius, hc.snap, rational_numeral, rational_zero,
    hhalf, hradius, hsame, hless, decide_eq_true_eq, if_true, mul_one]
  split
  next hlevel => exact .inl ⟨sub_eq_zero.1 hlevel, rfl⟩
  next hne =>
    refine .inr ?_
    split
    next hnear => exact .inl ⟨sub_ne_zero.1 hne, hnear, rfl⟩
    next hfar =>
      refine .inr ⟨Scalar.sign (b.track - mid), ?_, rfl⟩
      have hdistance := not_lt.1 hfar
      rw [hsign]
      split
      next hup =>
        rw [abs_of_neg hup] at hdistance
        exact .inr ⟨rfl, by linarith⟩
      next hdown =>
        rw [abs_of_nonneg (not_lt.1 hdown)] at hdistance
        exact .inl ⟨rfl, by linarith⟩

/-- The connectors of a branch run between the line in the middle and the track of the branch. -/
theorem reach_branchConnectors (hc : c.Gridded) {b : Box ℚ} {mid right bottom : ℚ} (hright : 4 ≤ right)
    (hentry : 0 ≤ b.entry ∧ b.entry ≤ right) (hexit : 0 ≤ b.exit ∧ b.exit ≤ right)
    (hmid : 0 ≤ mid ∧ mid ≤ bottom) (htrack : 0 ≤ b.track ∧ b.track ≤ bottom) :
    Reach (branchConnectors c b mid right) right bottom := by
  obtain ⟨⟨hentry, hentry'⟩, hexit, hexit'⟩ := And.intro hentry hexit
  obtain ⟨⟨hmid, hmid'⟩, htrack, htrack'⟩ := And.intro hmid htrack
  obtain ⟨hlevel, hpaths⟩ | ⟨-, hnear, hpaths⟩ | ⟨way, hway, hpaths⟩ := branchConnectors_cases hc b mid right
  · rw [hpaths]
    refine reach_pair ?_ ?_
    all_goals
      simp only [forall_points_moveTo, forall_points_lineTo, forall_points_nil, and_true]
      and_intros <;> linarith
  · obtain ⟨hlow, hhigh⟩ := abs_lt.1 hnear
    rw [hpaths]
    refine reach_pair ?_ ?_
    all_goals
      simp only [forall_points_moveTo, forall_points_lineTo, forall_points_quadTo, forall_points_nil, and_true]
      and_intros <;> linarith
  -- the bends are one cell high, and so far the branch is at least from the middle
  · rw [hpaths]
    obtain ⟨rfl, hfar⟩ | ⟨rfl, hfar⟩ := hway
    all_goals
      refine reach_pair ?_ ?_
      all_goals
        simp only [forall_points_moveTo, forall_points_lineTo, forall_points_quadTo, forall_points_nil, and_true]
        and_intros <;> linarith

theorem reach_skipPath {r track right : ℚ} (hr : 0 ≤ r) (htrack : r ≤ track) (hright : 2 * r ≤ right) :
    Reach [skipPath r track right] right track := by
  refine reach_connector ?_
  simp only [forall_points_moveTo, forall_points_lineTo, forall_points_quadTo, forall_points_nil, and_true,
    rational_numeral, rational_zero]
  and_intros <;> linarith

theorem reach_loopPath {r track bottom left right : ℚ} (hr : 0 ≤ r) (hleft : r ≤ left)
    (hright : left ≤ right) (htrack : 0 ≤ track) (hbottom : track + r ≤ bottom) :
    Reach [loopPath r track bottom left right] (right + r) bottom := by
  refine reach_connector ?_
  simp only [forall_points_moveTo, forall_points_lineTo, forall_points_quadTo, forall_points_nil, and_true]
  and_intros <;> linarith

/-! ## Constructs -/

/-- The frame of a label takes all of its box. -/
theorem reach_labelBox (hc : c.Gridded) (hm : m.NonNegative) (className : String) (text : List Char) :
    Reach (labelBox c m className text).shapes ((labelBox c m className text).box.width - 1)
      ((labelBox c m className text).box.height - 1) := by
  obtain ⟨hwidth, hheight⟩ := hm.extent text
  have hcorners : (labelBox c m className text).shapes.flatMap Shape.corners =
      [⟨0, 0⟩, ⟨0 + ((m.extent text).width + 2 * c.labelPaddingX) - 1,
        0 + ((m.extent text).height + 2 * c.labelPaddingY) - 1⟩] := rfl
  have hbox : (labelBox c m className text).box.width = (m.extent text).width + 2 * c.labelPaddingX ∧
      (labelBox c m className text).box.height = (m.extent text).height + 2 * c.labelPaddingY :=
    ⟨rfl, rfl⟩
  rw [Reach, hcorners, List.forall_mem_cons, List.forall_mem_singleton, hbox.1, hbox.2]
  simp only [hc.labelPaddingX, hc.labelPaddingY]
  and_intros <;> linarith

/-- The connectors of a row end where its last item begins. -/
theorem reach_rowConnectors {track gap : ℚ} (htrack : 0 ≤ track) (hgap : 0 ≤ gap)
    {placed : List (Placed ℚ)}
    (hordered : placed.Pairwise fun p q => p.offset.x + (p.fragment.box.width + gap) ≤ q.offset.x)
    (hplaced : ∀ p ∈ placed, 0 ≤ p.offset.x ∧ p.fragment.box.Attached) {last : Placed ℚ}
    (hlast : placed.getLast? = some last) :
    Reach (rowConnectors track placed) last.box.entry track := by
  induction placed with
  | nil => exact Reach.nil _ _
  | cons a rest ih =>
    cases rest with
    | nil => exact Reach.nil _ _
    | cons b more =>
      obtain ⟨hbehind, hrest⟩ := List.pairwise_cons.1 hordered
      obtain ⟨⟨hleft, ha⟩, hmore⟩ := List.forall_mem_cons.1 hplaced
      obtain ⟨hleft', hb⟩ := hmore b (.head _)
      rw [List.getLast?_cons_cons] at hlast
      have hend := hbehind last (List.mem_of_getLast? hlast)
      obtain ⟨-, hlastBox⟩ := hmore last (List.mem_of_getLast? hlast)
      have hentry : b.fragment.box.entry + b.offset.x ≤ last.fragment.box.entry + last.offset.x := by
        obtain rfl | hmem := List.mem_cons.1 (List.mem_of_getLast? hlast)
        · exact le_rfl
        · have hbefore := (List.pairwise_cons.1 hrest).1 last hmem
          linarith [hb.passage, hb.exit, hlastBox.entry]
      have hexit : a.fragment.box.exit + a.offset.x ≤ last.fragment.box.entry + last.offset.x := by
        linarith [ha.exit, hlastBox.entry]
      have hbelow : Reach (rowConnectors track (b :: more)) last.box.entry track := ih hrest hmore hlast
      refine Reach.cons (reach_track ?_ ?_ ⟨htrack, le_rfl⟩) hbelow
      · exact ⟨add_nonneg ha.exit_nonneg hleft, hexit⟩
      · exact ⟨add_nonneg hb.entry hleft', hentry⟩

theorem reach_sequence (hc : c.Ample) {first second : Fragment ℚ} {rest : List (Fragment ℚ)}
    (h : ∀ f ∈ first :: second :: rest, f.box.Attached) {last : Placed ℚ}
    (hlast : (series c (first :: second :: rest)).1.getLast? = some last) :
    Reach (sequence c (first :: second :: rest)).shapes last.box.entry
      (rowTrack (first :: second :: rest)) := by
  have hspaced := spaced_row hc (rowTrack (first :: second :: rest)) 0 h
  exact reach_rowConnectors (rational_zero ▸ le_foldl_max _ _) hc.sequence hspaced.ordered
    (fun p hp => ⟨(hspaced.between p hp).1, h _ (row_placed _ _ _ p hp).1⟩) hlast

/-- The connectors of branches reach down to the line in the middle and to the lowest track. -/
theorem reach_alternatives (hc : c.Gridded) (hample : c.Ample) {branches : List (Fragment ℚ)}
    (h : ∀ f ∈ branches, f.box.Attached) {bottom : ℚ}
    (hmid : c.snapped (branchesHeight c branches / 2) ≤ bottom)
    (htracks : ∀ p ∈ (column c c.branchIndent 0 branches).1, p.box.track ≤ bottom) :
    Reach (alternatives c branches).shapes (widest branches + 2 * c.branchIndent - c.strokeInset)
      bottom := by
  have hheight : 0 ≤ branchesHeight c branches := le_max_right _ _
  have hwidest := widest_nonneg branches
  have hspaced : Spaced (·.offset.y) (·.fragment.box.height) c.branchGap 0
      (column c c.branchIndent 0 branches).2 (column c c.branchIndent 0 branches).1 :=
    spaced_stack hample _ 0 h
  intro q hq
  rw [List.mem_flatMap] at hq
  obtain ⟨s, hs, hq⟩ := hq
  obtain ⟨p, hp, hs⟩ : ∃ p ∈ (column c c.branchIndent 0 branches).1,
      s ∈ branchConnectors c p.box (c.snapped (branchesHeight c branches / 2))
        (widest branches + 2 * c.branchIndent - c.strokeInset) := List.mem_flatMap.1 hs
  obtain ⟨hleft, hright⟩ := column_between hp
  have hbox := h _ (mem_of_column hp)
  have htop := (hspaced.between p hp).1
  have htrack := htracks p hp
  simp only [Placed.box, Box.translate] at htrack
  refine reach_branchConnectors hc ?_ ?_ ?_ ⟨(c.snapped_half hheight).1, hmid⟩ ?_ q
    (List.mem_flatMap.2 ⟨s, hs, hq⟩)
  all_goals
    simp only [hc.branchIndent, hc.strokeInset, Placed.box, Box.translate] at hleft hright ⊢
    and_intros <;> linarith [hbox.entry, hbox.passage, hbox.exit, hbox.top]

/-- The hyphen of a range is no line. -/
theorem reach_range (first last : Fragment ℚ) (right bottom : ℚ) :
    Reach (range c m first last).shapes right bottom := Reach.nil _ _

/-- The frame of a class begins below the caption and ends with the box. -/
theorem reach_charset (hc : c.Gridded) (hample : c.Ample) (hm : m.NonNegative) (negated : Bool)
    {members : List (Fragment ℚ)} (h : ∀ f ∈ members, f.box.Attached) :
    Reach (charset c m negated members).shapes (widest members + 2 * c.labelPaddingX - 1)
      (captionBottom c m (charsetCaption negated) + classHeight c m negated members - 1) := by
  have hcorners : (charset c m negated members).shapes.flatMap Shape.corners =
      [⟨0, captionBottom c m (charsetCaption negated)⟩,
       ⟨0 + (widest members + 2 * c.labelPaddingX) - 1, captionBottom c m (charsetCaption negated) +
         classHeight c m negated members - 1⟩] := rfl
  have hwidest := widest_nonneg members
  have hcaption : 0 ≤ captionBottom c m (charsetCaption negated) :=
    add_nonneg (hm.extent _).2 hample.caption
  have hpadding := padding_le_classHeight m negated hample h
  rw [Reach, hcorners, List.forall_mem_cons, List.forall_mem_singleton]
  simp only [hc.labelPaddingX, hc.labelPaddingY] at hpadding ⊢
  and_intros <;> linarith

/-- The frame of a group begins below the caption and ends with the box. -/
theorem reach_frame (hc : c.Gridded) (hm : m.NonNegative) (caption : List Char) {content : Fragment ℚ}
    (h : content.box.Attached) :
    Reach (frame c m caption content).shapes ((frame c m caption content).box.width - 1)
      ((frame c m caption content).box.height - 1) := by
  have hcorners : (frame c m caption content).shapes.flatMap Shape.corners =
      [⟨0, captionBottom c m caption⟩,
       ⟨0 + frameWidth c m caption content - 1, captionBottom c m caption +
         (content.box.height + 2 * c.groupPadding) - 1⟩] := rfl
  have hbox : (frame c m caption content).box.width = frameWidth c m caption content ∧
      (frame c m caption content).box.height =
        captionBottom c m caption + (content.box.height + 2 * c.groupPadding) := ⟨rfl, rfl⟩
  have hcaption : 0 ≤ captionBottom c m caption :=
    add_nonneg (hm.extent _).2 (by rw [hc.captionGap])
  have hwidth : content.box.width + 2 * c.groupPadding ≤ frameWidth c m caption content :=
    le_max_right _ _
  obtain ⟨hwidth', hheight⟩ := And.intro h.width_nonneg h.height_nonneg
  rw [Reach, hcorners, List.forall_mem_cons, List.forall_mem_singleton, hbox.1, hbox.2]
  simp only [hc.groupPadding] at hwidth ⊢
  and_intros <;> linarith

section Laps

variable {r : Repetition} {inner : Fragment ℚ}

theorem reach_skipShapes (hc : c.Gridded) (hample : c.Ample) (m : Measure ℚ) (h : inner.box.Attached) :
    Reach (skipShapes c m r inner) (repetitionRight c m r inner) (lapTrack c r inner) := by
  have hright : repetitionRight c m r inner = repetitionWidth c m r inner - c.strokeInset := rfl
  have htrack : lapTrack c r inner = rise c r inner + inner.box.track := rfl
  have hsides := sides_le c m r inner
  obtain ⟨htop, hwidth⟩ := And.intro h.top h.width_nonneg
  unfold skipShapes
  split
  next hskip =>
    have hroom := stroke_le_rise r inner hample hskip
    simp only [hc.strokeInset, hc.curveRadius] at hright hsides hroom ⊢
    refine Reach.cons (reach_skipPath ?_ ?_ ?_) ?_
    iterate 3 linarith
    split <;> exact Reach.nil _ _
  next => exact Reach.nil _ _

/-- The content of a repetition has a cell free on its left, and another one on its right. -/
theorem lap_between (hc : c.Gridded) (m : Measure ℚ) (h : inner.box.Attached) :
    2 ≤ lapLeft c inner ∧ lapLeft c inner ≤ lapRight c inner ∧
      lapRight c inner + 1 ≤ repetitionRight c m r inner := by
  have hleft : lapLeft c inner = 2 * c.curveRadius + inner.box.entry := rfl
  have hright : lapRight c inner = 2 * c.curveRadius + inner.box.exit := rfl
  have hend : repetitionRight c m r inner = repetitionWidth c m r inner - c.strokeInset := rfl
  have hsides := sides_le c m r inner
  obtain ⟨hentry, hpassage, hexit⟩ := And.intro h.entry (And.intro h.passage h.exit)
  rw [hc.curveRadius] at hleft hright hsides
  rw [hc.strokeInset] at hend
  refine ⟨?_, ?_, ?_⟩ <;> linarith

/-- The content runs at a height below the path around it and above the path back. -/
theorem lap_above (hc : c.Gridded) (hample : c.Ample) (h : inner.box.Attached) :
    0 ≤ lapTrack c r inner ∧ lapTrack c r inner + 1 ≤ lapBottom c r inner := by
  have htrack : lapTrack c r inner = rise c r inner + inner.box.track := rfl
  have hloop : lapTrack c r inner + 2 * c.curveRadius ≤ lapBottom c r inner := le_max_right _ _
  have hrise := rise_nonneg r inner hample
  have htop := h.top
  rw [hc.curveRadius] at hloop
  exact ⟨by linarith, by linarith⟩

theorem reach_loopShapes (hc : c.Gridded) (hample : c.Ample) (m : Measure ℚ) (h : inner.box.Attached) :
    Reach (loopShapes c r inner) (repetitionRight c m r inner)
      (if r.canRepeat then lapBottom c r inner else lapTrack c r inner) := by
  obtain ⟨hleft, hpassage, hright⟩ := lap_between (r := r) hc m h
  obtain ⟨htrack, hloop⟩ := lap_above (r := r) hc hample h
  unfold loopShapes
  split
  next =>
    rw [hc.curveRadius]
    refine Reach.cons ((reach_loopPath ?_ ?_ hpassage htrack hloop).mono hright le_rfl) ?_
    iterate 2 linarith
    split <;> exact Reach.nil _ _
  next => exact Reach.nil _ _

/-- The lines of a repetition run down to the path back, if there is one. -/
theorem reach_repetition (hc : c.Gridded) (hample : c.Ample) (m : Measure ℚ) (h : inner.box.Attached) :
    Reach (repetition c m r inner).shapes (repetitionRight c m r inner)
      (if r.canRepeat then lapBottom c r inner else lapTrack c r inner) := by
  obtain ⟨hleft, hpassage, hright⟩ := lap_between (r := r) hc m h
  obtain ⟨htrack, hloop⟩ := lap_above (r := r) hc hample h
  have hlowest : lapTrack c r inner ≤
      if r.canRepeat then lapBottom c r inner else lapTrack c r inner := by
    split <;> linarith
  rw [shapes_repetition, rational_zero]
  refine Reach.cons (reach_track ?_ ?_ ⟨?_, hlowest⟩) (Reach.cons (reach_track ?_ ?_ ⟨?_, hlowest⟩)
    (((reach_skipShapes hc hample m h).mono le_rfl hlowest).append (reach_loopShapes hc hample m h)
      |>.append ?_))
  iterate 6 and_intros <;> linarith
  unfold captionShapes
  split <;> exact Reach.nil _ _

end Laps

/-- The tracks of a drawing run at the height of its content. -/
theorem reach_drawing (hc : c.Gridded) (hample : c.Ample) (hm : m.NonNegative) (flags : List Char)
    {content : Fragment ℚ} (h : content.box.Attached) :
    Reach (drawing c m flags content).fragment.shapes (trackEnd c content)
      (flagsBottom c m flags + content.box.track) := by
  have hcorners : (drawing c m flags content).fragment.shapes.flatMap Shape.corners =
      [⟨c.margin + c.terminalRadius + c.terminalRadius, flagsBottom c m flags + content.box.track⟩,
       ⟨contentLeft c + content.box.entry, flagsBottom c m flags + content.box.track⟩,
       ⟨contentLeft c + content.box.exit, flagsBottom c m flags + content.box.track⟩,
       ⟨trackEnd c content, flagsBottom c m flags + content.box.track⟩] := by
    rw [drawing, flagsBottom, flagsLine]
    cases flagsCaption flags <;> rfl
  obtain ⟨hstart, hexit, -, -⟩ := terminals_beside m flags content hample
  have hflags := margin_le_flagsBottom flags hample hm
  have hmargin := hample.positive
  obtain ⟨hentry, hpassage, htop⟩ := And.intro h.entry (And.intro h.passage h.top)
  rw [Reach, hcorners]
  simp only [List.forall_mem_cons, List.not_mem_nil, false_imp_iff, implies_true, and_true]
  simp only [hc.terminalRadius, hc.strokeInset] at hstart ⊢
  and_intros <;> linarith

end Railroad

end RegexDiagram
