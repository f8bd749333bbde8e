import RegexDiagram.Proofs.Drawing.Corners
import RegexDiagram.Text.Terminal
import Mathlib.Data.List.Chain

/-!
# Curves

The connectors of a picture never turn back. Those of a branch lead from the height of one track to that of
the other: beside the branches there is room for their curves, and a branch whose distance from the middle
is small has smaller ones (`smooth_branchConnectors`).

The way around a repetition runs at the top, whatever the height of the track in the content. Where this
height is less than two curves take, the content lies lower by the difference (`leadsOver_skipPath`). The
way back runs under the content, and under its track by two curves at least (`leadsUnder_loopPath`).
-/

namespace RegexDiagram

open Pattern

/-! ## Distances -/

/-- Distances under which curves stay between the lines that they join: on each side of the branches there
is room for two curves, what is near to the middle is no farther away than two curves, nothing is rounded
to whole units, and strokes have no width. -/
structure Spacing.Curved (c : Spacing ℚ) : Prop where
  snap : c.snap = false
  stroke : c.strokeInset = 0
  radius : 0 ≤ c.curveRadius
  indent : c.branchIndent = 2 * c.curveRadius
  near : c.nearThreshold ≤ 2 * c.curveRadius

theorem Spacing.curved_pixels : (pixels : Spacing ℚ).Curved := by
  constructor <;> simp only [pixels, rational_zero, rational_numeral] <;> norm_num

/-- The largest radius of the curves to a branch at a distance from the middle: those to a branch farther
away take no more than half of the distance. -/
def Spacing.bendRadius (c : Spacing ℚ) (distance : ℚ) : ℚ :=
  if distance < c.nearThreshold then c.curveRadius else min c.curveRadius (distance / 2)

/-! ## Paths that do not turn back -/

/-- Where a segment ends. -/
def Segment.stop {α : Type} : Segment α → Point α
  | .moveTo p | .lineTo p | .quadTo _ p => p

/-- The arms of the curves of a path: from where a curve starts to its control point, and from there to
where it ends. -/
def arms : List (Segment ℚ) → List (Point ℚ × Point ℚ)
  | s :: .quadTo control q :: rest =>
    (s.stop, control) :: (control, q) :: arms (.quadTo control q :: rest)
  | _ :: s :: rest => arms (s :: rest)
  | _ => []

/-- The points of a path, control points included. -/
def pathPoints (segments : List (Segment ℚ)) : List (Point ℚ) := segments.flatMap Segment.points

/-- The path never turns back, neither to the left nor in its height, and its curves have no larger radius
than the given one. -/
structure Smooth (radius : ℚ) (segments : List (Segment ℚ)) : Prop where
  across : (pathPoints segments).Pairwise fun p q => p.x ≤ q.x
  along : ((pathPoints segments).Pairwise fun p q => p.y ≤ q.y) ∨
    (pathPoints segments).Pairwise fun p q => p.y ≥ q.y
  bent : ∀ arm ∈ arms segments, |arm.2.x - arm.1.x| ≤ radius ∧ |arm.2.y - arm.1.y| ≤ radius

/-- The heights of the points lead to a level, stay there for one run, and lead back. -/
def Turns (towards away : ℚ → ℚ → Prop) (level : ℚ) (segments : List (Segment ℚ)) : Prop :=
  ∃ there p q back, pathPoints segments = there ++ p :: q :: back ∧ p.y = level ∧ q.y = level ∧
    ((there ++ [p]).Pairwise fun a b => towards a.y b.y) ∧ (q :: back).Pairwise fun a b => away a.y b.y

/-! ## Neighbours on a path -/

/-- Numbers of points are in order if those of neighbours are. -/
theorem pairwise_of_isChain {r : ℚ → ℚ → Prop} [Trans r r r] (f : Point ℚ → ℚ) {points : List (Point ℚ)}
    (h : points.IsChain fun p q => r (f p) (f q)) : points.Pairwise fun p q => r (f p) (f q) := by
  have htrans : Trans (fun p q : Point ℚ => r (f p) (f q)) (fun p q : Point ℚ => r (f p) (f q))
      (fun p q : Point ℚ => r (f p) (f q)) := ⟨fun hpq hqr => Trans.trans hpq hqr⟩
  exact List.isChain_iff_pairwise.1 h

section Points

variable {R : Point ℚ → Point ℚ → Prop} {p q control : Point ℚ} {rest : List (Segment ℚ)}

theorem isChain_moveTo : (pathPoints (.moveTo p :: rest)).IsChain R ↔ (p :: pathPoints rest).IsChain R := .rfl

theorem isChain_lineTo :
    (p :: pathPoints (.lineTo q :: rest)).IsChain R ↔ R p q ∧ (q :: pathPoints rest).IsChain R :=
  List.isChain_cons_cons

theorem isChain_quadTo : (p :: pathPoints (.quadTo control q :: rest)).IsChain R ↔
    R p control ∧ R control q ∧ (q :: pathPoints rest).IsChain R := by
  have hpoints : pathPoints (.quadTo control q :: rest) = control :: q :: pathPoints rest := rfl
  rw [hpoints, List.isChain_cons_cons, List.isChain_cons_cons]

theorem isChain_stop : (p :: pathPoints []).IsChain R := .singleton p

end Points

theorem Smooth.of_isChain {radius : ℚ} {segments : List (Segment ℚ)}
    (hacross : (pathPoints segments).IsChain fun p q => p.x ≤ q.x)
    (halong : ((pathPoints segments).IsChain fun p q => p.y ≤ q.y) ∨
      (pathPoints segments).IsChain fun p q => p.y ≥ q.y)
    (hbent : ∀ arm ∈ arms segments, |arm.2.x - arm.1.x| ≤ radius ∧ |arm.2.y - arm.1.y| ≤ radius) :
    Smooth radius segments :=
  ⟨pairwise_of_isChain _ hacross, halong.imp (pairwise_of_isChain _) (pairwise_of_isChain _), hbent⟩

/-! ## Constructs -/

/-- The path leads from the start of a fragment to its end, over a child: to the right all the way, up to
the top, and down to the track again. Its run along the top keeps a distance from the child. -/
structure LeadsOver (radius : ℚ) (f : Fragment ℚ) (child : Placed ℚ) (segments : List (Segment ℚ)) :
    Prop where
  joins : (Shape.connector segments).Joins f.box.start f.box.finish
  across : (pathPoints segments).Pairwise fun p q => p.x ≤ q.x
  turns : Turns (· ≥ ·) (· ≤ ·) 0 segments
  clear : radius ≤ child.box.y

/-- The path leads from the end of a child back to its start, under it: down from the track and up to it
again, with a run at the bottom that keeps a distance from the child. It stays near the child on both
sides. -/
structure LeadsUnder (radius : ℚ) (child : Placed ℚ) (segments : List (Segment ℚ)) : Prop where
  joins : (Shape.connector segments).Joins child.box.finish child.box.start
  beside : ∀ p ∈ pathPoints segments, child.box.entry - radius ≤ p.x ∧ p.x ≤ child.box.exit + radius
  turns : ∃ bottom, Turns (· ≤ ·) (· ≥ ·) bottom segments ∧
    child.box.y + child.box.height + radius ≤ bottom

namespace Fragment

variable (c : Spacing ℚ) (f : Fragment ℚ)

/-- Each child has a connector from the start of the fragment and one to its end. They lead from the height
of one track to that of the other without turning back. -/
def Branches : Prop :=
  ∃ connectors : List (List (Segment ℚ) × List (Segment ℚ)),
    f.shapes = connectors.flatMap (fun pair => [.connector pair.1, .connector pair.2]) ∧
    List.Forall₂ (fun pair p =>
      ((Shape.connector pair.1).Joins f.box.start p.box.start ∧
        (Shape.connector pair.2).Joins p.box.finish f.box.finish) ∧
      Smooth (c.bendRadius |p.box.track - f.box.track|) pair.1 ∧
      Smooth (c.bendRadius |p.box.track - f.box.track|) pair.2) connectors f.children

/-- There is one child, with a straight track to it and a straight track from it. Every other connector
leads over the child, or back under it. -/
def Laps (radius : ℚ) : Prop :=
  ∃ child others, f.children = [child] ∧
    f.shapes = .track f.box.start child.box.start :: .track child.box.finish f.box.finish :: others ∧
    ∀ segments, Shape.connector segments ∈ others →
      LeadsOver radius f child segments ∨ LeadsUnder radius child segments

/-- The connectors of the fragment never turn back. -/
structure Flowing : Prop where
  alternation : f.className = "alternation" → f.Branches c
  quantified : f.className = "quantified" → f.Laps c.curveRadius

end Fragment

namespace Railroad

variable {c : Spacing ℚ} {m : Measure ℚ}

/-! ## Branches -/

theorem smooth_straight {p q : Point ℚ} (hx : p.x ≤ q.x) (hy : p.y = q.y) (radius : ℚ) :
    Smooth radius [.moveTo p, .lineTo q] := by
  refine .of_isChain ?_ (.inl ?_) fun _ harm => absurd harm List.not_mem_nil
  · exact isChain_lineTo.2 ⟨hx, isChain_stop⟩
  · exact isChain_lineTo.2 ⟨le_of_eq hy, isChain_stop⟩

section Branch

variable {r v mid track entry exit right : ℚ} {run : List (Segment ℚ)}

/-- From one height to another there is room for two curves that are `v` high. -/
def Spans (v low high : ℚ) : Prop := 0 ≤ v ∧ 2 * v ≤ high - low ∨ v ≤ 0 ∧ high - low ≤ 2 * v

theorem spans_half (low high : ℚ) : Spans ((high - low) / 2) low high :=
  (le_total low high).imp (fun hdown => ⟨by linarith, by linarith⟩) fun hup => ⟨by linarith, by linarith⟩

/-- Curves that are no higher than half of the distance lead towards the other height. -/
theorem spans_sign {low high : ℚ} (hr : 0 ≤ r) (hhalf : r ≤ |high - low| / 2) :
    |Scalar.sign (high - low) * r| = r ∧ Spans (Scalar.sign (high - low) * r) low high := by
  have hsign : Scalar.sign (high - low) = if high - low < 0 then -1 else 1 := rfl
  rw [hsign]
  split
  next hup =>
    rw [abs_of_neg hup] at hhalf
    rw [neg_one_mul, abs_neg, abs_of_nonneg hr]
    exact ⟨rfl, .inr ⟨by linarith, by linarith⟩⟩
  next hdown =>
    rw [abs_of_nonneg (not_lt.1 hdown)] at hhalf
    rw [one_mul, abs_of_nonneg hr]
    exact ⟨rfl, .inl ⟨hr, by linarith⟩⟩

/-- Two curves to a branch. An upright run leads from one to the other, unless they meet. -/
theorem smooth_there (hentry : 2 * r ≤ entry) (hv : |v| ≤ r) (hspans : Spans v mid track)
    (hrun : run = [.lineTo ⟨r, track - v⟩] ∨ run = [] ∧ mid + v = track - v) :
    Smooth r (.moveTo ⟨0, mid⟩ :: .quadTo ⟨r, mid⟩ ⟨r, mid + v⟩ ::
      (run ++ [.quadTo ⟨r, track⟩ ⟨2 * r, track⟩, .lineTo ⟨entry, track⟩])) := by
  obtain ⟨hlow, hhigh⟩ := abs_le.1 hv
  obtain rfl | ⟨rfl, hmeet⟩ := hrun
  all_goals
    simp only [List.cons_append, List.nil_append]
    refine .of_isChain ?_ (hspans.imp (fun hdown => ?_) fun hup => ?_) ?_
    · simp only [isChain_moveTo, isChain_lineTo, isChain_quadTo, isChain_stop, and_true]
      and_intros <;> linarith
    · obtain ⟨hsign, hfar⟩ := hdown
      simp only [isChain_moveTo, isChain_lineTo, isChain_quadTo, isChain_stop, and_true]
      and_intros <;> linarith
    · obtain ⟨hsign, hfar⟩ := hup
      simp only [isChain_moveTo, isChain_lineTo, isChain_quadTo, isChain_stop, and_true]
      and_intros <;> linarith
    · simp only [arms, Segment.stop, List.forall_mem_cons, List.not_mem_nil, false_imp_iff, implies_true,
        and_true, abs_le]
      and_intros <;> linarith

/-- Two curves from a branch. An upright run leads from one to the other, unless they meet. -/
theorem smooth_back (hexit : exit ≤ right - 2 * r) (hv : |v| ≤ r) (hspans : Spans v mid track)
    (hrun : run = [.lineTo ⟨right - r, mid + v⟩] ∨ run = [] ∧ mid + v = track - v) :
    Smooth r (.moveTo ⟨exit, track⟩ :: .lineTo ⟨right - 2 * r, track⟩ ::
      .quadTo ⟨right - r, track⟩ ⟨right - r, track - v⟩ ::
      (run ++ [.quadTo ⟨right - r, mid⟩ ⟨right, mid⟩])) := by
  obtain ⟨hlow, hhigh⟩ := abs_le.1 hv
  obtain rfl | ⟨rfl, hmeet⟩ := hrun
  all_goals
    simp only [List.cons_append, List.nil_append]
    refine .of_isChain ?_ (hspans.symm.imp (fun hup => ?_) fun hdown => ?_) ?_
    · simp only [isChain_moveTo, isChain_lineTo, isChain_quadTo, isChain_stop, and_true]
      and_intros <;> linarith
    · obtain ⟨hsign, hfar⟩ := hup
      simp only [isChain_moveTo, isChain_lineTo, isChain_quadTo, isChain_stop, and_true]
      and_intros <;> linarith
    · obtain ⟨hsign, hfar⟩ := hdown
      simp only [isChain_moveTo, isChain_lineTo, isChain_quadTo, isChain_stop, and_true]
      and_intros <;> linarith
    · simp only [arms, Segment.stop, List.forall_mem_cons, List.not_mem_nil, false_imp_iff, implies_true,
        and_true, abs_le]
      and_intros <;> linarith

end Branch

/-- The connectors of a branch do not turn back, whichever way they take. -/
theorem smooth_branchConnectors (hc : c.Curved) {b : Box ℚ} (mid : ℚ) {right : ℚ}
    (hentry : c.branchIndent ≤ b.entry) (hexit : b.exit ≤ right - c.branchIndent) :
    ∃ there back, branchConnectors c b mid right = [.connector there, .connector back] ∧
      Smooth (c.bendRadius |b.track - mid|) there ∧ Smooth (c.bendRadius |b.track - mid|) back := by
  have hhalf : c.branchIndent / 2 = c.curveRadius := by
    rw [hc.indent]
    linarith
  have hradius : Scalar.min c.curveRadius c.curveRadius = c.curveRadius := min_self _
  have hless : Scalar.less (Scalar.abs (b.track - mid)) c.nearThreshold =
    decide (|b.track - mid| < c.nearThreshold) := rfl
  have hsame : Scalar.same (b.track - mid) (0 : ℚ) = decide (b.track - mid = 0) := rfl
  have hmin : Scalar.min c.curveRadius (Scalar.abs (b.track - mid) / 2) =
    min c.curveRadius (|b.track - mid| / 2) := rfl
  have hsides : 0 ≤ c.branchIndent := by
    rw [hc.indent]
    exact mul_nonneg zero_le_two hc.radius
  unfold branchConnectors Spacing.bendRadius
  simp only [rational_numeral, rational_zero, hhalf, hless, hsame, hc.snap, decide_eq_true_eq, hradius, hmin,
    Bool.false_eq_true, if_false]
  split
  next hlevel =>
    have hheight : mid = b.track := by linarith
    exact ⟨_, _, rfl, smooth_straight (by simp only; linarith) hheight _,
      smooth_straight (by simp only; linarith) hheight.symm _⟩
  rw [hc.indent] at hentry hexit ⊢
  split
  next hnear =>
    -- two curves of half the height each, which meet
    have hheight : |(b.track - mid) / 2| ≤ c.curveRadius := by
      have hthreshold := hc.near
      rw [abs_div, abs_two]
      linarith
    have hmeet : mid + (b.track - mid) / 2 = b.track - (b.track - mid) / 2 := by linarith
    exact ⟨_, _, rfl, smooth_there hentry hheight (spans_half _ _) (.inr ⟨rfl, hmeet⟩),
      smooth_back hexit hheight (spans_half _ _) (.inr ⟨rfl, hmeet⟩)⟩
  next hfar =>
    -- two curves as high as they are wide
    have hwide : min c.curveRadius (|b.track - mid| / 2) ≤ c.curveRadius := min_le_left _ _
    obtain ⟨hheight, hspans⟩ := spans_sign (le_min hc.radius (div_nonneg (abs_nonneg _) zero_le_two))
      (min_le_right c.curveRadius (|b.track - mid| / 2))
    exact ⟨_, _, rfl, smooth_there (by linarith) hheight.le hspans (.inl rfl),
      smooth_back (by linarith) hheight.le hspans (.inl rfl)⟩

theorem branches_alternatives (hc : c.Curved) {branches : List (Fragment ℚ)}
    (h : ∀ f ∈ branches, f.box.Attached) : (alternatives c branches).Branches c := by
  refine exists_forall₂_of_flatMap fun p hp => ?_
  have hmem : p ∈ (column c c.branchIndent 0 branches).1 := hp
  obtain ⟨hleft, hright⟩ := column_between hmem
  have hattached := h _ (mem_of_column hmem)
  have hentry : c.branchIndent ≤ p.box.entry := hleft.trans (le_add_of_nonneg_left hattached.entry)
  have hexit : p.box.exit ≤ (alternatives c branches).box.exit - c.branchIndent := by
    have hplaced : p.box.exit = p.fragment.box.exit + p.offset.x := rfl
    have hinside := hattached.exit
    rw [box_alternatives, Box.sized, hc.stroke, hplaced]
    linarith
  obtain ⟨there, back, hpaths, hthere, hback⟩ :=
    smooth_branchConnectors hc (alternatives c branches).box.track hentry hexit
  obtain ⟨first, second, hshapes, hjoins⟩ := joins_branchConnectors (c := c) p.box
    (alternatives c branches).box.track (alternatives c branches).box.exit
  have hsame : [first, second] = [.connector there, .connector back] := hshapes.symm.trans hpaths
  obtain ⟨rfl, hrest⟩ := List.cons.inj hsame
  obtain ⟨rfl, -⟩ := List.cons.inj hrest
  exact ⟨(there, back), hpaths, hjoins, hthere, hback⟩

/-! ## Repetitions -/

section Repetition

variable {r : Repetition} {inner : Fragment ℚ} {segments : List (Segment ℚ)}

/-- The way around the content. -/
theorem leadsOver_skipPath (hc : c.Curved) (h : inner.box.Attached) (hskip : r.canSkip = true)
    (hpath : Shape.connector segments =
      skipPath c.curveRadius (lapTrack c r inner) (repetitionRight c m r inner)) :
    LeadsOver c.curveRadius (repetition c m r inner) ⟨lapCorner c r inner, inner⟩ segments := by
  have hradius := hc.radius
  have hright : 4 * c.curveRadius ≤ repetitionRight c m r inner := by
    have hsides := sides_le c m r inner
    have hwidth := h.width_nonneg
    rw [repetitionRight, hc.stroke]
    linarith
  have hrise : rise c r inner = max c.curveRadius (2 * c.curveRadius - inner.box.track) := if_pos hskip
  have htrack : 2 * c.curveRadius ≤ lapTrack c r inner := by
    have hle := le_max_right c.curveRadius (2 * c.curveRadius - inner.box.track)
    rw [lapTrack, hrise]
    linarith
  have hclear : c.curveRadius ≤ inner.box.y + rise c r inner := by
    rw [h.y, zero_add, hrise]
    exact le_max_left _ _
  have hjoins : (Shape.connector segments).Joins (repetition c m r inner).box.start
      (repetition c m r inner).box.finish := by
    rw [hpath, start_repetition, finish_repetition]
    exact joins_skipPath _ _ _
  generalize lapTrack c r inner = track at hpath htrack
  generalize repetitionRight c m r inner = right at hpath hright
  simp only [skipPath, Shape.connector, Shape.path.injEq, and_true, rational_numeral, rational_zero] at hpath
  refine ⟨hjoins, pairwise_of_isChain (·.x) ?_, ?_, hclear⟩
  · rw [hpath]
    simp only [isChain_moveTo, isChain_lineTo, isChain_quadTo, isChain_stop, and_true]
    and_intros <;> linarith
  · rw [hpath]
    refine ⟨[_, _, _, _, _], _, _, [_, _, _, _, _], rfl, rfl, rfl, pairwise_of_isChain (·.y) ?_,
      pairwise_of_isChain (·.y) ?_⟩
    all_goals
      simp only [List.cons_append, List.nil_append, List.isChain_cons_cons, List.isChain_singleton, and_true]
      and_intros <;> linarith

/-- The way back under the content. -/
theorem leadsUnder_loopPath (hc : c.Curved) (h : inner.box.Attached)
    (hpath : Shape.connector segments =
      loopPath c.curveRadius (lapTrack c r inner) (lapBottom c r inner) (lapLeft c inner) (lapRight c inner)) :
    LeadsUnder c.curveRadius ⟨lapCorner c r inner, inner⟩ segments := by
  have hradius := hc.radius
  have hpassage : lapLeft c inner ≤ lapRight c inner := add_le_add_right h.passage _
  have hbottom : lapTrack c r inner + 2 * c.curveRadius ≤ lapBottom c r inner := le_max_right _ _
  have hclear : inner.box.y + rise c r inner + inner.box.height + c.curveRadius ≤ lapBottom c r inner := by
    have hle : rise c r inner + inner.box.height - c.strokeInset + c.curveRadius ≤ lapBottom c r inner :=
      le_max_left _ _
    rw [hc.stroke] at hle
    rw [h.y]
    linarith
  have hjoins : (Shape.connector segments).Joins (Box.finish (Placed.box ⟨lapCorner c r inner, inner⟩))
      (Box.start (Placed.box ⟨lapCorner c r inner, inner⟩)) := by
    rw [hpath, start_lap, finish_lap]
    exact joins_loopPath _ _ _ _ _
  have hentry : (Placed.box ⟨lapCorner c r inner, inner⟩).entry = lapLeft c inner := add_comm _ _
  have hexit : (Placed.box ⟨lapCorner c r inner, inner⟩).exit = lapRight c inner := add_comm _ _
  refine ⟨hjoins, ?_, lapBottom c r inner, ?_, hclear⟩
  all_goals
    generalize lapTrack c r inner = track at hpath hbottom
    generalize lapBottom c r inner = bottom at hpath hbottom
    simp only [loopPath, Shape.connector, Shape.path.injEq, and_true] at hpath
    rw [hpath]
  · rw [hentry, hexit]
    simp only [pathPoints, forall_points_moveTo, forall_points_lineTo, forall_points_quadTo,
      forall_points_nil, and_true]
    and_intros <;> linarith
  · refine ⟨[_, _, _, _, _], _, _, [_, _, _, _, _], rfl, rfl, rfl, pairwise_of_isChain (·.y) ?_,
      pairwise_of_isChain (·.y) ?_⟩
    all_goals
      simp only [List.cons_append, List.nil_append, List.isChain_cons_cons, List.isChain_singleton, and_true]
      and_intros <;> linarith

theorem laps_repetition (hc : c.Curved) (r : Repetition) (h : inner.box.Attached) :
    (repetition c m r inner).Laps c.curveRadius := by
  refine ⟨⟨lapCorner c r inner, inner⟩,
    skipShapes c m r inner ++ loopShapes c r inner ++ captionShapes c m r inner,
    children_repetition c m r inner, ?_, fun segments hmem => ?_⟩
  · rw [shapes_repetition, start_repetition, finish_repetition, start_lap, finish_lap, rational_zero]
  · obtain (hmem | hmem) | hmem := by simpa only [List.mem_append] using hmem
    · exact .inl (leadsOver_skipPath hc h (canSkip_of_mem_skipShapes hmem) (connector_skipShapes hmem))
    · exact .inr (leadsUnder_loopPath hc h (connector_loopShapes hmem))
    · exact absurd hmem (connector_captionShapes segments)

end Repetition

/-! ## Every construct -/

/-- Fragments of other names have neither branches nor laps. -/
theorem flowing_of_className {f : Fragment ℚ} (h : f.className ∉ ["alternation", "quantified"]) :
    f.Flowing c := by
  simp only [List.mem_cons, List.not_mem_nil, or_false, not_or] at h
  exact ⟨fun hname => absurd hname h.1, fun hname => absurd hname h.2⟩

theorem drawnClosed_flowing (hc : c.Curved) (hample : c.Ample) (hm : m.NonNegative) :
    DrawnClosed c m fun f => f.Orderly c.strokeInset ∧ f.Flowing c := by
  have horderly := drawnClosed_orderly hample hm
  constructor
  case label =>
    intro className hname text
    have hother : ∀ className ∈ labelNames, className ∉ ["alternation", "quantified"] := by decide
    exact ⟨horderly.label className hname text, flowing_of_className (hother className hname)⟩
  case sequence =>
    intro parts hparts
    refine ⟨horderly.sequence parts fun f hf => (hparts f hf).1, ?_⟩
    match parts, hparts with
    | [], _ => exact flowing_of_className (by simp only [sequence]; decide)
    | [only], hparts => exact (hparts only (.head _)).2
    | _ :: _ :: _, _ => exact flowing_of_className (by simp only [sequence]; decide)
  case alternatives =>
    intro branches hbranches
    refine ⟨horderly.alternatives branches fun f hf => (hbranches f hf).1, fun _ => ?_, fun hname => ?_⟩
    · exact branches_alternatives hc fun f hf => (hbranches f hf).1.attached
    · exact absurd hname (by simp only [alternatives]; decide)
  case range =>
    intro first last hfirst hlast
    exact ⟨horderly.range first last hfirst.1 hlast.1,
      flowing_of_className (by simp only [range]; decide)⟩
  case charset =>
    intro negated members hmembers
    exact ⟨horderly.charset negated members fun f hf => (hmembers f hf).1,
      flowing_of_className (by simp only [charset]; decide)⟩
  case frame =>
    intro kind number caption content hcaption hcontent
    exact ⟨horderly.frame kind number caption content hcaption hcontent.1,
      flowing_of_className (by simp only [frame]; decide)⟩
  case repetition =>
    intro r inner hinner
    refine ⟨horderly.repetition r inner hinner.1, fun hname => ?_, fun _ => ?_⟩
    · exact absurd hname (by simp only [repetition]; decide)
    · exact laps_repetition hc r hinner.1.attached

theorem flowing_drawing (flags : List Char) (content : Fragment ℚ) :
    (drawing c m flags content).fragment.Flowing c :=
  flowing_of_className (by simp only [drawing]; decide)

end Railroad

namespace Pattern

/-- **Curves never double back.** In a picture, with any measure, the connectors of branches lead from one
track to the other without turning back, the way around a repetition leads over its content and the way
back under it, each of them at a distance. -/
theorem Root.flowing (root : Root) {m : Measure ℚ} (hm : m.NonNegative) :
    ∀ f ∈ (root.drawing .pixels m).fragment.descendants, f.Flowing .pixels := by
  have hclosed := Railroad.drawnClosed_flowing Spacing.curved_pixels Spacing.ample_pixels hm
  have hdrawing := hclosed.drawing root fun content hcontent =>
    ⟨Railroad.orderly_drawing Spacing.ample_pixels hm hcontent.1.attached,
      Railroad.flowing_drawing (c := .pixels) (m := m) root.flags content⟩
  exact fun f hf => (hdrawing f hf).2

/-- The branches of an alternation, and the laps of one of them. -/
theorem flowing_starBranch :
    let root : Root := ⟨⟨"a*|bb".toList, 0⟩, [], .ofBranches 0
      [.ofItems 0 [.quantified ⟨"a*".toList, 0⟩ (.literal ⟨['a'], 0⟩ ['a']) ⟨0, none, true⟩],
       .ofItems 3 [.literal ⟨['b'], 3⟩ ['b'], .literal ⟨['b'], 4⟩ ['b']]]⟩
    let d := root.drawing (.pixels : Spacing ℚ) .standardFont
    (∃ f ∈ d.fragment.descendants, f.className = "alternation" ∧ f.Branches .pixels) ∧
      ∃ f ∈ d.fragment.descendants, f.className = "quantified" ∧ f.Laps 10 := by
  intro root d
  have hflowing := root.flowing Measure.nonNegative_standardFont
  refine ⟨⟨_, .tail _ (.head _), rfl, ?_⟩, ⟨_, .tail _ (.tail _ (.head _)), rfl, ?_⟩⟩
  · exact (hflowing _ (.tail _ (.head _))).alternation rfl
  · exact (hflowing _ (.tail _ (.tail _ (.head _)))).quantified rfl

end Pattern

end RegexDiagram
