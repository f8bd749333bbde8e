import RegexDiagram.Proofs.Drawing.Corners

/-!
# The numbers of a drawing

In character cells every number of a drawing is an integer. This is proved construct by construct: all
distances and extents are integers, and halves are rounded down. The one place where halves are not
rounded, the connectors of a branch near to the middle, is never reached, because an integer distance
below one is none.
-/

namespace RegexDiagram

open Pattern

/-! ## Numbers -/

def Point.numbers (p : Point ℚ) : List ℚ := [p.x, p.y]

def Box.numbers (b : Box ℚ) : List ℚ := [b.x, b.y, b.width, b.height, b.entry, b.exit, b.track]

def Shape.numbers : Shape ℚ → List ℚ
  | .rect area radius _ _ => [area.x, area.y, area.width, area.height, radius]
  | .text origin extent _ _ => origin.numbers ++ [extent.width, extent.height, extent.baseline]
  | .path segments _ => (segments.flatMap Segment.points).flatMap Point.numbers
  | .circle center radius _ => center.numbers ++ [radius]
  | .arrow tip _ => tip.numbers

/-- The numbers of a fragment, those of the fragments in it not included. -/
def Fragment.numbers (f : Fragment ℚ) : List ℚ :=
  f.box.numbers ++ f.shapes.flatMap Shape.numbers ++ f.children.flatMap (·.offset.numbers)

/-- All numbers of a drawing. -/
def Drawing.numbers (d : Drawing ℚ) : List ℚ :=
  d.width :: d.height :: d.fragment.descendants.flatMap Fragment.numbers

/-! ## Integers -/

/-- All numbers of a list are integers. -/
def AllIntegral (numbers : List ℚ) : Prop := ∀ x ∈ numbers, Integral x

theorem AllIntegral.append {xs ys : List ℚ} (hx : AllIntegral xs) (hy : AllIntegral ys) :
    AllIntegral (xs ++ ys) :=
  List.forall_mem_append.2 ⟨hx, hy⟩

theorem AllIntegral.flatMap {β : Type} {f : β → List ℚ} {bs : List β} (h : ∀ b ∈ bs, AllIntegral (f b)) :
    AllIntegral (bs.flatMap f) := fun x hx => by
  obtain ⟨b, hb, hx⟩ := List.mem_flatMap.1 hx
  exact h b hb x hx

/-- The numbers of a box are integers. -/
structure Box.Integral (b : Box ℚ) : Prop where
  x : RegexDiagram.Integral b.x
  y : RegexDiagram.Integral b.y
  width : RegexDiagram.Integral b.width
  height : RegexDiagram.Integral b.height
  entry : RegexDiagram.Integral b.entry
  exit : RegexDiagram.Integral b.exit
  track : RegexDiagram.Integral b.track

/-- A fragment is placed at integers, and so are its own parts. -/
structure Placed.Integral (p : Placed ℚ) : Prop where
  x : RegexDiagram.Integral p.offset.x
  y : RegexDiagram.Integral p.offset.y
  box : p.fragment.box.Integral

theorem Placed.Integral.translate {p : Placed ℚ} (h : p.Integral) : p.box.Integral := by
  obtain ⟨hx, hy, hbox⟩ := h
  constructor <;> simp only [Placed.box, Box.translate]
  · exact hbox.x.add hx
  · exact hbox.y.add hy
  · exact hbox.width
  · exact hbox.height
  · exact hbox.entry.add hx
  · exact hbox.exit.add hx
  · exact hbox.track.add hy

/-- The numbers of a fragment are integers, with those of the boxes of its children. -/
structure Fragment.Integral (f : Fragment ℚ) : Prop where
  box : f.box.Integral
  shapes : AllIntegral (f.shapes.flatMap Shape.numbers)
  children : ∀ p ∈ f.children, p.Integral

theorem Fragment.Integral.numbers {f : Fragment ℚ} (h : f.Integral) : AllIntegral f.numbers := by
  obtain ⟨hbox, hshapes, hchildren⟩ := h
  refine AllIntegral.append (AllIntegral.append ?_ hshapes) (AllIntegral.flatMap fun p hp => ?_)
  · obtain ⟨hx, hy, hwidth, hheight, hentry, hexit, htrack⟩ := hbox
    simp [AllIntegral, Box.numbers, *]
  · obtain ⟨hx, hy, -⟩ := hchildren p hp
    exact List.forall_mem_cons.2 ⟨hx, List.forall_mem_singleton.2 hy⟩

namespace Railroad

variable {c : Spacing ℚ} {m : Measure ℚ}

theorem integral_labelBox (hc : c.Gridded) (hm : m.Integral) (className : String) (text : List Char) :
    (labelBox c m className text).Integral := by
  obtain ⟨hwidth, hheight, hbaseline⟩ := hm text
  have hframe : Integral ((m.extent text).width + 2 * 2) := by simp [hwidth]
  refine ⟨?_, ?_, fun p hp => absurd hp List.not_mem_nil⟩
  · constructor <;>
      simp [labelBox, Box.sized, hc.snapped, hc.labelPaddingX, hc.labelPaddingY, hc.strokeInset, hframe,
        hheight]
  · simp [AllIntegral, labelBox, Shape.numbers, Point.numbers, hc.labelPaddingX, hc.labelPaddingY,
      hc.labelRadius, hwidth, hheight, hbaseline]

/-! ### Rows and columns -/

theorem integral_row (hc : c.Gridded) {track x : ℚ} (htrack : Integral track) (hx : Integral x)
    {fragments : List (Fragment ℚ)} (h : ∀ f ∈ fragments, f.box.Integral) :
    (∀ p ∈ (row c track x fragments).1, p.Integral) ∧ Integral (row c track x fragments).2 := by
  induction fragments generalizing x with
  | nil => exact ⟨fun p hp => absurd hp List.not_mem_nil, hx⟩
  | cons f rest ih =>
    obtain ⟨hf, hrest⟩ := List.forall_mem_cons.1 h
    have hgap : Integral c.sequenceGap := by simp [hc.sequenceGap]
    obtain ⟨hplaced, hright⟩ := ih (hx.add (hf.width.add hgap)) hrest
    exact ⟨List.forall_mem_cons.2 ⟨⟨hx, htrack.sub hf.track, hf⟩, hplaced⟩, hright⟩

theorem integral_stack (hc : c.Gridded) {left : Fragment ℚ → ℚ} {y : ℚ} (hy : Integral y)
    {fragments : List (Fragment ℚ)} (h : ∀ f ∈ fragments, Integral (left f) ∧ f.box.Integral) :
    (∀ p ∈ (stack c left y fragments).1, p.Integral) ∧ Integral (stack c left y fragments).2 := by
  induction fragments generalizing y with
  | nil => exact ⟨fun p hp => absurd hp List.not_mem_nil, hy⟩
  | cons f rest ih =>
    obtain ⟨⟨hleft, hf⟩, hrest⟩ := List.forall_mem_cons.1 h
    have hgap : Integral c.branchGap := by simp [hc.branchGap]
    obtain ⟨hplaced, hbottom⟩ := ih (hy.add (hf.height.add hgap)) hrest
    exact ⟨List.forall_mem_cons.2 ⟨⟨hleft, hy, hf⟩, hplaced⟩, hbottom⟩

theorem integral_widest {fragments : List (Fragment ℚ)} (h : ∀ f ∈ fragments, f.box.Integral) :
    Integral (widest fragments) := by
  rw [widest, rational_zero]
  exact Integral.zero.foldl_max (List.forall_mem_map.2 fun f hf => (h f hf).width)

theorem integral_column (hc : c.Gridded) {pad y : ℚ} (hpad : Integral pad) (hy : Integral y)
    {fragments : List (Fragment ℚ)} (h : ∀ f ∈ fragments, f.box.Integral) :
    (∀ p ∈ (column c pad y fragments).1, p.Integral) ∧ Integral (column c pad y fragments).2 :=
  integral_stack hc hy fun f hf => ⟨by simp [hc.snapped, hpad], h f hf⟩

/-! ### Sequences -/

theorem integral_rowConnectors {track : ℚ} (htrack : Integral track) {placed : List (Placed ℚ)}
    (h : ∀ p ∈ placed, p.Integral) :
    AllIntegral ((rowConnectors track placed).flatMap Shape.numbers) := by
  induction placed with
  | nil => exact fun x hx => absurd hx List.not_mem_nil
  | cons a rest ih =>
    obtain ⟨ha, hrest⟩ := List.forall_mem_cons.1 h
    cases rest with
    | nil => exact fun x hx => absurd hx List.not_mem_nil
    | cons b more =>
      have hexit := ha.translate.exit
      have hentry := (hrest b (.head _)).translate.entry
      have htrack : AllIntegral [a.box.exit, track, b.box.entry, track] := by
        simp [AllIntegral, hexit, hentry, htrack]
      exact htrack.append (ih hrest)

theorem integral_rowTrack {fragments : List (Fragment ℚ)} (h : ∀ f ∈ fragments, f.box.Integral) :
    Integral (rowTrack fragments) :=
  Integral.foldl_max .zero (List.forall_mem_map.2 fun f hf => (h f hf).track.sub (h f hf).y)

theorem integral_sequence (hc : c.Gridded) {first second : Fragment ℚ} {rest : List (Fragment ℚ)}
    (h : ∀ f ∈ first :: second :: rest, f.box.Integral) :
    (sequence c (first :: second :: rest)).Integral := by
  have htrack := integral_rowTrack h
  obtain ⟨hplaced, hright⟩ := integral_row hc htrack .zero h
  have hheight : Integral (rowHeight (series c (first :: second :: rest)).1) := by
    rw [rowHeight, ← List.foldl_map (f := fun p : Placed ℚ => p.offset.y + p.fragment.box.height)
      (g := Scalar.max)]
    exact Integral.foldl_max .zero
      (List.forall_mem_map.2 fun p hp => (hplaced p hp).y.add (hplaced p hp).box.height)
  have hgap : Integral c.sequenceGap := by simp [hc.sequenceGap]
  have hentry := (h first (.head _)).entry
  have hexit : Integral (((series c (first :: second :: rest)).1.getLast?.map (·.box.exit)).getD 0) := by
    cases hlast : (series c (first :: second :: rest)).1.getLast? with
    | none => simp
    | some last => exact (hplaced last (List.mem_of_getLast? hlast)).translate.exit
  refine ⟨?_, integral_rowConnectors htrack hplaced, hplaced⟩
  rw [box_sequence]
  exact ⟨.zero, .zero, hright.sub hgap, hheight, hentry.add .zero, hexit, htrack⟩

/-! ### Alternations -/

/-- A branch is joined to the line in the middle by straight lines, or it is a whole cell away. -/
theorem integral_branchConnectors (hc : c.Gridded) {b : Box ℚ} {mid right : ℚ} (hb : b.Integral)
    (hmid : Integral mid) (hright : Integral right) :
    AllIntegral ((branchConnectors c b mid right).flatMap Shape.numbers) := by
  have hdistance : Integral (b.track - mid) := hb.track.sub hmid
  obtain ⟨hentry, hexit, htrack⟩ := And.intro hb.entry (And.intro hb.exit hb.track)
  obtain ⟨-, hpaths⟩ | ⟨hne, hnear, -⟩ | ⟨way, hway, hpaths⟩ := branchConnectors_cases hc b mid right
  · rw [hpaths]
    simp [AllIntegral, Shape.track, Shape.connector, Shape.numbers, Segment.points, Point.numbers, *]
  -- integers that differ are a whole cell apart
  · exact absurd hnear (not_lt.2 (hdistance.one_le_abs (sub_ne_zero.2 hne)))
  · have hwhole : Integral way := by
      obtain ⟨rfl, -⟩ | ⟨rfl, -⟩ := hway
      · exact .one
      · exact .neg .one
    have hright' := hright.sub (.numeral 2)
    rw [hpaths]
    simp [AllIntegral, Shape.connector, Shape.numbers, Segment.points, Point.numbers, *]

theorem integral_branchesHeight (hc : c.Gridded) {branches : List (Fragment ℚ)}
    (h : ∀ f ∈ branches, f.box.Integral) : Integral (branchesHeight c branches) := by
  have hindent : Integral c.branchIndent := by simp [hc.branchIndent]
  have hgap : Integral c.branchGap := by simp [hc.branchGap]
  exact ((integral_column hc hindent .zero h).2.sub hgap).max .zero

theorem integral_alternatives (hc : c.Gridded) {branches : List (Fragment ℚ)}
    (h : ∀ f ∈ branches, f.box.Integral) : (alternatives c branches).Integral := by
  have hindent : Integral c.branchIndent := by simp [hc.branchIndent]
  have hstroke : Integral c.strokeInset := by simp [hc.strokeInset]
  have hplaced := (integral_column hc hindent .zero h).1
  have hwidth : Integral (widest branches + 2 * c.branchIndent) :=
    (integral_widest h).add ((Integral.numeral 2).mul hindent)
  have hheight := integral_branchesHeight hc h
  have hmid : Integral (c.snapped (branchesHeight c branches / 2)) := by simp [hc.snapped]
  refine ⟨?_, ?_, hplaced⟩
  · rw [box_alternatives]
    exact ⟨.zero, .zero, hwidth, hheight, .zero, hwidth.sub hstroke, hmid⟩
  · have hshapes : (alternatives c branches).shapes =
        (column c c.branchIndent 0 branches).1.flatMap fun p =>
          branchConnectors c p.box (c.snapped (branchesHeight c branches / 2))
            (widest branches + 2 * c.branchIndent - c.strokeInset) := rfl
    rw [hshapes, List.flatMap_assoc]
    exact .flatMap fun p hp =>
      integral_branchConnectors hc (hplaced p hp).translate hmid (hwidth.sub hstroke)

/-! ### Classes and groups -/

theorem integral_range (hc : c.Gridded) (hm : m.Integral) {first last : Fragment ℚ}
    (hfirst : first.box.Integral) (hlast : last.box.Integral) : (range c m first last).Integral := by
  obtain ⟨hwidth, hheight, hbaseline⟩ := hm ['-']
  have hhyphen : Integral (hyphenLeft c first) := by simp [hyphenLeft, hc.snapped, hfirst.width]
  have hlastLeft : Integral (lastLeft c m first) := by simp [lastLeft, hc.snapped, hhyphen, hwidth]
  have hrange : Integral (rangeHeight m first last) := (hfirst.height.max hlast.height).max hheight
  rw [range_eq]
  refine ⟨?_, ?_, List.forall_mem_cons.2 ⟨⟨.zero, ?_, hfirst⟩, List.forall_mem_singleton.2
    ⟨hlastLeft, ?_, hlast⟩⟩⟩
  · constructor <;> simp [Box.sized, hc.snapped, hc.strokeInset, hlastLeft, hlast.width, hrange]
  · simp [AllIntegral, Shape.numbers, Point.numbers, hc.snapped, *]
  · simp [hc.snapped]
  · simp [hc.snapped]

theorem integral_charset (hc : c.Gridded) (hm : m.Integral) (negated : Bool)
    {members : List (Fragment ℚ)} (h : ∀ f ∈ members, f.box.Integral) :
    (charset c m negated members).Integral := by
  obtain ⟨hcaptionWidth, hcaptionHeight, hbaseline⟩ := hm (charsetCaption negated)
  have hpadX : Integral c.labelPaddingX := by simp [hc.labelPaddingX]
  have hpadY : Integral c.labelPaddingY := by simp [hc.labelPaddingY]
  have hgap : Integral c.branchGap := by simp [hc.branchGap]
  have htop : Integral (captionBottom c m (charsetCaption negated)) := by
    simp [captionBottom, hc.captionGap, hcaptionHeight]
  obtain ⟨hplaced, hbottom⟩ := integral_column hc hpadX (htop.add hpadY) h
  have hwidth : Integral (widest members + 2 * c.labelPaddingX) :=
    (integral_widest h).add ((Integral.numeral 2).mul hpadX)
  have hheight : Integral (classHeight c m negated members) := by
    unfold classHeight
    split
    · exact (hbottom.add hpadY).sub htop
    · exact ((hbottom.sub hgap).add hpadY).sub htop
  have hshapes : (charset c m negated members).shapes =
      [.text ⟨0, 0⟩ (m.extent (charsetCaption negated)) (charsetCaption negated) "caption",
       .rect ⟨0, captionBottom c m (charsetCaption negated), widest members + 2 * c.labelPaddingX,
        classHeight c m negated members⟩ 0 false ""] := rfl
  refine ⟨?_, ?_, hplaced⟩
  · rw [box_charset]
    constructor <;> simp [Box.sized, hc.snapped, hc.strokeInset, *]
  · rw [hshapes]
    simp [AllIntegral, Shape.numbers, Point.numbers, *]

theorem integral_frame (hc : c.Gridded) (hm : m.Integral) (caption : List Char) {content : Fragment ℚ}
    (h : content.box.Integral) : (frame c m caption content).Integral := by
  obtain ⟨hcaptionWidth, hcaptionHeight, hbaseline⟩ := hm caption
  have htop : Integral (captionBottom c m caption) := by
    simp [captionBottom, hc.captionGap, hcaptionHeight]
  have hpad : Integral (2 * c.groupPadding) := by simp [hc.groupPadding]
  have hwidth : Integral (frameWidth c m caption content) := hcaptionWidth.max (h.width.add hpad)
  have hheight : Integral (content.box.height + 2 * c.groupPadding) := h.height.add hpad
  have hcorner : Integral (frameCorner c m caption content).x ∧
      Integral (frameCorner c m caption content).y := by
    simp [frameCorner, hc.snapped, hc.groupPadding, htop]
  have hshapes : (frame c m caption content).shapes =
      [.text ⟨0, 0⟩ (m.extent caption) caption "caption",
       .rect ⟨0, captionBottom c m caption, frameWidth c m caption content,
        content.box.height + 2 * c.groupPadding⟩ 0 true ""] := rfl
  obtain ⟨hx, hy⟩ := hcorner
  refine ⟨?_, ?_, ?_⟩
  · rw [box_frame]
    constructor <;> simp [Box.sized, *, h.entry, h.exit, h.track]
  · rw [hshapes]
    simp [AllIntegral, Shape.numbers, Point.numbers, *]
  · rw [children_frame]
    exact List.forall_mem_singleton.2 ⟨hx, hy, h⟩

/-! ### Repetitions -/

section Laps

variable (r : Repetition) {inner : Fragment ℚ}

theorem integral_rise (hc : c.Gridded) (h : inner.box.Integral) : Integral (rise c r inner) := by
  have hradius : Integral c.curveRadius := by simp [hc.curveRadius]
  unfold rise
  split
  · exact hradius.max (((Integral.numeral 2).mul hradius).sub h.track)
  · exact .zero

theorem integral_lapBottom (hc : c.Gridded) (h : inner.box.Integral) : Integral (lapBottom c r inner) := by
  have hrise := integral_rise r hc h
  have hstroke : Integral c.strokeInset := by simp [hc.strokeInset]
  have hradius : Integral c.curveRadius := by simp [hc.curveRadius]
  exact (((hrise.add h.height).sub hstroke).add hradius).max
    ((hrise.add h.track).add ((Integral.numeral 2).mul hradius))

theorem integral_lapCaption (hc : c.Gridded) (hm : m.Integral) (h : inner.box.Integral)
    {origin : Point ℚ} {extent : Extent ℚ} {text : List Char}
    (hcaption : lapCaption c m r inner = some (origin, extent, text)) :
    (Integral origin.x ∧ Integral origin.y) ∧ Integral extent.width ∧ Integral extent.height ∧
      Integral extent.baseline := by
  obtain ⟨label, -, hlabel⟩ := Option.map_eq_some_iff.1 hcaption
  obtain ⟨rfl, rfl, -⟩ := hlabel
  have hextent := hm (c.shown label)
  have hbottom := integral_lapBottom r hc h
  have hright : Integral (lapRight c inner + c.curveRadius) := by
    simp [lapRight, hc.curveRadius, h.exit]
  refine ⟨⟨(hright.sub hextent.1).max .zero, ?_⟩, hextent⟩
  simp [hc.strokeInset, hc.captionGap, hbottom]

theorem integral_lapHeight (hc : c.Gridded) (h : inner.box.Integral) : Integral (lapHeight c r inner) := by
  have hcontent := (integral_rise r hc h).add h.height
  have hbottom := integral_lapBottom r hc h
  have hstroke : Integral c.strokeInset := by simp [hc.strokeInset]
  unfold lapHeight
  split
  · exact hcontent.max (hbottom.add hstroke)
  · exact hcontent

theorem integral_repetitionSize (hc : c.Gridded) (hm : m.Integral) (h : inner.box.Integral) :
    Integral (repetitionWidth c m r inner) ∧ Integral (repetitionHeight c m r inner) := by
  have hwidth : Integral (lapWidth c inner) := by simp [lapWidth, hc.curveRadius, h.width]
  have hheight := integral_lapHeight r hc h
  unfold repetitionWidth repetitionHeight
  cases hcaption : lapCaption c m r inner with
  | none => exact ⟨hwidth, hheight⟩
  | some caption =>
    obtain ⟨⟨hx, hy⟩, hextent⟩ := integral_lapCaption r hc hm h hcaption
    exact ⟨hwidth.max (hx.add hextent.1), hheight.max (hy.add hextent.2.1)⟩

theorem integral_skipShapes (hc : c.Gridded) (h : Integral (lapTrack c r inner))
    (hright : Integral (repetitionRight c m r inner)) :
    AllIntegral ((skipShapes c m r inner).flatMap Shape.numbers) := by
  have hright' := hright.sub (.numeral 2)
  unfold skipShapes
  split
  · cases r.greedy <;>
      simp [AllIntegral, skipPath, Shape.connector, Shape.numbers, Segment.points, Point.numbers,
        hc.curveRadius, hc.snapped, *]
  · exact fun x hx => absurd hx List.not_mem_nil

theorem integral_loopShapes (hc : c.Gridded) (h : Integral (lapTrack c r inner))
    (hbottom : Integral (lapBottom c r inner)) (hleft : Integral (lapLeft c inner))
    (hright : Integral (lapRight c inner)) :
    AllIntegral ((loopShapes c r inner).flatMap Shape.numbers) := by
  unfold loopShapes
  split
  · cases r.greedy <;>
      simp [AllIntegral, loopPath, Shape.connector, Shape.numbers, Segment.points, Point.numbers,
        hc.curveRadius, hc.snapped, *]
  · exact fun x hx => absurd hx List.not_mem_nil

theorem integral_repetition (hc : c.Gridded) (hm : m.Integral) (h : inner.box.Integral) :
    (repetition c m r inner).Integral := by
  have hrise := integral_rise r hc h
  have htrack : Integral (lapTrack c r inner) := hrise.add h.track
  have hleft : Integral (lapLeft c inner) := by simp [lapLeft, hc.curveRadius, h.entry]
  have hlapRight : Integral (lapRight c inner) := by simp [lapRight, hc.curveRadius, h.exit]
  obtain ⟨hwidth, hheight⟩ := integral_repetitionSize r hc hm h
  have hright : Integral (repetitionRight c m r inner) := by
    simp [repetitionRight, hc.strokeInset, hwidth]
  refine ⟨?_, ?_, ?_⟩
  · rw [box_repetition]
    exact ⟨.zero, .zero, hwidth, hheight, .zero, hright, htrack⟩
  · have htracks : AllIntegral ([Shape.track ⟨0, lapTrack c r inner⟩ ⟨lapLeft c inner, lapTrack c r inner⟩,
        .track ⟨lapRight c inner, lapTrack c r inner⟩
          ⟨repetitionRight c m r inner, lapTrack c r inner⟩].flatMap Shape.numbers) := by
      simp [AllIntegral, Shape.track, Shape.connector, Shape.numbers, Segment.points, Point.numbers, *]
    have hcaption : AllIntegral ((captionShapes c m r inner).flatMap Shape.numbers) := by
      unfold captionShapes
      cases hcaption : lapCaption c m r inner with
      | none => exact fun x hx => absurd hx List.not_mem_nil
      | some caption =>
        obtain ⟨⟨hx, hy⟩, hextent⟩ := integral_lapCaption r hc hm h hcaption
        simp [AllIntegral, Shape.numbers, Point.numbers, *]
    rw [shapes_repetition, List.flatMap_cons, List.flatMap_cons, List.flatMap_append,
      List.flatMap_append]
    have hpaths := (integral_skipShapes r hc htrack hright).append
      (integral_loopShapes r hc htrack (integral_lapBottom r hc h) hleft hlapRight)
    exact (List.append_assoc _ _ _).symm ▸ htracks.append (hpaths.append hcaption)
  · rw [children_repetition]
    refine List.forall_mem_singleton.2 ⟨?_, hrise, h⟩
    simp [lapCorner, hc.curveRadius]

end Laps

/-! ### Drawings -/

theorem shapes_drawing (c : Spacing ℚ) (m : Measure ℚ) (flags : List Char) (content : Fragment ℚ) :
    (drawing c m flags content).fragment.shapes =
      ((flagsLine c m flags).toList.map fun line => .text ⟨c.margin, c.margin⟩ line.2 line.1 "flags") ++
      [.track ⟨c.margin + c.terminalRadius + c.terminalRadius, flagsBottom c m flags + content.box.track⟩
          ⟨contentLeft c + content.box.entry, flagsBottom c m flags + content.box.track⟩,
       .track ⟨contentLeft c + content.box.exit, flagsBottom c m flags + content.box.track⟩
          ⟨trackEnd c content, flagsBottom c m flags + content.box.track⟩,
       .circle ⟨c.margin + c.terminalRadius, flagsBottom c m flags + content.box.track⟩
          c.terminalRadius "terminal",
       .circle ⟨trackEnd c content + c.terminalRadius, flagsBottom c m flags + content.box.track⟩
          c.terminalRadius "terminal"] := by
  rw [drawing, flagsBottom, flagsLine]
  cases flagsCaption flags <;> rfl

theorem integral_flags (hc : c.Gridded) (hm : m.Integral) (flags : List Char) :
    Integral (flagsBottom c m flags) ∧ Integral (flagsWidth c m flags) ∧
      AllIntegral (((flagsLine c m flags).toList.map fun line =>
        Shape.text ⟨c.margin, c.margin⟩ line.2 line.1 "flags").flatMap Shape.numbers) := by
  unfold flagsBottom flagsWidth
  cases hline : flagsLine c m flags with
  | none => exact ⟨by simp [hc.margin], .zero, fun x hx => absurd hx List.not_mem_nil⟩
  | some line =>
    obtain ⟨caption, -, hcaption⟩ := Option.map_eq_some_iff.1 hline
    obtain ⟨hwidth, hheight, hbaseline⟩ := hm (c.shown caption)
    obtain rfl := hcaption
    simp [AllIntegral, Shape.numbers, Point.numbers, hc.margin, hc.captionGap, *]

theorem integral_drawing (hc : c.Gridded) (hm : m.Integral) (flags : List Char) {content : Fragment ℚ}
    (h : content.box.Integral) : (drawing c m flags content).fragment.Integral := by
  obtain ⟨hflags, hflagsWidth, htext⟩ := integral_flags hc hm flags
  have hleft : Integral (contentLeft c) := by
    simp [contentLeft, hc.margin, hc.terminalRadius, hc.terminalStub]
  have hright : Integral (max content.box.exit (content.box.width - c.strokeInset)) := by
    simp [hc.strokeInset, h.exit, h.width]
  have hend : Integral (trackEnd c content) := by
    simp [trackEnd, hc.terminalStub, hleft, hright]
  have hlast : Integral (trackEnd c content + 2 * c.terminalRadius + c.strokeInset + c.margin) := by
    simp [hc.terminalRadius, hc.strokeInset, hc.margin, hend]
  have hwidth : Integral (drawing c m flags content).width := by
    rw [drawing_width]
    exact hlast.max hflagsWidth
  have hheight : Integral (drawing c m flags content).height := by
    rw [drawing_height]
    simp [hc.margin, hflags, h.height]
  refine ⟨?_, ?_, ?_⟩
  · rw [box_drawing]
    constructor <;> simp [Box.sized, hc.margin, hc.terminalRadius, h.track, *]
  · rw [shapes_drawing, List.flatMap_append]
    refine htext.append ?_
    simp [AllIntegral, Shape.track, Shape.connector, Shape.numbers, Segment.points, Point.numbers,
      hc.margin, hc.terminalRadius, h.entry, h.exit, h.track, *]
  · rw [children_drawing]
    exact List.forall_mem_singleton.2 ⟨hleft, hflags, h⟩

theorem drawnClosed_integral (hc : c.Gridded) (hm : m.Integral) : DrawnClosed c m Fragment.Integral where
  label className _ text := integral_labelBox hc hm className text
  sequence parts hparts := by
    match parts, hparts with
    | [], _ =>
      refine ⟨?_, fun x hx => absurd hx List.not_mem_nil, fun p hp => absurd hp List.not_mem_nil⟩
      constructor <;> simp [sequence, Box.empty, Box.ofRect]
    | [only], hparts => exact hparts only (.head _)
    | first :: second :: rest, hparts => exact integral_sequence hc fun f hf => (hparts f hf).box
  alternatives _ h := integral_alternatives hc fun f hf => (h f hf).box
  range _ _ hfirst hlast := integral_range hc hm hfirst.box hlast.box
  charset negated _ h := integral_charset hc hm negated fun f hf => (h f hf).box
  frame _ _ caption _ _ h := integral_frame hc hm caption h.box
  repetition r _ h := integral_repetition r hc hm h.box

end Railroad

end RegexDiagram
