import RegexDiagram.Proofs.Drawing.Numbers

/-!
# The inset of lines

In character cells the last column of a box is one before its right edge, and the last row one above its
lower edge: this is the inset of a stroke. A box is snug if its track runs in one of its rows and leaves
it in one of its columns, and a fragment keeps its own lines if they stay in the rows and columns of its
box. A construct keeps its lines if the part that lies last in it has a snug box. An empty part has none.
-/

namespace RegexDiagram

open Pattern

/-- The track runs through the last row of the box or above it, and leaves the box in its last column or
before it. -/
structure Box.Snug (b : Box ℚ) : Prop where
  exit : b.exit + 1 ≤ b.width
  track : b.track + 1 ≤ b.height

/-- The own lines of a fragment stay in the cells of its box. -/
def Fragment.Keeps (f : Fragment ℚ) : Prop := Reach f.shapes (f.box.width - 1) (f.box.height - 1)

namespace Railroad

variable {c : Spacing ℚ} {m : Measure ℚ}

/-! ## Labels, classes and groups -/

/-- The half of a height of two rows or more lies above the last row. -/
theorem snapped_half_lt (c : Spacing ℚ) {x : ℚ} (hx : 2 ≤ x) : c.snapped (x / 2) + 1 ≤ x := by
  have hle := c.snapped_le (x / 2)
  linarith

theorem snug_labelBox (hc : c.Gridded) (hm : m.NonNegative) (className : String) (text : List Char) :
    (labelBox c m className text).box.Snug := by
  obtain ⟨hwidth, hheight⟩ := hm.extent text
  have hmiddle := snapped_half_lt c (show 2 ≤ (m.extent text).height + 2 * c.labelPaddingY by
    rw [hc.labelPaddingY]
    linarith)
  refine ⟨?_, hmiddle⟩
  simp only [labelBox, Box.sized, hc.strokeInset]
  linarith

theorem keeps_charset (hc : c.Gridded) (hample : c.Ample) (hm : m.NonNegative) (negated : Bool)
    {members : List (Fragment ℚ)} (h : ∀ f ∈ members, f.box.Attached) :
    (charset c m negated members).Keeps := by
  refine (reach_charset hc hample hm negated h).mono ?_ ?_
  · rw [box_charset, Box.sized]
    linarith [le_max_left (widest members + 2 * c.labelPaddingX)
      (m.extent (charsetCaption negated)).width]
  · rw [box_charset, Box.sized]

theorem snug_charset (hc : c.Gridded) (hample : c.Ample) (m : Measure ℚ) (negated : Bool)
    {members : List (Fragment ℚ)} (h : ∀ f ∈ members, f.box.Attached) :
    (charset c m negated members).box.Snug := by
  have hpadding := padding_le_classHeight m negated hample h
  rw [hc.labelPaddingY] at hpadding
  have hmiddle := snapped_half_lt c (show 2 ≤ classHeight c m negated members by linarith)
  have hwidth := le_max_left (widest members + 2 * c.labelPaddingX)
    (m.extent (charsetCaption negated)).width
  rw [box_charset]
  constructor <;> simp only [Box.sized, hc.strokeInset] <;> linarith

theorem snug_frame (hc : c.Gridded) (m : Measure ℚ) (caption : List Char) {content : Fragment ℚ}
    (h : content.box.Attached) : (frame c m caption content).box.Snug := by
  have hframe : content.box.width + 2 * c.groupPadding ≤ frameWidth c m caption content :=
    le_max_right _ _
  have hx : (frameCorner c m caption content).x =
    c.snapped ((frameWidth c m caption content - content.box.width) / 2) := rfl
  have hy : (frameCorner c m caption content).y = captionBottom c m caption + c.groupPadding := rfl
  have hcentred := c.snapped_le ((frameWidth c m caption content - content.box.width) / 2)
  obtain ⟨hexit, hbottom⟩ := And.intro h.exit h.bottom
  rw [hc.groupPadding] at hframe hy
  rw [box_frame]
  constructor <;> simp only [Box.sized, hc.groupPadding] <;> linarith

/-! ## Sequences -/

/-- The last of placed fragments is where the last fragment is placed. -/
theorem exists_last_placed {placed : List (Placed ℚ)} {fragments : List (Fragment ℚ)}
    (h : placed.map (·.fragment) = fragments) {last : Fragment ℚ} (hlast : fragments.getLast? = some last) :
    ∃ p, placed.getLast? = some p ∧ p.fragment = last := by
  rw [← h, List.getLast?_map] at hlast
  exact Option.map_eq_some_iff.1 hlast

section Series

variable {first second : Fragment ℚ} {rest : List (Fragment ℚ)} {last : Placed ℚ}

/-- The last fragment of a row ends a gap before its end. -/
theorem row_last {track x : ℚ} {fragments : List (Fragment ℚ)}
    (hlast : (row c track x fragments).1.getLast? = some last) :
    last.offset.x + (last.fragment.box.width + c.sequenceGap) = (row c track x fragments).2 := by
  induction fragments generalizing x with
  | nil => exact nomatch hlast
  | cons f rest ih =>
    cases rest with
    | nil =>
      obtain rfl := Option.some.inj hlast
      rfl
    | cons g more => exact ih hlast

/-- Where the last item of a sequence lies in it. -/
theorem last_within (h : ∀ f ∈ first :: second :: rest, f.box.Attached)
    (hlast : (series c (first :: second :: rest)).1.getLast? = some last) :
    last.fragment.box.Attached ∧
      last.offset.x + last.fragment.box.width = (sequence c (first :: second :: rest)).box.width ∧
      last.offset.y + last.fragment.box.height ≤ (sequence c (first :: second :: rest)).box.height ∧
      last.offset.y + last.fragment.box.track = rowTrack (first :: second :: rest) ∧
      (sequence c (first :: second :: rest)).box.exit = last.offset.x + last.fragment.box.exit := by
  have hmem := List.mem_of_getLast? hlast
  obtain ⟨hfragment, hoffset⟩ := row_placed _ _ _ last hmem
  have hend := row_last hlast
  have hheight := le_rowHeight hmem
  rw [← series] at hend
  rw [box_sequence, hlast]
  refine ⟨h _ hfragment, ?_, hheight, ?_, ?_⟩
  · simp only [Box.sized]
    linarith
  · rw [hoffset]
    linarith
  · simp only [Box.sized, Option.map_some, Option.getD_some, Placed.box, Box.translate]
    linarith

theorem keeps_sequence (hample : c.Ample) (h : ∀ f ∈ first :: second :: rest, f.box.Attached)
    (hlast : (series c (first :: second :: rest)).1.getLast? = some last)
    (hsnug : last.fragment.box.Snug) : (sequence c (first :: second :: rest)).Keeps := by
  obtain ⟨hattached, hwidth, hheight, htrack, -⟩ := last_within h hlast
  obtain ⟨hexit, hbottom⟩ := hsnug
  refine (reach_sequence hample h hlast).mono ?_ ?_
  · simp only [Placed.box, Box.translate]
    linarith [hattached.passage]
  · linarith

theorem snug_sequence (h : ∀ f ∈ first :: second :: rest, f.box.Attached)
    (hlast : (series c (first :: second :: rest)).1.getLast? = some last)
    (hsnug : last.fragment.box.Snug) : (sequence c (first :: second :: rest)).box.Snug := by
  obtain ⟨-, hwidth, hheight, htrack, hexit⟩ := last_within h hlast
  obtain ⟨hlastExit, hbottom⟩ := hsnug
  have hrun : (sequence c (first :: second :: rest)).box.track = rowTrack (first :: second :: rest) := rfl
  exact ⟨by linarith, by linarith⟩

end Series

/-! ## Alternations -/

/-- In a list that is in order, all come before the last. -/
theorem eq_or_before_last {β : Type} {R : β → β → Prop} {xs : List β} (h : xs.Pairwise R) {last : β}
    (hlast : xs.getLast? = some last) : ∀ x ∈ xs, x = last ∨ R x last := by
  obtain ⟨front, rfl⟩ := List.getLast?_eq_some_iff.1 hlast
  intro x hx
  obtain hx | hx := List.mem_append.1 hx
  · exact .inr ((List.pairwise_append.1 h).2.2 x hx last (.head _))
  · exact .inl (List.mem_singleton.1 hx)

section Column

variable {left : Fragment ℚ → ℚ} {y : ℚ} {fragments : List (Fragment ℚ)} {last : Placed ℚ}

/-- The last fragment of a column ends a gap above its end. -/
theorem stack_last (hlast : (stack c left y fragments).1.getLast? = some last) :
    last.offset.y + (last.fragment.box.height + c.branchGap) = (stack c left y fragments).2 := by
  induction fragments generalizing y with
  | nil => exact nomatch hlast
  | cons f rest ih =>
    cases rest with
    | nil =>
      obtain rfl := Option.some.inj hlast
      rfl
    | cons g more => exact ih hlast

end Column

section Alternatives

variable {first second : Fragment ℚ} {rest : List (Fragment ℚ)} {last : Placed ℚ}
  (hc : c.Gridded) (hample : c.Ample) (h : ∀ f ∈ first :: second :: rest, f.box.Attached)
  (hlast : (column c c.branchIndent 0 (first :: second :: rest)).1.getLast? = some last)
include hc hample h hlast

/-- Branches take one row more than the last of them begins below the first. -/
theorem last_branch :
    last.fragment.box.Attached ∧ 1 ≤ last.offset.y ∧
      last.offset.y + last.fragment.box.height = branchesHeight c (first :: second :: rest) := by
  have hattached := h _ (mem_of_column (List.mem_of_getLast? hlast))
  have hend := stack_last hlast
  have hne : last ∈ (stack c (fun f => c.branchIndent +
      c.snapped ((widest (first :: second :: rest) - f.box.width) / 2))
        (0 + (first.box.height + c.branchGap)) (second :: rest)).1 := List.mem_of_getLast? hlast
  have hbelow := ((spaced_stack hample _ (0 + (first.box.height + c.branchGap))
    (fun f hf => h f (.tail _ hf))).between last hne).1
  have hheight := (h first (.head _)).height_nonneg
  have hown := hattached.height_nonneg
  rw [hc.branchGap] at hend hbelow
  have hsum : last.offset.y + last.fragment.box.height =
      (column c c.branchIndent 0 (first :: second :: rest)).2 - c.branchGap := by
    rw [hc.branchGap, column, ← hend]
    ring
  refine ⟨hattached, by linarith, ?_⟩
  rw [branchesHeight, ← hsum, max_eq_left (by linarith)]

/-- The line in the middle runs above the last row. -/
theorem middle_above (hintegral : ∀ f ∈ first :: second :: rest, f.box.Integral) :
    c.snapped (branchesHeight c (first :: second :: rest) / 2) + 1 ≤
      branchesHeight c (first :: second :: rest) := by
  obtain ⟨hattached, hbelow, hheight⟩ := last_branch hc hample h hlast
  rw [hc.snapped]
  exact (integral_branchesHeight hc hintegral).floor_half_lt (by linarith [hattached.height_nonneg])

theorem snug_alternatives (hintegral : ∀ f ∈ first :: second :: rest, f.box.Integral) :
    (alternatives c (first :: second :: rest)).box.Snug := by
  have hmiddle := middle_above hc hample h hlast hintegral
  rw [box_alternatives]
  constructor <;> simp only [Box.sized, hc.strokeInset] <;> linarith

theorem keeps_alternatives (hintegral : ∀ f ∈ first :: second :: rest, f.box.Integral)
    (hsnug : last.fragment.box.Snug) : (alternatives c (first :: second :: rest)).Keeps := by
  obtain ⟨hattached, hbelow, hheight⟩ := last_branch hc hample h hlast
  have hmiddle := middle_above hc hample h hlast hintegral
  have hlastTrack := hsnug.track
  have htracks : ∀ p ∈ (column c c.branchIndent 0 (first :: second :: rest)).1,
      p.box.track ≤ branchesHeight c (first :: second :: rest) - 1 := by
    intro p hp
    simp only [Placed.box, Box.translate]
    obtain rfl | habove := eq_or_before_last (spaced_stack hample _ 0 h).ordered hlast p hp
    · linarith
    · rw [hc.branchGap] at habove
      linarith [(h _ (mem_of_column hp)).bottom, hattached.height_nonneg]
  refine (reach_alternatives hc hample h (by linarith) htracks).mono ?_ ?_
  · rw [box_alternatives, hc.strokeInset, Box.sized]
  · rw [box_alternatives, Box.sized]

end Alternatives

/-! ## Repetitions -/

section Laps

variable {r : Repetition} {inner : Fragment ℚ} (hc : c.Gridded)

include hc in
/-- A repetition has a row below its track for the path back, or for what is repeated. -/
theorem lowest_above (h : r.canRepeat = false → inner.box.Snug) :
    (if r.canRepeat then lapBottom c r inner else lapTrack c r inner) + 1 ≤
      repetitionHeight c m r inner := by
  have hheight := lapHeight_le c m r inner
  have hcontent := content_above c r inner
  have htrack : lapTrack c r inner = rise c r inner + inner.box.track := rfl
  split
  next hloop =>
    have hbelow := loop_above c r inner hloop
    rw [hc.strokeInset] at hbelow
    linarith
  next hloop =>
    have hinner := (h (Bool.eq_false_iff.2 hloop)).track
    linarith

include hc in
theorem keeps_repetition (hample : c.Ample) (m : Measure ℚ) (hinner : inner.box.Attached)
    (h : r.canRepeat = false → inner.box.Snug) : (repetition c m r inner).Keeps := by
  have hlowest := lowest_above (m := m) hc h
  have hright : repetitionRight c m r inner = repetitionWidth c m r inner - c.strokeInset := rfl
  rw [hc.strokeInset] at hright
  refine (reach_repetition hc hample m hinner).mono ?_ ?_
  · rw [box_repetition, hright, Box.sized]
  · rw [box_repetition, Box.sized]
    linarith

include hc in
theorem snug_repetition (m : Measure ℚ) (h : r.canRepeat = false → inner.box.Snug) :
    (repetition c m r inner).box.Snug := by
  have hlowest := lowest_above (m := m) hc h
  have hloop : lapTrack c r inner + 2 * c.curveRadius ≤ lapBottom c r inner := le_max_right _ _
  have hright : repetitionRight c m r inner = repetitionWidth c m r inner - c.strokeInset := rfl
  rw [hc.strokeInset] at hright
  rw [hc.curveRadius] at hloop
  rw [box_repetition]
  refine ⟨by simp only [Box.sized]; linarith, ?_⟩
  simp only [Box.sized]
  split at hlowest <;> linarith

end Laps

/-! ## Paths back -/

section Paths

variable {r track bottom left right : ℚ}

theorem loopPath_ne_track {p q : Point ℚ} : loopPath r track bottom left right ≠ .track p q := fun h => by
  simp [loopPath, Shape.track, Shape.connector] at h

theorem loopPath_not_mem_rowConnectors {row : ℚ} {placed : List (Placed ℚ)} :
    loopPath r track bottom left right ∉ rowConnectors row placed := fun hmem => by
  obtain ⟨p, q, h⟩ := track_of_mem_rowConnectors hmem
  exact loopPath_ne_track h

theorem loopPath_not_mem_branchConnectors {b : Box ℚ} {mid stop : ℚ} :
    loopPath r track bottom left right ∉ branchConnectors c b mid stop := by
  unfold branchConnectors
  simp only
  split_ifs <;> simp [loopPath, Shape.track, Shape.connector]

/-- The path around a repetition leads upwards first, the path back downwards. -/
theorem loopPath_ne_skipPath {radius row stop : ℚ} (hradius : radius ≠ 0) :
    loopPath r track bottom left right ≠ skipPath radius row stop := fun h => by
  simp only [loopPath, skipPath, Shape.connector, Shape.path.injEq, List.cons.injEq, Segment.moveTo.injEq,
    Segment.quadTo.injEq, Point.mk.injEq, rational_zero] at h
  obtain ⟨⟨⟨hright, htrack⟩, ⟨⟨hside, -⟩, -, hbend⟩, -⟩, -⟩ := h
  exact hradius (by linarith)

end Paths

/-- What is in a fragment lies above its path back. -/
def AboveLoops (f : Fragment ℚ) : Prop :=
  ∀ r track bottom left right, loopPath r track bottom left right ∈ f.shapes →
    ∀ p ∈ f.children, p.offset.y + p.fragment.box.height ≤ bottom

theorem aboveLoops_of_not_mem {f : Fragment ℚ}
    (h : ∀ r track bottom left right, loopPath r track bottom left right ∉ f.shapes) : AboveLoops f :=
  fun r track bottom left right hmem => absurd hmem (h r track bottom left right)

theorem aboveLoops_repetition (hc : c.Gridded) (hample : c.Ample) (m : Measure ℚ) (r : Repetition)
    (inner : Fragment ℚ) : AboveLoops (repetition c m r inner) := by
  intro radius track bottom left right hmem
  rw [children_repetition]
  refine List.forall_mem_singleton.2 ?_
  have hbottom : bottom = lapBottom c r inner := by
    rw [shapes_repetition] at hmem
    obtain h | hmem := List.mem_cons.1 hmem
    · exact absurd h loopPath_ne_track
    obtain h | hmem := List.mem_cons.1 hmem
    · exact absurd h loopPath_ne_track
    obtain hmem | hmem := List.mem_append.1 hmem
    · obtain hmem | hmem := List.mem_append.1 hmem
      · have hradius : c.curveRadius ≠ 0 := by
          rw [hc.curveRadius]
          exact one_ne_zero
        exact absurd (connector_skipShapes hmem) (loopPath_ne_skipPath hradius)
      · have hpath := connector_loopShapes hmem
        simp only [Shape.connector, loopPath, Shape.path.injEq, List.cons.injEq, Segment.quadTo.injEq,
          Point.mk.injEq] at hpath
        exact hpath.1.2.2.2.1.1.2
    · exact absurd hmem (connector_captionShapes _)
  rw [hbottom]
  exact content_above_loop r inner hample

theorem drawnClosed_aboveLoops (hc : c.Gridded) (hample : c.Ample) (m : Measure ℚ) :
    DrawnClosed c m AboveLoops where
  label className _ text := aboveLoops_of_not_mem fun r track bottom left right => by
    simp [labelBox, loopPath, Shape.connector]
  sequence parts hparts := by
    cases parts with
    | nil => exact aboveLoops_of_not_mem fun _ _ _ _ _ => List.not_mem_nil
    | cons first more =>
      cases more with
      | nil => exact hparts first (.head _)
      | cons second rest => exact aboveLoops_of_not_mem fun _ _ _ _ _ => loopPath_not_mem_rowConnectors
  alternatives branches _ := aboveLoops_of_not_mem fun _ _ _ _ _ hmem => by
    obtain ⟨p, -, hmem⟩ := List.mem_flatMap.1 hmem
    exact loopPath_not_mem_branchConnectors hmem
  range first last _ _ := aboveLoops_of_not_mem fun r track bottom left right => by
    simp [range, loopPath, Shape.connector]
  charset negated members _ := aboveLoops_of_not_mem fun r track bottom left right => by
    simp [charset, loopPath, Shape.connector]
  frame _ _ caption content _ _ := aboveLoops_of_not_mem fun r track bottom left right => by
    simp [frame, loopPath, Shape.connector]
  repetition r inner _ := aboveLoops_repetition hc hample m r inner

theorem aboveLoops_drawing (m : Measure ℚ) (flags : List Char) (content : Fragment ℚ) :
    AboveLoops (drawing c m flags content).fragment := by
  refine aboveLoops_of_not_mem fun r track bottom left right => ?_
  rw [shapes_drawing]
  cases flagsLine c m flags <;> simp [loopPath, Shape.track, Shape.connector]

/-! ## Drawings -/

theorem keeps_drawing (hc : c.Gridded) (hample : c.Ample) (hm : m.NonNegative) (flags : List Char)
    {content : Fragment ℚ} (h : content.box.Attached) : (drawing c m flags content).fragment.Keeps := by
  obtain ⟨-, -, -, hwidth⟩ := terminals_beside m flags content hample
  have hheight := drawing_height c m flags content
  have hbottom := h.bottom
  refine (reach_drawing hc hample hm flags h).mono ?_ ?_
  · rw [box_drawing, Box.sized]
    simp only [hc.terminalRadius, hc.strokeInset, hc.margin] at hwidth
    linarith
  · rw [box_drawing, Box.sized]
    simp only [hc.margin] at hheight
    linarith

end Railroad

end RegexDiagram
