import RegexDiagram.Proofs.Drawing.Repetitions
import RegexDiagram.Proofs.Drawing.Room

/-!
# The order of repetitions

The path around a repetition runs above the content and the path back below it, each with the arrowhead
that a repetition may have there; the caption lies below both. Only one of the two paths has an
arrowhead: that of a lazy repetition is above, that of a greedy one below.
-/

namespace RegexDiagram.Railroad

open Pattern

variable {c : Spacing ℚ} {m : Measure ℚ} {r : Repetition} {inner : Fragment ℚ}

/-- Where the arrowhead of the path around lies. -/
def skipArrow (c : Spacing ℚ) (m : Measure ℚ) (r : Repetition) (inner : Fragment ℚ) : Rect ℚ :=
  ⟨c.snapped (repetitionRight c m r inner / 2), 0, c.strokeInset, c.strokeInset⟩

/-- Where the arrowhead of the path back lies. -/
def loopArrow (c : Spacing ℚ) (r : Repetition) (inner : Fragment ℚ) : Rect ℚ :=
  ⟨c.snapped ((lapLeft c inner + lapRight c inner) / 2), lapBottom c r inner, c.strokeInset,
    c.strokeInset⟩

theorem room_skipShapes :
    (skipShapes c m r inner).flatMap (Shape.room c.strokeInset) =
      if r.canSkip && !r.greedy then [skipArrow c m r inner] else [] := by
  unfold skipShapes
  cases r.canSkip <;> cases r.greedy <;> rfl

theorem room_loopShapes :
    (loopShapes c r inner).flatMap (Shape.room c.strokeInset) =
      if r.canRepeat && r.greedy then [loopArrow c r inner] else [] := by
  unfold loopShapes
  cases r.canRepeat <;> cases r.greedy <;> rfl

theorem room_captionShapes :
    (captionShapes c m r inner).flatMap (Shape.room c.strokeInset) =
      (lapCaption c m r inner).toList.map fun caption =>
        ⟨caption.1.x, caption.1.y, caption.2.1.width, caption.2.1.height⟩ := by
  unfold captionShapes
  cases lapCaption c m r inner <;> rfl

theorem room_repetition :
    (repetition c m r inner).room c.strokeInset =
      (if r.canSkip && !r.greedy then [skipArrow c m r inner] else []) ++
        (if r.canRepeat && r.greedy then [loopArrow c r inner] else []) ++
        (lapCaption c m r inner).toList.map fun caption =>
          ⟨caption.1.x, caption.1.y, caption.2.1.width, caption.2.1.height⟩ := by
  rw [← room_skipShapes, ← room_loopShapes, ← room_captionShapes, Fragment.room, shapes_repetition,
    List.flatMap_cons, List.flatMap_cons, List.flatMap_append, List.flatMap_append]
  rfl

section Bounds

variable (r) (inner)

theorem rise_nonneg (hc : c.Ample) : 0 ≤ rise c r inner := by
  unfold rise
  split
  · exact (hc.stroke.trans hc.radius).trans (le_max_left _ _)
  · exact le_of_eq rational_zero.symm

/-- A way around has a radius of room above the content. -/
theorem stroke_le_rise (hc : c.Ample) (h : r.canSkip = true) : c.strokeInset ≤ rise c r inner := by
  rw [rise, if_pos h]
  exact hc.radius.trans (le_max_left _ _)

/-- The path back runs below the content. -/
theorem content_above_loop (hc : c.Ample) :
    rise c r inner + inner.box.height ≤ lapBottom c r inner := by
  have hle : rise c r inner + inner.box.height - c.strokeInset + c.curveRadius ≤
    lapBottom c r inner := le_max_left _ _
  have hradius := hc.radius
  linarith

variable (c) (m)

theorem lapWidth_le : lapWidth c inner ≤ repetitionWidth c m r inner := by
  unfold repetitionWidth
  cases lapCaption c m r inner with
  | none => exact le_rfl
  | some caption => exact le_max_left _ _

theorem lapHeight_le : lapHeight c r inner ≤ repetitionHeight c m r inner := by
  unfold repetitionHeight
  cases lapCaption c m r inner with
  | none => exact le_rfl
  | some caption => exact le_max_left _ _

theorem content_above : rise c r inner + inner.box.height ≤ lapHeight c r inner := by
  unfold lapHeight
  split
  · exact le_max_left _ _
  · exact le_rfl

theorem loop_above (h : r.canRepeat = true) :
    lapBottom c r inner + c.strokeInset ≤ lapHeight c r inner := by
  rw [lapHeight, if_pos h]
  exact le_max_right _ _

/-- The width of a repetition leaves the path around and the path back room on both sides. -/
theorem sides_le : inner.box.width + 4 * c.curveRadius ≤ repetitionWidth c m r inner := by
  have hwidth : lapWidth c inner = inner.box.width + 2 * (2 * c.curveRadius) := rfl
  have hle := lapWidth_le c m r inner
  linarith

end Bounds

/-- A caption lies below the path back, inside the repetition. -/
theorem caption_within (hc : c.Ample) {origin : Point ℚ} {extent : Extent ℚ} {text : List Char}
    (h : lapCaption c m r inner = some (origin, extent, text)) :
    0 ≤ origin.x ∧ lapBottom c r inner + c.strokeInset ≤ origin.y ∧
      origin.x + extent.width ≤ repetitionWidth c m r inner ∧
      origin.y + extent.height ≤ repetitionHeight c m r inner := by
  rw [repetitionWidth, repetitionHeight, h]
  refine ⟨?_, ?_, le_max_right _ _, le_max_right _ _⟩
  all_goals
    rw [lapCaption] at h
    obtain ⟨label, -, h⟩ := Option.map_eq_some_iff.1 h
    obtain ⟨rfl, -⟩ := Prod.mk.inj h
  · exact rational_zero ▸ le_max_right _ _
  · have hgap := hc.caption
    simp only
    linarith

theorem attached_repetition (hc : c.Ample) (h : inner.box.Attached) :
    (repetition c m r inner).box.Attached := by
  have hright : repetitionRight c m r inner = repetitionWidth c m r inner - c.strokeInset := rfl
  have htrack : lapTrack c r inner = rise c r inner + inner.box.track := rfl
  have hrise := rise_nonneg r inner hc
  have hsides := sides_le c m r inner
  have habove := (content_above c r inner).trans (lapHeight_le c m r inner)
  obtain ⟨hstroke, hradius⟩ := And.intro hc.stroke hc.radius
  obtain ⟨htop, hbottom⟩ := And.intro h.top h.bottom
  have hwidth := h.width_nonneg
  rw [box_repetition]
  constructor <;> simp only [Box.sized, rational_zero] <;> linarith

theorem area_repetition :
    (repetition c m r inner).box.area =
      ⟨0, 0, repetitionWidth c m r inner, repetitionHeight c m r inner⟩ := by
  rw [box_repetition, Box.sized, Box.area, rational_zero]

theorem area_lap (h : inner.box.Attached) :
    (Placed.box ⟨lapCorner c r inner, inner⟩).area =
      ⟨2 * c.curveRadius, rise c r inner, inner.box.width, inner.box.height⟩ :=
  Placed.area_box h

theorem skipArrow_clear (hc : c.Ample) (h : inner.box.Attached) (hskip : r.canSkip = true) :
    (skipArrow c m r inner).Within (repetition c m r inner).box.area ∧
      (skipArrow c m r inner).Apart (Placed.box ⟨lapCorner c r inner, inner⟩).area := by
  have hright : repetitionRight c m r inner = repetitionWidth c m r inner - c.strokeInset := rfl
  have hsides := sides_le c m r inner
  have habove := (content_above c r inner).trans (lapHeight_le c m r inner)
  have hrise := stroke_le_rise r inner hc hskip
  obtain ⟨hstroke, hradius⟩ := And.intro hc.stroke hc.radius
  obtain ⟨hwidth, hheight⟩ := And.intro h.width_nonneg h.height_nonneg
  obtain ⟨hmiddle, hmiddle'⟩ := c.snapped_half
    (show 0 ≤ repetitionRight c m r inner by linarith)
  rw [area_repetition, area_lap h, skipArrow]
  constructor
  · rw [Rect.within_mk]
    refine ⟨?_, ?_, ?_, ?_⟩ <;> linarith
  · refine Rect.apart_of_above ?_
    simp only [Rect.bottom]
    linarith

theorem loopArrow_clear (hc : c.Ample) (h : inner.box.Attached) (hloop : r.canRepeat = true) :
    (loopArrow c r inner).Within (repetition c m r inner).box.area ∧
      (loopArrow c r inner).Apart (Placed.box ⟨lapCorner c r inner, inner⟩).area := by
  have hleft : lapLeft c inner = 2 * c.curveRadius + inner.box.entry := rfl
  have hright : lapRight c inner = 2 * c.curveRadius + inner.box.exit := rfl
  have hsides := sides_le c m r inner
  have hbelow := (loop_above c r inner hloop).trans (lapHeight_le c m r inner)
  have habove := content_above_loop r inner hc
  have hrise := rise_nonneg r inner hc
  obtain ⟨hstroke, hradius⟩ := And.intro hc.stroke hc.radius
  obtain ⟨hentry, hpassage, hexit⟩ := And.intro h.entry (And.intro h.passage h.exit)
  have hheight := h.height_nonneg
  have hmiddle := c.snapped_nonneg
    (show 0 ≤ (lapLeft c inner + lapRight c inner) / 2 by linarith)
  have hmiddle' := c.snapped_le ((lapLeft c inner + lapRight c inner) / 2)
  rw [area_repetition, area_lap h, loopArrow]
  constructor
  · rw [Rect.within_mk]
    refine ⟨?_, ?_, ?_, ?_⟩ <;> linarith
  · refine Rect.Apart.symm (Rect.apart_of_above ?_)
    simp only [Rect.bottom]
    linarith

theorem caption_clear (hc : c.Ample) (h : inner.box.Attached) {origin : Point ℚ} {extent : Extent ℚ}
    {text : List Char} (hcaption : lapCaption c m r inner = some (origin, extent, text)) :
    (⟨origin.x, origin.y, extent.width, extent.height⟩ : Rect ℚ).Within
        (repetition c m r inner).box.area ∧
      (⟨origin.x, origin.y, extent.width, extent.height⟩ : Rect ℚ).Apart
        (Placed.box ⟨lapCorner c r inner, inner⟩).area := by
  obtain ⟨hx, hy, hright, hbottom⟩ := caption_within hc hcaption
  have habove := content_above_loop r inner hc
  have hrise := rise_nonneg r inner hc
  have hstroke := hc.stroke
  have hheight := h.height_nonneg
  rw [area_repetition, area_lap h]
  constructor
  · rw [Rect.within_mk]
    refine ⟨?_, ?_, ?_, ?_⟩ <;> linarith
  · refine Rect.Apart.symm (Rect.apart_of_above ?_)
    simp only [Rect.bottom]
    linarith

/-- The arrowheads lie above the caption; there is never more than one of them. -/
theorem apart_room_repetition (hc : c.Ample) (h : inner.box.Attached) :
    ((repetition c m r inner).room c.strokeInset).Pairwise Rect.Apart := by
  rw [room_repetition]
  refine List.pairwise_append.2 ⟨?_, ?_, ?_⟩
  · cases r.greedy <;> cases r.canSkip <;> cases r.canRepeat <;>
      first | exact List.pairwise_singleton _ _ | exact .nil
  · cases lapCaption c m r inner with
    | none => exact .nil
    | some caption => exact List.pairwise_singleton _ _
  · cases hcaption : lapCaption c m r inner with
    | none => exact fun a ha b hb => absurd hb List.not_mem_nil
    | some caption =>
      obtain ⟨-, hy, -⟩ := caption_within hc hcaption
      have habove := content_above_loop r inner hc
      have hrise := rise_nonneg r inner hc
      have hheight := h.height_nonneg
      intro a ha b hb
      rw [List.mem_singleton.1 hb]
      obtain ha | ha := List.mem_append.1 ha
      · split at ha
        · rw [List.mem_singleton.1 ha]
          refine Rect.apart_of_above ?_
          simp only [skipArrow, Rect.bottom]
          linarith
        · exact absurd ha List.not_mem_nil
      · split at ha
        · rw [List.mem_singleton.1 ha]
          exact Rect.apart_of_above hy
        · exact absurd ha List.not_mem_nil

theorem orderly_repetition (hc : c.Ample) (h : inner.box.Attached) :
    (repetition c m r inner).Orderly c.strokeInset := by
  refine ⟨attached_repetition hc h, ?_, ?_, ?_, ?_⟩
  · rw [children_repetition]
    refine List.forall_mem_singleton.2 ?_
    have hsides := sides_le c m r inner
    have habove := (content_above c r inner).trans (lapHeight_le c m r inner)
    have hrise := rise_nonneg r inner hc
    obtain ⟨hstroke, hradius⟩ := And.intro hc.stroke hc.radius
    rw [area_repetition, area_lap h, Rect.within_mk]
    refine ⟨?_, ?_, ?_, ?_⟩ <;> linarith
  · rw [children_repetition]
    exact List.pairwise_singleton _ _
  · rw [room_repetition, children_repetition]
    simp only [List.forall_mem_singleton]
    refine List.forall_mem_append.2 ⟨List.forall_mem_append.2 ⟨?_, ?_⟩, ?_⟩
    · split
      next hskip =>
        exact List.forall_mem_singleton.2 (skipArrow_clear hc h (Bool.and_elim_left hskip))
      next => exact fun r hr => absurd hr List.not_mem_nil
    · split
      next hloop =>
        exact List.forall_mem_singleton.2 (loopArrow_clear hc h (Bool.and_elim_left hloop))
      next => exact fun r hr => absurd hr List.not_mem_nil
    · cases hcaption : lapCaption c m r inner with
      | none => exact fun r hr => absurd hr List.not_mem_nil
      | some caption => exact List.forall_mem_singleton.2 (caption_clear hc h hcaption)
  · exact apart_room_repetition hc h

end RegexDiagram.Railroad
