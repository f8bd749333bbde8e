import RegexDiagram.Proofs.Drawing.Placements

/-!
# Repetitions, part by part

The quantities a repetition is laid out from, each under a name of its own, and the box and the shapes
of the repetition in terms of them.
-/

namespace RegexDiagram.Railroad

open Pattern

variable {α : Type} [Scalar α] (c : Spacing α) (m : Measure α) (r : Repetition) (inner : Fragment α)

/-- How far the content lies below the top, to leave room for the path around it. -/
def rise : α :=
  if r.canSkip then Scalar.max c.curveRadius (2 * c.curveRadius - inner.box.track) else 0

/-- Where the content lies. -/
def lapCorner : Point α := ⟨2 * c.curveRadius, rise c r inner⟩

/-- The height of the track through a repetition. -/
def lapTrack : α := rise c r inner + inner.box.track

/-- Where the track meets the content. -/
def lapLeft : α := 2 * c.curveRadius + inner.box.entry

/-- Where the track leaves the content. -/
def lapRight : α := 2 * c.curveRadius + inner.box.exit

/-- The height of the path back, at its lowest. -/
def lapBottom : α :=
  Scalar.max (rise c r inner + inner.box.height - c.strokeInset + c.curveRadius)
    (lapTrack c r inner + 2 * c.curveRadius)

/-- The caption under the path back. -/
def lapCaption : Option (Point α × Extent α × List Char) :=
  (if r.canRepeat then r.label else none).map fun label =>
    let extent := m.extent (c.shown label)
    (⟨Scalar.max (lapRight c inner + c.curveRadius - extent.width) 0,
      lapBottom c r inner + c.strokeInset + c.captionGap⟩, extent, c.shown label)

/-- The width without a caption. -/
def lapWidth : α := inner.box.width + 2 * (2 * c.curveRadius)

/-- The height without a caption. -/
def lapHeight : α :=
  if r.canRepeat then
    Scalar.max (rise c r inner + inner.box.height) (lapBottom c r inner + c.strokeInset)
  else rise c r inner + inner.box.height

def repetitionWidth : α :=
  match lapCaption c m r inner with
  | some (origin, extent, _) => Scalar.max (lapWidth c inner) (origin.x + extent.width)
  | none => lapWidth c inner

def repetitionHeight : α :=
  match lapCaption c m r inner with
  | some (origin, extent, _) => Scalar.max (lapHeight c r inner) (origin.y + extent.height)
  | none => lapHeight c r inner

/-- Where the track leaves a repetition. -/
def repetitionRight : α := repetitionWidth c m r inner - c.strokeInset

/-- The way around the content. -/
def skipShapes : List (Shape α) :=
  if r.canSkip then
    skipPath c.curveRadius (lapTrack c r inner) (repetitionRight c m r inner) ::
      (if r.greedy then []
       else [.arrow ⟨c.snapped (repetitionRight c m r inner / 2), 0⟩ .right])
  else []

/-- The way back. -/
def loopShapes : List (Shape α) :=
  if r.canRepeat then
    loopPath c.curveRadius (lapTrack c r inner) (lapBottom c r inner) (lapLeft c inner)
        (lapRight c inner) ::
      (if r.greedy then
        [.arrow ⟨c.snapped ((lapLeft c inner + lapRight c inner) / 2), lapBottom c r inner⟩ .left]
       else [])
  else []

def captionShapes : List (Shape α) :=
  match lapCaption c m r inner with
  | some (origin, extent, text) => [.text origin extent text "repeat-label"]
  | none => []

theorem children_repetition :
    (repetition c m r inner).children = [⟨lapCorner c r inner, inner⟩] := rfl

theorem box_repetition :
    (repetition c m r inner).box =
      .sized (repetitionWidth c m r inner) (repetitionHeight c m r inner) 0
        (repetitionRight c m r inner) (lapTrack c r inner) := by
  rw [repetitionRight, repetitionWidth, repetitionHeight, lapCaption, repetition]
  generalize (if r.canRepeat then r.label else none) = label
  cases label <;> rfl

theorem shapes_repetition :
    (repetition c m r inner).shapes =
      .track ⟨0, lapTrack c r inner⟩ ⟨lapLeft c inner, lapTrack c r inner⟩ ::
        .track ⟨lapRight c inner, lapTrack c r inner⟩
          ⟨repetitionRight c m r inner, lapTrack c r inner⟩ ::
        (skipShapes c m r inner ++ loopShapes c r inner ++ captionShapes c m r inner) := by
  rw [captionShapes, skipShapes, repetitionRight, repetitionWidth, lapCaption, repetition]
  generalize (if r.canRepeat then r.label else none) = label
  cases label <;> rfl

/-- The track to the content is drawn. -/
theorem leadIn_mem : Shape.track ⟨0, lapTrack c r inner⟩ ⟨lapLeft c inner, lapTrack c r inner⟩ ∈
    (repetition c m r inner).shapes := by
  rw [shapes_repetition]
  exact .head _

/-- The track from the content is drawn. -/
theorem leadOut_mem : Shape.track ⟨lapRight c inner, lapTrack c r inner⟩
    ⟨repetitionRight c m r inner, lapTrack c r inner⟩ ∈ (repetition c m r inner).shapes := by
  rw [shapes_repetition]
  exact .tail _ (.head _)

variable {c m r inner} {segments : List (Segment α)}

/-! ## Connectors -/

/-- The only connector of the way around is the path. -/
theorem connector_skipShapes (h : Shape.connector segments ∈ skipShapes c m r inner) :
    Shape.connector segments =
      skipPath c.curveRadius (lapTrack c r inner) (repetitionRight c m r inner) := by
  unfold skipShapes at h
  split at h
  · obtain h | h := List.mem_cons.1 h
    · exact h
    · split at h
      · exact absurd h List.not_mem_nil
      · exact nomatch List.mem_singleton.1 h
  · exact absurd h List.not_mem_nil

/-- What cannot be left out has no way around it. -/
theorem canSkip_of_mem_skipShapes {s : Shape α} (h : s ∈ skipShapes c m r inner) : r.canSkip = true := by
  unfold skipShapes at h
  split at h
  next hskip => exact hskip
  next => exact absurd h List.not_mem_nil

/-- The only connector of the way back is the path. -/
theorem connector_loopShapes (h : Shape.connector segments ∈ loopShapes c r inner) :
    Shape.connector segments =
      loopPath c.curveRadius (lapTrack c r inner) (lapBottom c r inner) (lapLeft c inner)
        (lapRight c inner) := by
  unfold loopShapes at h
  split at h
  · obtain h | h := List.mem_cons.1 h
    · exact h
    · split at h
      · exact nomatch List.mem_singleton.1 h
      · exact absurd h List.not_mem_nil
  · exact absurd h List.not_mem_nil

theorem connector_captionShapes (segments : List (Segment α)) :
    Shape.connector segments ∉ captionShapes c m r inner := by
  intro h
  unfold captionShapes at h
  split at h
  · exact nomatch List.mem_singleton.1 h
  · exact absurd h List.not_mem_nil

/-- What can be left out has a way around it. -/
theorem skipPath_mem (h : r.canSkip = true) :
    skipPath c.curveRadius (lapTrack c r inner) (repetitionRight c m r inner) ∈
      (repetition c m r inner).shapes := by
  rw [shapes_repetition, skipShapes, if_pos h]
  exact .tail _ (.tail _ (.head _))

/-- What can be repeated has a way back. -/
theorem loopPath_mem (h : r.canRepeat = true) :
    loopPath c.curveRadius (lapTrack c r inner) (lapBottom c r inner) (lapLeft c inner)
        (lapRight c inner) ∈ (repetition c m r inner).shapes := by
  rw [shapes_repetition, loopShapes, if_pos h]
  exact .tail _ (.tail _ (List.mem_append_left _ (List.mem_append_right _ (.head _))))

end RegexDiagram.Railroad
