import RegexDiagram.Proofs.Drawing.Repetitions

/-!
# Class names

A drawing names what its parts stand for with few words, whatever the tree: `Root.styled` says that all
of them are among `classNames`. Nothing of a pattern gets into a class name.
-/

namespace RegexDiagram

open Pattern

/-- The class names of fragments and shapes. Frames have none of their own. -/
def classNames : List String :=
  labelNames ++ ["sequence", "alternation", "charset-range", "charset", "subexp", "quantified", "root", "label",
    "caption", "repeat-label", "flags", "connector", "terminal", "arrow", ""]

/-- The class name of a shape in a picture. -/
def Shape.className {α : Type} : Shape α → String
  | .rect _ _ _ className | .text _ _ _ className | .path _ className | .circle _ _ className => className
  | .arrow .. => "arrow"

section Styled

variable {α : Type}

/-- The shape has one of the class names. -/
def Shape.Styled (s : Shape α) : Prop := s.className ∈ classNames

/-- The fragment itself and its own shapes have class names among those. -/
structure Fragment.Styled (f : Fragment α) : Prop where
  className : f.className ∈ classNames
  shapes : ∀ s ∈ f.shapes, s.Styled

theorem Shape.Styled.connector (segments : List (Segment α)) : (Shape.connector segments).Styled :=
  show "connector" ∈ classNames by decide

variable [Scalar α] (c : Spacing α) (m : Measure α)

namespace Railroad

theorem styled_rowConnectors (track : α) (placed : List (Placed α)) :
    ∀ s ∈ rowConnectors track placed, s.Styled := fun s hs => by
  obtain ⟨p, q, rfl⟩ := track_of_mem_rowConnectors hs
  exact .connector _

theorem styled_branchConnectors (b : Box α) (mid right : α) :
    ∀ s ∈ branchConnectors c b mid right, s.Styled := fun s hs => by
  obtain ⟨segments, rfl⟩ := connector_of_mem_branchConnectors hs
  exact .connector segments

theorem styled_sequence {parts : List (Fragment α)} (h : ∀ f ∈ parts, f.Styled) : (sequence c parts).Styled := by
  cases parts with
  | nil => exact ⟨show "sequence" ∈ classNames by decide, fun s hs => absurd hs List.not_mem_nil⟩
  | cons first rest =>
    cases rest with
    | nil => exact h first (.head _)
    | cons second more => exact ⟨show "sequence" ∈ classNames by decide, styled_rowConnectors _ _⟩

theorem styled_skipShapes (r : Repetition) (inner : Fragment α) : ∀ s ∈ skipShapes c m r inner, s.Styled := by
  unfold skipShapes
  cases r.canSkip with
  | false => exact fun s hs => absurd hs List.not_mem_nil
  | true =>
    refine List.forall_mem_cons.2 ⟨.connector _, ?_⟩
    cases r.greedy with
    | false => exact List.forall_mem_singleton.2 (show "arrow" ∈ classNames by decide)
    | true => exact fun s hs => absurd hs List.not_mem_nil

theorem styled_loopShapes (r : Repetition) (inner : Fragment α) : ∀ s ∈ loopShapes c r inner, s.Styled := by
  unfold loopShapes
  cases r.canRepeat with
  | false => exact fun s hs => absurd hs List.not_mem_nil
  | true =>
    refine List.forall_mem_cons.2 ⟨.connector _, ?_⟩
    cases r.greedy with
    | false => exact fun s hs => absurd hs List.not_mem_nil
    | true => exact List.forall_mem_singleton.2 (show "arrow" ∈ classNames by decide)

theorem styled_captionShapes (r : Repetition) (inner : Fragment α) :
    ∀ s ∈ captionShapes c m r inner, s.Styled := by
  unfold captionShapes
  cases lapCaption c m r inner with
  | none => exact fun s hs => absurd hs List.not_mem_nil
  | some caption => exact List.forall_mem_singleton.2 (show "repeat-label" ∈ classNames by decide)

/-- Every construct of a layout has class names among those. -/
theorem drawnClosed_styled : DrawnClosed c m Fragment.Styled where
  label className hname text :=
    ⟨List.mem_append_left _ hname, List.forall_mem_cons.2 ⟨show "label" ∈ classNames by decide,
      List.forall_mem_singleton.2 (show "label" ∈ classNames by decide)⟩⟩
  sequence parts h := styled_sequence c h
  alternatives branches _ := by
    refine ⟨show "alternation" ∈ classNames by decide, fun s hs => ?_⟩
    obtain ⟨p, -, hs⟩ := List.mem_flatMap.1 hs
    exact styled_branchConnectors c _ _ _ s hs
  range first last _ _ :=
    ⟨show "charset-range" ∈ classNames by decide,
      List.forall_mem_singleton.2 (show "label" ∈ classNames by decide)⟩
  charset negated members _ :=
    ⟨show "charset" ∈ classNames by decide, List.forall_mem_cons.2 ⟨show "caption" ∈ classNames by decide,
      List.forall_mem_singleton.2 (show "" ∈ classNames by decide)⟩⟩
  frame kind number caption content _ _ :=
    ⟨show "subexp" ∈ classNames by decide, List.forall_mem_cons.2 ⟨show "caption" ∈ classNames by decide,
      List.forall_mem_singleton.2 (show "" ∈ classNames by decide)⟩⟩
  repetition r inner _ := by
    refine ⟨show "quantified" ∈ classNames by decide, ?_⟩
    rw [shapes_repetition]
    refine List.forall_mem_cons.2 ⟨.connector _, List.forall_mem_cons.2 ⟨.connector _, ?_⟩⟩
    exact List.forall_mem_append.2 ⟨List.forall_mem_append.2
      ⟨styled_skipShapes c m r inner, styled_loopShapes c r inner⟩, styled_captionShapes c m r inner⟩

theorem styled_drawing (flags : List Char) (content : Fragment α) :
    (drawing c m flags content).fragment.Styled := by
  have hends (start finish : Point α) (radius : α) : ∀ s ∈ [Shape.circle start radius "terminal",
      Shape.circle finish radius "terminal"], s.Styled :=
    List.forall_mem_cons.2 ⟨show "terminal" ∈ classNames by decide,
      List.forall_mem_singleton.2 (show "terminal" ∈ classNames by decide)⟩
  refine ⟨show "root" ∈ classNames by decide, ?_⟩
  unfold drawing
  cases flagsCaption flags with
  | none =>
    exact List.forall_mem_cons.2 ⟨.connector _, List.forall_mem_cons.2 ⟨.connector _, hends _ _ _⟩⟩
  | some caption =>
    exact List.forall_mem_cons.2 ⟨show "flags" ∈ classNames by decide,
      List.forall_mem_cons.2 ⟨.connector _, List.forall_mem_cons.2 ⟨.connector _, hends _ _ _⟩⟩⟩

end Railroad

/-- All class names of a drawing are among those. -/
theorem Pattern.Root.styled (root : Root) : ∀ f ∈ (root.drawing c m).fragment.descendants, f.Styled :=
  (Railroad.drawnClosed_styled c m).drawing root fun content _ => Railroad.styled_drawing c m root.flags content

end Styled

end RegexDiagram
