import RegexDiagram.Proofs.Drawing.Repetitions
import RegexDiagram.Proofs.Geometry.Exact
import Mathlib.Data.List.Forall2
import Mathlib.Tactic.Linarith

/-!
# Joints

Where the tracks of a drawing end. Parents place their children without looking at the tracks inside
them, and each draws its own connectors; `joined_alternation` and `Root.joined` say that these meet
without a gap: every connector starts and ends in the attachments of the fragments it joins, in every
fragment of the drawing of every tree, with any distances and any measure.
-/

namespace RegexDiagram

open Pattern

/-! ## Strokes -/

namespace Box

variable {α : Type}

/-- Where the track enters. -/
def start (b : Box α) : Point α := ⟨b.entry, b.track⟩

/-- Where the track leaves. -/
def finish (b : Box α) : Point α := ⟨b.exit, b.track⟩

end Box

/-- Segments that lead from one point to another without lifting the pen. -/
inductive Strokes {α : Type} : Point α → List (Segment α) → Point α → Prop
  | nil (p : Point α) : Strokes p [] p
  | line {p q r : Point α} {rest : List (Segment α)} (h : Strokes q rest r) :
      Strokes p (.lineTo q :: rest) r
  | curve {p control q r : Point α} {rest : List (Segment α)} (h : Strokes q rest r) :
      Strokes p (.quadTo control q :: rest) r

/-- The shape is a connector from one point to another. -/
def Shape.Joins {α : Type} (p q : Point α) (s : Shape α) : Prop :=
  ∃ rest, s = .connector (.moveTo p :: rest) ∧ Strokes p rest q

theorem Shape.joins_track {α : Type} (p q : Point α) : (Shape.track p q).Joins p q :=
  ⟨_, rfl, .line (.nil q)⟩

/-! ## Constructs -/

namespace Fragment

variable (f : Fragment ℚ)

/-- Children side by side: their tracks run at the height of the fragment's own, the outer ones have
the attachments of the fragment, and each connector joins neighbours. -/
structure InSeries : Prop where
  level : ∀ p ∈ f.children, p.box.track = f.box.track
  first : ∀ p ∈ f.children.head?, p.box.start = f.box.start
  last : ∀ p ∈ f.children.getLast?, p.box.finish = f.box.finish
  connectors : List.Forall₂ (fun s pair => s.Joins pair.1.box.finish pair.2.box.start) f.shapes
    (f.children.zip f.children.tail)
  empty : f.children = [] → f.box.start = f.box.finish

/-- Children as branches: each has a connector from the start of the fragment and one to its end. -/
def InParallel : Prop :=
  ∃ connectors : List (Shape ℚ × Shape ℚ),
    f.shapes = connectors.flatMap (fun pair => [pair.1, pair.2]) ∧
    List.Forall₂ (fun pair p => pair.1.Joins f.box.start p.box.start ∧
      pair.2.Joins p.box.finish f.box.finish) connectors f.children

/-- A child with a track to it and a track from it. Every other connector leads past the child or from
its end back to its start. -/
def Repeats : Prop :=
  ∃ child leadIn leadOut others, f.children = [child] ∧ f.shapes = leadIn :: leadOut :: others ∧
    leadIn.Joins f.box.start child.box.start ∧ leadOut.Joins child.box.finish f.box.finish ∧
    ∀ segments, Shape.connector segments ∈ others →
      (Shape.connector segments).Joins f.box.start f.box.finish ∨
      (Shape.connector segments).Joins child.box.finish child.box.start

/-- A child whose attachments are those of the fragment. -/
def Surrounds : Prop :=
  ∃ child, f.children = [child] ∧ child.box.start = f.box.start ∧ child.box.finish = f.box.finish

/-- A child between two terminals, and perhaps a text. The fragment starts in the centre of the first
terminal and ends at the edge of the second; the tracks lead from edge to edge. -/
def Terminates (radius : ℚ) : Prop :=
  ∃ child captions leadIn leadOut, f.children = [child] ∧ (∀ s ∈ captions, s.text?.isSome) ∧
    f.shapes = captions ++ [leadIn, leadOut, .circle f.box.start radius "terminal",
      .circle ⟨f.box.exit + radius, f.box.track⟩ radius "terminal"] ∧
    leadIn.Joins ⟨f.box.entry + radius, f.box.track⟩ child.box.start ∧
    leadOut.Joins child.box.finish f.box.finish

/-- The connectors of a fragment meet the attachments of its box and of its children. -/
structure Joined : Prop where
  sequence : f.className = "sequence" → f.InSeries
  alternation : f.className = "alternation" → f.InParallel
  quantified : f.className = "quantified" → f.Repeats
  group : f.className = "subexp" → f.Surrounds
  root : f.className = "root" → ∃ radius, f.Terminates radius

end Fragment

namespace Railroad

variable {c : Spacing ℚ} {m : Measure ℚ}

/-! ## Sequences -/

theorem row_level (track x : ℚ) (fragments : List (Fragment ℚ)) :
    ∀ p ∈ (row c track x fragments).1, p.box.track = track := by
  induction fragments generalizing x with
  | nil => exact fun p hp => absurd hp List.not_mem_nil
  | cons f rest ih =>
    refine List.forall_mem_cons.2 ⟨?_, ih _⟩
    change f.box.track + (track - f.box.track) = track
    linarith

/-- The connectors of a row join neighbours. -/
theorem joins_rowConnectors {track : ℚ} {placed : List (Placed ℚ)}
    (h : ∀ p ∈ placed, p.box.track = track) :
    List.Forall₂ (fun s pair => Shape.Joins pair.1.box.finish pair.2.box.start s)
      (rowConnectors track placed) (placed.zip placed.tail) := by
  induction placed with
  | nil => exact .nil
  | cons a rest ih =>
    obtain ⟨ha, hrest⟩ := List.forall_mem_cons.1 h
    cases rest with
    | nil => exact .nil
    | cons b more =>
      have hb := hrest b (.head _)
      refine .cons ?_ (ih hrest)
      have hstart : b.box.start = ⟨b.box.entry, track⟩ := congrArg (Point.mk _) hb
      have hfinish : a.box.finish = ⟨a.box.exit, track⟩ := congrArg (Point.mk _) ha
      rw [hstart, hfinish]
      exact Shape.joins_track _ _

theorem inSeries_sequence {fragments : List (Fragment ℚ)} (h : ∀ only, fragments ≠ [only]) :
    (sequence c fragments).InSeries := by
  match fragments, h with
  | [], _ =>
    refine ⟨fun p hp => absurd hp List.not_mem_nil, fun p hp => (nomatch hp), fun p hp => (nomatch hp),
      .nil, fun _ => ?_⟩
    simp only [sequence, Box.empty, Box.ofRect, Box.start, Box.finish, rational_zero, add_zero]
  | [only], h => exact absurd rfl (h only)
  | first :: second :: rest, _ =>
    have hlevel := row_level (c := c)
      (((first :: second :: rest).map (·.box.trackOffset)).foldl Scalar.max 0) 0
      (first :: second :: rest)
    refine ⟨hlevel, fun p hp => ?_, fun p hp => ?_, joins_rowConnectors hlevel, fun hempty => ?_⟩
    · have htrack := hlevel p (List.mem_of_mem_head? hp)
      rw [Box.start, htrack]
      simp only [sequence, Box.start, Box.sized] at hp ⊢
      rw [hp]
      rfl
    · have htrack := hlevel p (List.mem_of_mem_getLast? hp)
      rw [Box.finish, htrack]
      simp only [sequence, Box.finish, Box.sized] at hp ⊢
      rw [hp]
      rfl
    · exact absurd hempty (List.cons_ne_nil _ _)

/-! ## Alternations -/

/-- A branch is joined to the middle line on both sides, whichever way its connectors take. -/
theorem joins_branchConnectors (b : Box ℚ) (mid right : ℚ) :
    ∃ there back, branchConnectors c b mid right = [there, back] ∧
      there.Joins ⟨0, mid⟩ b.start ∧ back.Joins b.finish ⟨right, mid⟩ := by
  unfold branchConnectors
  simp only
  split
  · exact ⟨_, _, rfl, Shape.joins_track _ _, Shape.joins_track _ _⟩
  · split
    · exact ⟨_, _, rfl, ⟨_, rfl, .curve (.curve (.line (.nil _)))⟩,
        ⟨_, rfl, .line (.curve (.curve (.nil _)))⟩⟩
    · exact ⟨_, _, rfl, ⟨_, rfl, .curve (.line (.curve (.line (.nil _))))⟩,
        ⟨_, rfl, .line (.curve (.line (.curve (.nil _))))⟩⟩

/-- What is drawn for one fragment after the other, fragment by fragment. -/
theorem exists_forall₂_of_flatMap {β : Type} {draw : Placed ℚ → List (Shape ℚ)} {shapes : β → List (Shape ℚ)}
    {P : β → Placed ℚ → Prop} {placed : List (Placed ℚ)}
    (h : ∀ p ∈ placed, ∃ part, draw p = shapes part ∧ P part p) :
    ∃ parts, placed.flatMap draw = parts.flatMap shapes ∧ List.Forall₂ P parts placed := by
  induction placed with
  | nil => exact ⟨[], rfl, .nil⟩
  | cons p rest ih =>
    obtain ⟨⟨part, hdraw, hpart⟩, hrest⟩ := List.forall_mem_cons.1 h
    obtain ⟨parts, hshapes, hparts⟩ := ih hrest
    refine ⟨part :: parts, ?_, .cons hpart hparts⟩
    rw [List.flatMap_cons, hdraw, hshapes, List.flatMap_cons]

theorem inParallel_alternatives (branches : List (Fragment ℚ)) :
    (alternatives c branches).InParallel := by
  refine exists_forall₂_of_flatMap fun p _ => ?_
  obtain ⟨there, back, heq, hthere, hback⟩ := joins_branchConnectors (c := c) p.box
    (alternatives c branches).box.track (alternatives c branches).box.exit
  exact ⟨(there, back), heq, hthere, hback⟩

/-! ## Groups and repetitions -/

theorem surrounds_frame (caption : List Char) (content : Fragment ℚ) :
    (frame c m caption content).Surrounds :=
  ⟨_, rfl, rfl, rfl⟩

/-- The path around a repetition leads from its start to its end. -/
theorem joins_skipPath (r track right : ℚ) : (skipPath r track right).Joins ⟨0, track⟩ ⟨right, track⟩ :=
  ⟨_, rfl, .curve (.line (.curve (.line (.curve (.line (.curve (.nil _)))))))⟩

/-- The path below a repetition leads from the end of what is repeated to its start. -/
theorem joins_loopPath (r track bottom left right : ℚ) :
    (loopPath r track bottom left right).Joins ⟨right, track⟩ ⟨left, track⟩ :=
  ⟨_, rfl, .curve (.line (.curve (.line (.curve (.line (.curve (.nil _)))))))⟩

section Repetition

variable (c m) (r : Repetition) (inner : Fragment ℚ)

theorem start_repetition : (repetition c m r inner).box.start = ⟨0, lapTrack c r inner⟩ := by
  rw [box_repetition]
  rfl

theorem finish_repetition :
    (repetition c m r inner).box.finish = ⟨repetitionRight c m r inner, lapTrack c r inner⟩ := by
  rw [box_repetition]
  rfl

/-- The content of a repetition starts where the path back ends. -/
theorem start_lap : Box.start (Placed.box ⟨lapCorner c r inner, inner⟩) =
    ⟨lapLeft c inner, lapTrack c r inner⟩ :=
  congrArg₂ Point.mk (add_comm _ _) (add_comm _ _)

/-- The content of a repetition ends where the path back starts. -/
theorem finish_lap : Box.finish (Placed.box ⟨lapCorner c r inner, inner⟩) =
    ⟨lapRight c inner, lapTrack c r inner⟩ :=
  congrArg₂ Point.mk (add_comm _ _) (add_comm _ _)

theorem repeats_repetition : (repetition c m r inner).Repeats := by
  refine ⟨_, _, _, _, children_repetition c m r inner, shapes_repetition c m r inner, ?_, ?_, ?_⟩
  · rw [start_repetition, start_lap]
    exact Shape.joins_track _ _
  · rw [finish_repetition, finish_lap]
    exact Shape.joins_track _ _
  · rw [start_repetition, finish_repetition, start_lap, finish_lap]
    intro segments h
    obtain (h | h) | h := by simpa only [List.mem_append] using h
    · left
      rw [connector_skipShapes h]
      exact joins_skipPath _ _ _
    · right
      rw [connector_loopShapes h]
      exact joins_loopPath _ _ _ _ _
    · exact absurd h (connector_captionShapes segments)

end Repetition

/-! ## Drawings -/

theorem terminates_drawing (flags : List Char) (content : Fragment ℚ) :
    (drawing c m flags content).fragment.Terminates c.terminalRadius := by
  have hstart (x y : ℚ) : Box.start (Placed.box ⟨⟨x, y⟩, content⟩) =
      ⟨x + content.box.entry, y + content.box.track⟩ :=
    congrArg₂ Point.mk (add_comm _ _) (add_comm _ _)
  have hfinish (x y : ℚ) : Box.finish (Placed.box ⟨⟨x, y⟩, content⟩) =
      ⟨x + content.box.exit, y + content.box.track⟩ :=
    congrArg₂ Point.mk (add_comm _ _) (add_comm _ _)
  rw [drawing]
  cases flagsCaption flags <;> refine ⟨_, _, _, _, rfl, ?_, rfl, ?_, ?_⟩
  case none.refine_1 => exact fun s hs => absurd hs List.not_mem_nil
  case some.refine_1 => exact List.forall_mem_singleton.2 rfl
  case none.refine_2 | some.refine_2 =>
    rw [hstart]
    exact Shape.joins_track _ _
  case none.refine_3 | some.refine_3 =>
    rw [hfinish]
    exact Shape.joins_track _ _

/-! ## Every construct -/

/-- Fragments of other names have no connectors of their own. -/
theorem joined_of_className {f : Fragment ℚ}
    (h : f.className ∉ ["sequence", "alternation", "quantified", "subexp", "root"]) : f.Joined := by
  simp only [List.mem_cons, List.not_mem_nil, or_false, not_or] at h
  obtain ⟨hsequence, halternation, hquantified, hgroup, hroot⟩ := h
  exact ⟨fun h => absurd h hsequence, fun h => absurd h halternation, fun h => absurd h hquantified,
    fun h => absurd h hgroup, fun h => absurd h hroot⟩

theorem drawnClosed_joined (c : Spacing ℚ) (m : Measure ℚ) : DrawnClosed c m Fragment.Joined where
  label className hname text := by
    have hother : ∀ className ∈ labelNames,
        className ∉ ["sequence", "alternation", "quantified", "subexp", "root"] := by decide
    exact joined_of_className (hother className hname)
  sequence parts hparts := by
    by_cases h : ∃ only, parts = [only]
    · obtain ⟨only, rfl⟩ := h
      exact hparts only (.head _)
    · have hseries := inSeries_sequence (c := c) fun only heq => h ⟨only, heq⟩
      have hname : (sequence c parts).className = "sequence" := by
        match parts, h with
        | [], _ => rfl
        | [only], h => exact absurd ⟨only, rfl⟩ h
        | _ :: _ :: _, _ => rfl
      constructor <;> rw [hname] <;> intro hother
      · exact hseries
      all_goals exact absurd hother (by decide)
  alternatives branches _ := by
    constructor <;> intro hname
    case alternation => exact inParallel_alternatives branches
    all_goals exact absurd hname (by simp only [alternatives]; decide)
  range first last _ _ := joined_of_className (by simp only [range]; decide)
  charset negated members _ := joined_of_className (by simp only [charset]; decide)
  frame _ _ caption content _ _ := by
    constructor <;> intro hname
    case group => exact surrounds_frame caption content
    all_goals exact absurd hname (by simp only [frame]; decide)
  repetition r inner _ := by
    constructor <;> intro hname
    case quantified => exact repeats_repetition c m r inner
    all_goals exact absurd hname (by simp only [repetition]; decide)

theorem joined_drawing (flags : List Char) (content : Fragment ℚ) :
    (drawing c m flags content).fragment.Joined := by
  constructor <;> intro hname
  case root => exact ⟨_, terminates_drawing flags content⟩
  all_goals exact absurd hname (by simp only [drawing]; decide)

end Railroad

end RegexDiagram
