import RegexDiagram.Diagram

/-!
# The texts of a drawing

What a drawing says, without where it says it: the texts of a fragment are those of its own shapes and
then those of its children. A picture has the texts of the drawing it shows, in the same order
(`Surface.texts_depict`), and each construct of a layout has its own caption and the texts of the
fragments it is made of, whatever the distances and extents are.
-/

namespace RegexDiagram

open Pattern

variable {α : Type}

/-- The texts among shapes. -/
def shapeTexts (shapes : List (Shape α)) : List (List Char) := shapes.filterMap Shape.text?

/-- The texts of several fragments, one after the other. -/
def fragmentTexts (fragments : List (Fragment α)) : List (List Char) := fragments.flatMap Fragment.texts

/-! ## Fragments -/

theorem childDescendants_eq (children : List (Placed α)) :
    childDescendants children = children.flatMap (·.fragment.descendants) := by
  induction children with
  | nil => rfl
  | cons child rest ih =>
    obtain ⟨offset, fragment⟩ := child
    rw [childDescendants, ih, List.flatMap_cons]

/-- A fragment has its own texts before those of its children. -/
theorem Fragment.texts_eq (f : Fragment α) :
    f.texts = shapeTexts f.shapes ++ fragmentTexts (f.children.map (·.fragment)) := by
  obtain ⟨className, box, shapes, children⟩ := f
  rw [texts, descendants, List.flatMap_cons, childDescendants_eq, List.flatMap_assoc, fragmentTexts,
    List.flatMap_map]
  rfl

/-! ## Pictures -/

namespace Svg

theorem textsIn_append (first second : List (Element α)) :
    Element.textsIn (first ++ second) = Element.textsIn first ++ Element.textsIn second := by
  induction first with
  | nil => rfl
  | cons element rest ih =>
    rw [List.cons_append, Element.textsIn, Element.textsIn, ih, List.append_assoc]

variable [Scalar α]

/-- Painted shapes have the texts of the shapes. -/
theorem textsIn_paintShape (shapes : List (Shape α)) :
    Element.textsIn (shapes.map paintShape) = shapeTexts shapes := by
  induction shapes with
  | nil => rfl
  | cons shape rest ih =>
    rw [List.map_cons, Element.textsIn, ih]
    cases shape <;> rfl

mutual

/-- A painted fragment has the texts of the fragment. -/
theorem texts_paintFragment (offset : Point α) : ∀ f : Fragment α,
    (paintFragment offset f).texts = f.texts
  | ⟨className, box, shapes, children⟩ => by
    rw [paintFragment, Element.grouped, Element.texts, textsIn_append, textsIn_paintShape,
      textsIn_paintChildren children, Fragment.texts_eq]

theorem textsIn_paintChildren : ∀ children : List (Placed α),
    Element.textsIn (paintChildren children) = fragmentTexts (children.map (·.fragment))
  | [] => rfl
  | ⟨offset, fragment⟩ :: rest => by
    rw [paintChildren, Element.textsIn, texts_paintFragment offset fragment,
      textsIn_paintChildren rest]
    rfl

end

/-- A picture has the texts of the drawing it shows, and no others. -/
theorem Surface.texts_depict (s : Surface α) (d : Drawing α) :
    (s.depict d).texts = d.fragment.texts := by
  have hnothing : (s.clear.resize d.width d.height).elements = [] := rfl
  rw [depict, Surface.texts, push, hnothing, List.nil_append, Element.textsIn, texts_paintFragment]
  exact List.append_nil _

end Svg

/-! ## Constructs -/

namespace Railroad

variable [Scalar α] (c : Spacing α) (m : Measure α)

theorem texts_labelBox (className : String) (text : List Char) :
    (labelBox c m className text).texts = [text] := by
  rw [Fragment.texts_eq]
  rfl

theorem stack_fragments (left : Fragment α → α) (y : α) (fragments : List (Fragment α)) :
    (stack c left y fragments).1.map (·.fragment) = fragments := by
  induction fragments generalizing y with
  | nil => rfl
  | cons f rest ih => exact congrArg (List.cons f) (ih _)

theorem row_fragments (track x : α) (fragments : List (Fragment α)) :
    (row c track x fragments).1.map (·.fragment) = fragments := by
  induction fragments generalizing x with
  | nil => rfl
  | cons f rest ih => exact congrArg (List.cons f) (ih _)

/-- What is drawn between the items of a row are tracks. -/
theorem track_of_mem_rowConnectors {track : α} {placed : List (Placed α)} {s : Shape α}
    (h : s ∈ rowConnectors track placed) : ∃ p q, s = .track p q := by
  induction placed with
  | nil => exact absurd h List.not_mem_nil
  | cons a rest ih =>
    cases rest with
    | nil => exact absurd h List.not_mem_nil
    | cons b more =>
      obtain rfl | h := List.mem_cons.1 h
      · exact ⟨_, _, rfl⟩
      · exact ih h

/-- What is drawn beside a branch are connectors. -/
theorem connector_of_mem_branchConnectors {c : Spacing α} {b : Box α} {mid right : α} {s : Shape α}
    (h : s ∈ branchConnectors c b mid right) : ∃ segments, s = .connector segments := by
  have hpair {first second : List (Segment α)} (h : s ∈ [Shape.connector first, Shape.connector second]) :
      ∃ segments, s = .connector segments := by
    obtain rfl | h := List.mem_cons.1 h
    · exact ⟨_, rfl⟩
    · exact ⟨_, List.mem_singleton.1 h⟩
  unfold branchConnectors at h
  simp only at h
  split at h
  · exact hpair h
  · split at h <;> exact hpair h

theorem shapeTexts_rowConnectors (track : α) (placed : List (Placed α)) :
    shapeTexts (rowConnectors track placed) = [] :=
  List.filterMap_eq_nil_iff.2 fun s hs => by
    obtain ⟨p, q, rfl⟩ := track_of_mem_rowConnectors hs
    rfl

theorem texts_sequence (fragments : List (Fragment α)) :
    (sequence c fragments).texts = fragmentTexts fragments := by
  match fragments with
  | [] => rfl
  | [only] => exact (List.append_nil _).symm
  | first :: second :: rest =>
    rw [Fragment.texts_eq, sequence]
    simp only [shapeTexts_rowConnectors, row_fragments, List.nil_append]

theorem shapeTexts_branchConnectors (b : Box α) (mid right : α) :
    shapeTexts (branchConnectors c b mid right) = [] :=
  List.filterMap_eq_nil_iff.2 fun s hs => by
    obtain ⟨segments, rfl⟩ := connector_of_mem_branchConnectors hs
    rfl

theorem texts_alternatives (branches : List (Fragment α)) :
    (alternatives c branches).texts = fragmentTexts branches := by
  have hconnectors (placed : List (Placed α)) (mid right : α) :
      shapeTexts (placed.flatMap fun p => branchConnectors c p.box mid right) = [] := by
    induction placed with
    | nil => rfl
    | cons p rest ih =>
      rw [List.flatMap_cons, shapeTexts, List.filterMap_append]
      exact List.append_eq_nil_iff.2 ⟨shapeTexts_branchConnectors c p.box mid right, ih⟩
  rw [Fragment.texts_eq, alternatives]
  simp only [hconnectors, stack_fragments, List.nil_append]

theorem texts_range (first last : Fragment α) :
    (range c m first last).texts = ['-'] :: (first.texts ++ last.texts) := by
  rw [Fragment.texts_eq, range]
  simp only [shapeTexts, fragmentTexts, List.map_cons, List.map_nil, List.flatMap_cons,
    List.flatMap_nil, List.append_nil]
  rfl

theorem texts_charset (negated : Bool) (members : List (Fragment α)) :
    (charset c m negated members).texts = charsetCaption negated :: fragmentTexts members := by
  rw [Fragment.texts_eq, charset]
  simp only [stack_fragments]
  rfl

theorem texts_frame (caption : List Char) (content : Fragment α) :
    (frame c m caption content).texts = caption :: content.texts := by
  rw [Fragment.texts_eq]
  exact congrArg (List.cons caption) (List.append_nil _)

/-- A repetition shows its caption if it has a loop to be captioned. -/
theorem texts_repetition (r : Repetition) (inner : Fragment α) :
    (repetition c m r inner).texts =
      ((if r.canRepeat then r.label else none).map c.shown).toList ++ inner.texts := by
  have hinner : fragmentTexts [inner] = inner.texts := List.append_nil _
  rw [Fragment.texts_eq, repetition, ← hinner]
  generalize r.label = label
  generalize r.canSkip = skips
  generalize r.canRepeat = loops
  cases loops with
  | false => cases skips <;> cases r.greedy <;> rfl
  | true => cases label <;> cases skips <;> cases r.greedy <;> rfl

/-- A drawing shows the flags before everything else. -/
theorem texts_drawing (flags : List Char) (content : Fragment α) :
    (drawing c m flags content).fragment.texts =
      ((flagsCaption flags).map c.shown).toList ++ content.texts := by
  rw [Fragment.texts_eq, drawing]
  cases flagsCaption flags with
  | none => exact congrArg (List.append []) (List.append_nil _)
  | some caption => exact congrArg (List.cons (c.shown caption)) (List.append_nil _)

end Railroad

/-! ## Trees -/

namespace Pattern

variable [Scalar α] (c : Spacing α) (m : Measure α)

theorem Repetition.not_canRepeat_of_isOnce {r : Repetition} (h : r.isOnce = true) :
    r.canRepeat = false := by
  rw [isOnce, Bool.and_eq_true, beq_iff_eq, beq_iff_eq] at h
  rw [canRepeat, h.2]
  rfl

/-- A loop has its caption before the texts of what is repeated. -/
theorem Node.texts_quantified (span : Span) (atom : Node) (r : Repetition) (n : Nat) :
    ((Node.quantified span atom r).fragment c m n).texts =
      ((if r.canRepeat then r.label else none).map c.shown).toList ++
        (atom.fragment c m n).texts := by
  rw [Node.fragment]
  split
  next honce =>
    rw [Repetition.not_canRepeat_of_isOnce honce]
    rfl
  next => exact Railroad.texts_repetition c m r _

/-- A group has its caption, under the number of the group, before the texts of its content. -/
theorem Node.texts_group (span : Span) (kind : GroupKind) (content : Alternation) (n : Nat) :
    ((Node.group span kind content).fragment c m n).texts =
      (kind.caption (if kind.isCapturing then n + 1 else n)).toList ++
        (content.fragment c m (if kind.isCapturing then n + 1 else n)).texts := by
  rw [Node.fragment]
  generalize (if kind.isCapturing then n + 1 else n) = number
  cases kind.caption number with
  | none => rfl
  | some caption => exact Railroad.texts_frame c m caption _

/-- An alternation has the texts of its branches, be there one or more. -/
theorem Alternation.texts_fragment (span : Span) (branches : List Sequence) (n : Nat) :
    ((⟨span, branches⟩ : Alternation).fragment c m n).texts =
      fragmentTexts (branchFragments c m n branches) := by
  cases branches with
  | nil => exact Railroad.texts_alternatives c _
  | cons first rest =>
    cases rest with
    | nil => exact (List.append_nil _).symm
    | cons second more => exact Railroad.texts_alternatives c _

theorem Sequence.texts_fragment (span : Span) (items : List Node) (n : Nat) :
    ((⟨span, items⟩ : Sequence).fragment c m n).texts =
      fragmentTexts (itemFragments c m n none items) := by
  rw [Sequence.fragment, Railroad.texts_sequence]

/-- Literals run together; every other item stands for itself. -/
theorem Node.literal_or_other (item : Node) :
    (∃ span value, item = .literal span value) ∨ ∀ span value, item ≠ .literal span value := by
  cases item with
  | literal span value => exact .inl ⟨span, value, rfl⟩
  | _ => exact .inr fun _ _ h => nomatch h

/-- An item that is no literal ends the run of literals in front of it. -/
theorem itemFragments_cons_other (n : Nat) (run : Option (List Char)) {item : Node} (rest : List Node)
    (h : ∀ span value, item ≠ .literal span value) :
    itemFragments c m n run (item :: rest) = runFragments c m run ++
      item.fragment c m n :: itemFragments c m (n + item.captures) none rest := by
  cases item with
  | literal span value => exact absurd rfl (h span value)
  | _ => rfl

end Pattern

end RegexDiagram
