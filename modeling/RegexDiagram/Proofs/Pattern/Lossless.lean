import RegexDiagram.Pattern.Outcome
import RegexDiagram.Proofs.Pattern.Nested

/-!
# Nothing of a pattern is lost

The tree of a pattern keeps the whole input: `read_lossless` says that every node has exactly the
characters of its parts with the punctuation of its construct between them, and that the characters
of every node stand in the input at the position of the node. The punctuation is spelled out in
`View.Tiled`.

There is no condition on the input. What had to be recovered from, an unclosed group or class, a
group name that is missing, a backslash at the end, keeps its characters like everything else.
-/

namespace RegexDiagram.Pattern

/-- A text in literal form is its parts between slashes. -/
theorem LiteralForm.eq_of_read? {input : List Char} {form : LiteralForm}
    (h : LiteralForm.read? input = some form) :
    input = ['/'] ++ form.body ++ ['/'] ++ form.flags := by
  unfold LiteralForm.read? at h
  split at h
  next rest =>
    have hsplit := List.takeWhile_append_dropWhile (p := fun c : Char => decide (c ≠ '/'))
      (l := rest.reverse)
    simp only at h
    split at h
    next slash body hbody =>
      have hslash : slash = '/' := by
        have hne : rest.reverse.dropWhile (fun c : Char => decide (c ≠ '/')) ≠ [] := by
          rw [hbody]
          exact List.cons_ne_nil _ _
        have hhead := List.head_dropWhile_not (fun c : Char => decide (c ≠ '/')) hne
        simp only [hbody, List.head_cons, decide_eq_false_iff_not, Decidable.not_not] at hhead
        exact hhead
      split at h
      · cases h
        rw [hbody, hslash] at hsplit
        have hrest := congrArg List.reverse hsplit
        simp only [List.reverse_append, List.reverse_cons, List.reverse_reverse] at hrest
        exact congrArg (List.cons '/') hrest.symm
      · cases h
    next => cases h
  next => cases h

/-- The part of an input that is the pattern: what stands between the slashes of the literal form, or
everything. -/
def bodySpan (input : List Char) : Span :=
  match LiteralForm.read? input with
  | some form => ⟨form.body, 1⟩
  | none => ⟨input, 0⟩

/-- The alternation of a pattern and its anomalies are what its body stands for at its position:
nothing outside the body is looked at. -/
theorem read_eq_ofText (input : List Char) :
    ((read input).root.alternation, (read input).anomalies) =
      Alternation.ofText (bodySpan input).offset (bodySpan input).text := by
  unfold read bodySpan
  cases LiteralForm.read? input <;> rfl

theorem read_alternation (input : List Char) :
    (read input).root.alternation =
      (Alternation.ofText (bodySpan input).offset (bodySpan input).text).1 := by
  rw [← read_eq_ofText]

theorem read_anomalies (input : List Char) :
    (read input).anomalies =
      (Alternation.ofText (bodySpan input).offset (bodySpan input).text).2 := by
  rw [← read_eq_ofText]

theorem read_alternation_span (input : List Char) :
    (read input).root.alternation.span = bodySpan input := by
  rw [read_alternation]
  exact (Alternation.ofText_lossless _ _).2

theorem read_alternation_lossless (input : List Char) :
    (read input).root.alternation.Lossless := by
  rw [read_alternation]
  exact (Alternation.ofText_lossless _ _).1

/-- The root of a pattern is its whole input, and the body lies in it alone or between slashes. -/
theorem read_root_tiled (input : List Char) : View.Tiled (.root (read input).root) := by
  have hspan := read_alternation_span input
  rw [View.Tiled, hspan]
  unfold bodySpan read
  cases hform : LiteralForm.read? input with
  | none => exact ⟨rfl, .inl ⟨rfl, rfl, rfl⟩⟩
  | some form => exact ⟨rfl, .inr ⟨LiteralForm.eq_of_read? hform, rfl⟩⟩

/-- The body of a pattern stands in the input. -/
theorem read_body_within (input : List Char) :
    (read input).root.alternation.span.Within input := by
  have hroot : (read input).root.span.text = input := rfl
  obtain ⟨-, ⟨htext, hoffset, -⟩ | ⟨htext, hoffset⟩⟩ := read_root_tiled input
  · refine (Span.within_self input).part [] [] ?_ hoffset
    rw [List.nil_append, List.append_nil, ← htext, hroot]
  · refine (Span.within_self input).part ['/'] (['/'] ++ (read input).root.flags) ?_ hoffset
    rw [← List.append_assoc, ← htext, hroot]

/-- **Reading is lossless**: the root is the whole input, every node of the tree has the characters of
its parts with only the punctuation of its construct around them, and it stands in the input where
its position says. -/
theorem read_lossless (input : List Char) :
    (read input).root.span = ⟨input, 0⟩ ∧
      ∀ v ∈ (read input).root.descendants, v.Tiled ∧ v.span.Within input := by
  refine ⟨rfl, List.forall_mem_cons.2 ⟨⟨read_root_tiled input, Span.within_self input⟩, ?_⟩⟩
  intro v hv
  have hlossless := read_alternation_lossless input
  exact ⟨hlossless v hv, Alternation.within_views hlossless (read_body_within input) v hv⟩

end RegexDiagram.Pattern
