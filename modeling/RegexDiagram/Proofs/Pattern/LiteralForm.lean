import RegexDiagram.Proofs.Pattern.Letters
import RegexDiagram.Proofs.Pattern.Lossless
import RegexDiagram.Proofs.Pattern.Shifting

/-!
# Patterns between slashes

A text is in literal form if it begins with a slash and a later slash has only letters behind it
(`InLiteralForm`). The reader splits such a text at the last of these slashes, also where the body has
slashes of its own.

`read_inSlashes` says that the slashes and the flags are a frame and nothing more: between them a body
has the tree and the anomalies that it has alone, one byte further on.
-/

namespace RegexDiagram.Pattern

/-- The text begins with a slash, and a later slash is followed by ASCII letters only. -/
def InLiteralForm (input : List Char) : Prop :=
  ∃ body flags, input = ['/'] ++ body ++ ['/'] ++ flags ∧ ∀ c ∈ flags, c.isAlpha = true

/-- The flags hold no slash, so the last slash is the one in front of them. -/
theorem LiteralForm.read?_inSlashes (body : List Char) {flags : List Char}
    (hflags : ∀ c ∈ flags, c.isAlpha = true) :
    LiteralForm.read? (['/'] ++ body ++ ['/'] ++ flags) = some ⟨body, flags⟩ := by
  have hletters : ∀ c ∈ flags.reverse, decide (c ≠ '/') = true := by
    intro c hc
    rw [decide_eq_true_eq]
    rintro rfl
    exact absurd (hflags '/' (List.mem_reverse.1 hc)) (by decide)
  have hslash : decide ('/' ≠ '/') = false := by decide
  have hreverse : (body ++ ['/'] ++ flags).reverse = flags.reverse ++ '/' :: body.reverse := by
    simp only [List.reverse_append, List.append_assoc]
    rfl
  show LiteralForm.read? ('/' :: (body ++ ['/'] ++ flags)) = _
  unfold LiteralForm.read?
  simp only [hreverse, List.takeWhile_append_of_pos hletters, List.dropWhile_append_of_pos hletters,
    List.takeWhile_cons, List.dropWhile_cons, hslash, Bool.false_eq_true, if_false, List.append_nil,
    List.reverse_reverse]
  rw [if_pos (List.all_eq_true.2 hflags)]

/-- The reader takes a text apart exactly if it is in literal form. -/
theorem inLiteralForm_iff (input : List Char) :
    InLiteralForm input ↔ (LiteralForm.read? input).isSome = true := by
  constructor
  · rintro ⟨body, flags, rfl, hflags⟩
    rw [LiteralForm.read?_inSlashes body hflags]
    rfl
  · intro h
    obtain ⟨form, hform⟩ := Option.isSome_iff_exists.1 h
    have hflags := read_flags input
    simp only [read, hform] at hflags
    exact ⟨form.body, form.flags, LiteralForm.eq_of_read? hform, hflags⟩

instance (input : List Char) : Decidable (InLiteralForm input) :=
  decidable_of_iff _ (inLiteralForm_iff input).symm

/-- A text that begins with another character is not in literal form. -/
theorem not_inLiteralForm_cons {c : Char} (hc : c ≠ '/') (rest : List Char) :
    ¬ InLiteralForm (c :: rest) := by
  rintro ⟨body, flags, h, -⟩
  exact hc (List.cons.inj h).1

theorem read?_eq_none {input : List Char} (h : ¬ InLiteralForm input) :
    LiteralForm.read? input = none := by
  rw [inLiteralForm_iff, Bool.not_eq_true, Option.isSome_eq_false_iff, Option.isNone_iff_eq_none] at h
  exact h

/-- A text that is not in literal form is all body. -/
theorem bodySpan_of_not {input : List Char} (h : ¬ InLiteralForm input) :
    bodySpan input = ⟨input, 0⟩ := by
  rw [bodySpan, read?_eq_none h]

theorem alternation_of_not {input : List Char} (h : ¬ InLiteralForm input) :
    (read input).root.alternation = (Alternation.ofText 0 input).1 := by
  rw [read_alternation, bodySpan_of_not h]

theorem anomalies_of_not {input : List Char} (h : ¬ InLiteralForm input) :
    (read input).anomalies = (Alternation.ofText 0 input).2 := by
  rw [read_anomalies, bodySpan_of_not h]

/-- A text that is not in literal form has no flags. -/
theorem flags_of_not {input : List Char} (h : ¬ InLiteralForm input) : (read input).root.flags = [] := by
  simp only [read, read?_eq_none h]

/-- **The slashes are a frame.** A body between slashes, with letters behind the second one, has these
letters for its flags. If the body is not in literal form itself, its tree and its anomalies are those of
the body alone, one byte further on, whatever the flags are. -/
theorem read_inSlashes {body flags : List Char} (hbody : ¬ InLiteralForm body)
    (hflags : ∀ c ∈ flags, c.isAlpha = true) :
    (read (['/'] ++ body ++ ['/'] ++ flags)).root.flags = flags ∧
      (read (['/'] ++ body ++ ['/'] ++ flags)).root.alternation =
        (read body).root.alternation.shift 1 ∧
      (read (['/'] ++ body ++ ['/'] ++ flags)).anomalies =
        (read body).anomalies.map (Anomaly.shift 1) := by
  have hform := LiteralForm.read?_inSlashes body hflags
  have hspan : bodySpan (['/'] ++ body ++ ['/'] ++ flags) = ⟨body, 0 + 1⟩ := by
    rw [bodySpan, hform]
  refine ⟨?_, ?_, ?_⟩
  · simp only [read, hform]
  · rw [read_alternation, hspan, alternation_of_not hbody, Alternation.ofText_shift]
    rfl
  · rw [read_anomalies, hspan, anomalies_of_not hbody, Alternation.ofText_shift]
    rfl

/-- A body with slashes of its own and a group that is not closed: the group is noted at the second byte
and one byte further on between slashes. -/
theorem read_inSlashes_unclosed :
    ¬ InLiteralForm "a/(b/1".toList ∧ (∀ c ∈ "gi".toList, c.isAlpha = true) ∧
      (read "a/(b/1".toList).anomalies = [⟨2, .unterminatedGroup⟩] ∧
      (read "/a/(b/1/gi".toList).root.flags = "gi".toList ∧
      (read "/a/(b/1/gi".toList).root.alternation =
        (read "a/(b/1".toList).root.alternation.shift 1 ∧
      (read "/a/(b/1/gi".toList).anomalies = [⟨3, .unterminatedGroup⟩] := by
  have hbody : ¬ InLiteralForm "a/(b/1".toList := by decide +kernel
  have hletters : ∀ c ∈ "gi".toList, c.isAlpha = true := List.all_eq_true.1 (by decide +kernel)
  have hnoted : (read "a/(b/1".toList).anomalies = [⟨2, .unterminatedGroup⟩] := by decide +kernel
  obtain ⟨hflags, htree, hanomalies⟩ := read_inSlashes hbody hletters
  rw [hnoted] at hanomalies
  exact ⟨hbody, hletters, hnoted, hflags, htree, hanomalies⟩

end RegexDiagram.Pattern
