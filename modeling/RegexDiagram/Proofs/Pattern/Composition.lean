import RegexDiagram.Proofs.Pattern.LiteralForm
import RegexDiagram.Proofs.Pattern.Lookahead

/-!
# Patterns put together

What becomes of a pattern in a longer one. If nothing is noted in it, then its tokens are the same in
front of a bar or a parenthesis (`Token.ofText_append`), and it leaves no group open. What the reader
does with the tokens depends on the state it is in, and two frames say how: `Nesting.under` has further
groups open around the text, and `Nesting.behind` has further branches in front of it.

`Alternation.ofText_wrapped` puts a text into a group that captures nothing: its tree is the content of the
group. `read_bar` puts a bar between two patterns: the branches of the second one follow those of the
first.
-/

namespace RegexDiagram.Pattern

/-! ## Texts in which nothing is noted -/

namespace Nesting

/-- Anomalies are never taken back. -/
theorem clean_of_step {n : Nesting} {t : Token} (h : (n.step t).anomalies = []) :
    n.anomalies = [] ∧ t.anomalies = [] := by
  unfold step at h
  split at h
  · exact List.append_eq_nil_iff.1 h
  · exact List.append_eq_nil_iff.1 h
  · split at h
    · exact List.append_eq_nil_iff.1 h
    · obtain ⟨hfront, ht⟩ := List.append_eq_nil_iff.1 h
      exact ⟨(List.append_eq_nil_iff.1 hfront).1, ht⟩
  · exact List.append_eq_nil_iff.1 h

theorem clean_of_foldl {n : Nesting} {tokens : List Token}
    (h : (tokens.foldl step n).anomalies = []) :
    n.anomalies = [] ∧ ∀ token ∈ tokens, token.anomalies = [] := by
  induction tokens generalizing n with
  | nil => exact ⟨h, fun _ hmem => nomatch hmem⟩
  | cons t more ih =>
    obtain ⟨hstep, hmore⟩ := ih h
    obtain ⟨hn, ht⟩ := clean_of_step hstep
    exact ⟨hn, List.forall_mem_cons.2 ⟨ht, hmore⟩⟩

/-- A group that is open at the end is an anomaly. -/
theorem clean_of_finish {n : Nesting} (h : n.finish.2 = []) : n.groups = [] ∧ n.anomalies = [] := by
  obtain ⟨level, groups, anomalies⟩ := n
  obtain ⟨hnoted, hclosed⟩ := List.append_eq_nil_iff.1 h
  cases groups with
  | nil => exact ⟨rfl, hnoted⟩
  | cons g more => exact nomatch hclosed

end Nesting

/-- What reading a text leaves if nothing is noted in it: one alternation, around which no group is
open. -/
theorem Alternation.ofText_clean {pos : Nat} {s : List Char} (h : (Alternation.ofText pos s).2 = []) :
    (∀ token ∈ Token.ofText pos s, token.anomalies = []) ∧
      ∃ level, (Token.ofText pos s).foldl Nesting.step (.start pos) = ⟨level, [], []⟩ ∧
        (Alternation.ofText pos s).1 = level.alternation := by
  obtain ⟨hgroups, hnoted⟩ := Nesting.clean_of_finish h
  refine ⟨(Nesting.clean_of_foldl hnoted).2, ?_⟩
  unfold ofText ofTokens
  generalize (Token.ofText pos s).foldl Nesting.step (.start pos) = n at hgroups hnoted
  obtain ⟨level, groups, anomalies⟩ := n
  subst hgroups hnoted
  exact ⟨level, rfl, rfl⟩

/-- A pattern in which nothing is noted is such a text. -/
theorem clean_of_read {pattern : List Char} (hclean : (read pattern).isClean = true)
    (hpattern : ¬ InLiteralForm pattern) : (Alternation.ofText 0 pattern).2 = [] := by
  rw [← anomalies_of_not hpattern]
  exact List.isEmpty_iff.1 hclean

namespace Nesting

/-! ## Groups around a text -/

/-- The state with further groups open around it. -/
def under (n : Nesting) (outer : List OpenGroup) : Nesting := { n with groups := n.groups ++ outer }

/-- A token for which nothing is noted closes no group around the text. -/
theorem step_under (outer : List OpenGroup) {n : Nesting} {t : Token}
    (h : (n.step t).anomalies = []) : (n.under outer).step t = (n.step t).under outer := by
  obtain ⟨level, groups, anomalies⟩ := n
  obtain ⟨role, span, quantifier, noted⟩ := t
  cases role with
  | bar => rfl
  | opening kind => rfl
  | closing =>
    cases groups with
    | nil =>
      obtain ⟨hunmatched, -⟩ := List.append_eq_nil_iff.1 h
      exact nomatch (List.append_eq_nil_iff.1 hunmatched).2
    | cons g more => rfl
  | atom node => rfl

theorem foldl_step_under (outer : List OpenGroup) {n : Nesting} {tokens : List Token}
    (h : (tokens.foldl step n).anomalies = []) :
    tokens.foldl step (n.under outer) = (tokens.foldl step n).under outer := by
  induction tokens generalizing n with
  | nil => rfl
  | cons t more ih =>
    rw [List.foldl_cons] at h
    rw [List.foldl_cons, step_under outer (clean_of_foldl h).1, ih h, List.foldl_cons]

/-! ## Branches in front of a text -/

end Nesting

/-- The alternation with branches that were finished before it, the last of them first. It starts
where they do. -/
def Level.behind (start : Nat) (first : List Sequence) (l : Level) : Level :=
  { l with start, branches := l.branches ++ first }

/-- A level and the groups around it, with branches in front of the outermost alternation. -/
def Level.outermostBehind (start : Nat) (first : List Sequence) :
    Level → List OpenGroup → Level × List OpenGroup
  | level, [] => (level.behind start first, [])
  | level, g :: more =>
    let (outside, groups) := outermostBehind start first g.outside more
    (level, { g with outside } :: groups)

section Behind

variable (start : Nat) (first : List Sequence)

/-- An item is added to the innermost alternation, which may be the outermost one. -/
theorem Level.outermostBehind_add (l : Level) (groups : List OpenGroup) (node : Node) :
    Level.outermostBehind start first (l.add node) groups =
      ((Level.outermostBehind start first l groups).1.add node,
        (Level.outermostBehind start first l groups).2) := by
  cases groups <;> rfl

theorem Level.outermostBehind_nextBranch (l : Level) (groups : List OpenGroup) (offset : Nat) :
    Level.outermostBehind start first (l.nextBranch offset) groups =
      ((Level.outermostBehind start first l groups).1.nextBranch offset,
        (Level.outermostBehind start first l groups).2) := by
  cases groups <;> rfl

namespace Nesting

/-- The state with branches in front of the text. -/
def behind (n : Nesting) : Nesting :=
  let (level, groups) := Level.outermostBehind start first n.level n.groups
  { n with level, groups }

/-- Branches in front of a text do not change what a token does. -/
theorem step_behind (n : Nesting) (t : Token) :
    (n.behind start first).step t = (n.step t).behind start first := by
  obtain ⟨level, groups, anomalies⟩ := n
  obtain ⟨role, span, quantifier, noted⟩ := t
  cases role with
  | bar => simp only [step, behind, Level.outermostBehind_nextBranch]
  | opening kind => rfl
  | closing =>
    cases groups with
    | nil => rfl
    | cons g more =>
      simp only [step, behind, Level.outermostBehind, Level.outermostBehind_add]
      rfl
  | atom node => simp only [step, behind, Level.outermostBehind_add]

theorem closeAll_behind (level : Level) (groups : List OpenGroup) :
    (closeAll (Level.outermostBehind start first level groups).1
        (Level.outermostBehind start first level groups).2).1.branches =
      first.reverse ++ (closeAll level groups).1.branches ∧
    (closeAll (Level.outermostBehind start first level groups).1
        (Level.outermostBehind start first level groups).2).2 = (closeAll level groups).2 := by
  induction groups generalizing level with
  | nil =>
    refine ⟨?_, rfl⟩
    show (level.branch :: (level.branches ++ first)).reverse =
      first.reverse ++ (level.branch :: level.branches).reverse
    rw [← List.cons_append, List.reverse_append]
  | cons g more ih =>
    obtain ⟨hbranches, hnoted⟩ := ih (g.outside.add (g.close level []))
    rw [Level.outermostBehind_add] at hbranches hnoted
    exact ⟨hbranches, congrArg (List.cons _) hnoted⟩

theorem finish_behind (n : Nesting) :
    (n.behind start first).finish.1.branches = first.reverse ++ n.finish.1.branches ∧
      (n.behind start first).finish.2 = n.finish.2 := by
  obtain ⟨hbranches, hnoted⟩ := closeAll_behind start first n.level n.groups
  exact ⟨hbranches, congrArg (n.anomalies ++ ·) hnoted⟩

end Nesting

end Behind

/-! ## Groups -/

/-- The tree of a text in a non-capturing group with a quantifier, if it has one: a single item. -/
def Alternation.wrapped (s : List Char) (content : Alternation) (quantifier : Option Quantifier) :
    Alternation :=
  .ofBranches 0 [.ofItems 0
    [(Node.group ⟨"(?:".toList ++ s ++ [')'], 0⟩ .nonCapturing content).quantify quantifier]]

/-- A text that is a quantifier, or nothing, begins no other one. -/
theorem malformedAt_of_quantifierChars {s : List Char}
    (h : quantifierChars (Quantifier.read? s) = s) (pos : Nat) : malformedAt pos s = [] := by
  unfold malformedAt
  cases hq : Quantifier.read? s with
  | some q => rfl
  | none =>
    rw [hq] at h
    rw [← h]
    rfl

/-- The tokens of a text in a group are its own, between the parentheses. -/
theorem Token.ofText_wrapped {s suffix : List Char}
    (htokens : ∀ token ∈ Token.ofText 3 s, token.anomalies = [])
    (hsuffix : quantifierChars (Quantifier.read? suffix) = suffix) :
    Token.ofText 0 ("(?:".toList ++ s ++ [')'] ++ suffix) =
      ⟨.opening .nonCapturing, ⟨"(?:".toList, 0⟩, none, []⟩ ::
        (Token.ofText 3 s ++
          [⟨.closing, ⟨[')'], 3 + byteLength s⟩, Quantifier.read? suffix, []⟩]) := by
  have hopening : Token.ofText 0 ("(?:".toList ++ s ++ [')'] ++ suffix) =
      ⟨.opening .nonCapturing, ⟨"(?:".toList, 0⟩, none, []⟩ :: Token.ofText 3 (s ++ ')' :: suffix) := by
    show Token.ofText 0 ('(' :: '?' :: ':' :: (s ++ [')'] ++ suffix)) = _
    rw [Token.ofText, List.append_assoc]
    rfl
  have hclosing : Token.ofText (3 + byteLength s) (')' :: suffix) =
      [⟨.closing, ⟨[')'], 3 + byteLength s⟩, Quantifier.read? suffix, []⟩] := by
    have htext : (Token.read (3 + byteLength s) ')' suffix).text = ')' :: suffix := by
      rw [Token.read_closing]
      exact congrArg (List.cons ')') hsuffix
    rw [Token.ofText, htext, List.length_cons, Nat.add_sub_cancel, List.drop_length, Token.ofText,
      Token.read_closing, malformedAt_of_quantifierChars hsuffix]
  rw [hopening, Token.ofText_append suffix (.inr rfl) htokens, hclosing]

/-- A text in which nothing is noted, in a non-capturing group: the closing parenthesis is not taken
for a part of the text, and what follows it is read as the quantifier of the group. -/
theorem Alternation.ofText_wrapped {s : List Char} (hclean : (Alternation.ofText 0 s).2 = [])
    {suffix : List Char} (hsuffix : quantifierChars (Quantifier.read? suffix) = suffix) :
    Alternation.ofText 0 ("(?:".toList ++ s ++ [')'] ++ suffix) =
      (.wrapped s ((Alternation.ofText 0 s).1.shift 3) (Quantifier.read? suffix), []) := by
  have hmoved : Alternation.ofText 3 s =
      shiftNoted 3 (Alternation.shift 3) (Alternation.ofText 0 s) := by
    rw [← Alternation.ofText_shift]
  have hnoted : (Alternation.ofText 3 s).2 = [] := by
    rw [hmoved, shiftNoted, hclean]
    rfl
  obtain ⟨htokens, level, hread, htree⟩ := Alternation.ofText_clean hnoted
  have hcontent : level.alternation = (Alternation.ofText 0 s).1.shift 3 := by
    rw [← htree, hmoved]
    rfl
  have htext : ((Alternation.ofText 0 s).1.shift 3).span.text = s := by
    rw [← hcontent, ← htree, (Alternation.ofText_lossless _ _).2]
  -- behind the parenthesis the reader is where it starts on the text, under one group
  have hopened : (Nesting.start 0).step ⟨.opening .nonCapturing, ⟨"(?:".toList, 0⟩, none, []⟩ =
      (Nesting.start 3).under [⟨.nonCapturing, ⟨"(?:".toList, 0⟩, .opened 0⟩] := rfl
  have hinside : ((Token.ofText 3 s).foldl Nesting.step (.start 3)).anomalies = [] := by
    rw [hread]
  rw [ofText, ofTokens, Token.ofText_wrapped htokens hsuffix, List.foldl_cons, hopened,
    List.foldl_append, Nesting.foldl_step_under _ hinside, hread]
  simp only [List.foldl_cons, List.foldl_nil, Nesting.under, Nesting.step, List.nil_append,
    OpenGroup.close, hcontent, htext]
  rfl

/-! ## Bars -/

/-- A text in which nothing is noted, a bar, and any text: the branches of the two texts, and what is
noted in the second one. -/
theorem Alternation.ofText_bar {pos : Nat} {s : List Char} (hclean : (Alternation.ofText pos s).2 = [])
    (t : List Char) :
    (Alternation.ofText pos (s ++ '|' :: t)).1.branches =
        (Alternation.ofText pos s).1.branches ++
          (Alternation.ofText (pos + byteLength s + 1) t).1.branches ∧
      (Alternation.ofText pos (s ++ '|' :: t)).2 =
        (Alternation.ofText (pos + byteLength s + 1) t).2 := by
  obtain ⟨htokens, level, hread, htree⟩ := Alternation.ofText_clean hclean
  have hbar : Token.ofText (pos + byteLength s) ('|' :: t) =
      ⟨.bar, ⟨['|'], pos + byteLength s⟩, none, []⟩ :: Token.ofText (pos + byteLength s + 1) t := by
    rw [Token.ofText]
    rfl
  -- behind the bar the reader is where it starts on the second text, with the branches of the first
  have hbehind : (⟨level.nextBranch (pos + byteLength s + 1), [], []⟩ : Nesting) =
      (Nesting.start (pos + byteLength s + 1)).behind level.start (level.branch :: level.branches) :=
    rfl
  have hfold : (Token.ofText pos (s ++ '|' :: t)).foldl Nesting.step (.start pos) =
      ((Token.ofText (pos + byteLength s + 1) t).foldl Nesting.step
        (.start (pos + byteLength s + 1))).behind level.start (level.branch :: level.branches) := by
    rw [Token.ofText_append t (.inl rfl) htokens, List.foldl_append, hread, hbar, List.foldl_cons,
      ← List.foldl_hom (Nesting.behind level.start (level.branch :: level.branches))
        (Nesting.step_behind level.start (level.branch :: level.branches)), ← hbehind]
    rfl
  rw [htree]
  unfold ofText ofTokens
  rw [hfold]
  exact Nesting.finish_behind _ _ _

/-- **Branches of two patterns.** A pattern in which nothing is noted, a bar, and any pattern, where
none of the three is in literal form: the branches are those of the first pattern and then those of the
second, and the anomalies are those of the second, both further on by the first pattern and the bar. -/
theorem read_bar {p q : List Char} (hclean : (read p).isClean = true) (hp : ¬ InLiteralForm p)
    (hq : ¬ InLiteralForm q) (hpq : ¬ InLiteralForm (p ++ ['|'] ++ q)) :
    (read (p ++ ['|'] ++ q)).root.alternation.branches =
        (read p).root.alternation.branches ++
          (read q).root.alternation.branches.map (Sequence.shift (byteLength p + 1)) ∧
      (read (p ++ ['|'] ++ q)).anomalies =
        (read q).anomalies.map (Anomaly.shift (byteLength p + 1)) := by
  have hbar := Alternation.ofText_bar (clean_of_read hclean hp) q
  have hshift := Alternation.ofText_shift (byteLength p + 1) 0 q
  rw [← Nat.add_assoc] at hshift
  rw [hshift] at hbar
  rw [alternation_of_not hp, alternation_of_not hq, alternation_of_not hpq, anomalies_of_not hq,
    anomalies_of_not hpq, List.append_assoc, ← Alternation.branches_shift]
  exact hbar

/-- A name in front of the bar, and a parenthesis that closes nothing behind it. -/
theorem read_bar_unmatched :
    (read "(?<n>a|b)".toList).isClean = true ∧ ¬ InLiteralForm "(?<n>a|b)".toList ∧
      ¬ InLiteralForm "c)".toList ∧ ¬ InLiteralForm "(?<n>a|b)|c)".toList ∧
      (read "c)".toList).anomalies = [⟨1, .unmatchedParen⟩] ∧
      (read "(?<n>a|b)|c)".toList).root.alternation.branches =
        (read "(?<n>a|b)".toList).root.alternation.branches ++
          (read "c)".toList).root.alternation.branches.map (Sequence.shift 10) ∧
      (read "(?<n>a|b)|c)".toList).anomalies = [⟨11, .unmatchedParen⟩] := by
  have hclean : (read "(?<n>a|b)".toList).isClean = true := by decide +kernel
  have hp : ¬ InLiteralForm "(?<n>a|b)".toList := by decide +kernel
  have hq : ¬ InLiteralForm "c)".toList := by decide +kernel
  have hpq : ¬ InLiteralForm "(?<n>a|b)|c)".toList := by decide +kernel
  have hnoted : (read "c)".toList).anomalies = [⟨1, .unmatchedParen⟩] := by decide +kernel
  obtain ⟨hbranches, hanomalies⟩ := read_bar hclean hp hq hpq
  rw [hnoted] at hanomalies
  exact ⟨hclean, hp, hq, hpq, hnoted, hbranches, hanomalies⟩

end RegexDiagram.Pattern
