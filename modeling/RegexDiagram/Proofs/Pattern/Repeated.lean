import RegexDiagram.Proofs.Pattern.Composition
import RegexDiagram.Proofs.Pattern.Findings

/-!
# Patterns that are repeated

The bounds of a repetition are written in braces, and what is written is read again: behind a pattern of one
item that is not repeated, the braces are the quantifier of that item (`read_quantified`). No brace in the
pattern takes them for its own, and the item stays as it was.
-/

namespace RegexDiagram.Pattern

/-! ## The last token -/

namespace Nesting

/-- If a token leaves a single item that is not repeated, the item is what it adds, and a quantifier of the
token is one of the item. -/
theorem step_quantified {n : Nesting} {t : Token} {level : Level} {item : Node}
    (h : n.step t = ⟨level, [], []⟩) (hbranches : level.branches = []) (hitems : level.items = [item])
    (hbare : item.isQuantified = false) :
    t.role.isRepeatable = true ∧ t.quantifier = none ∧ ∀ q,
      n.step { t with quantifier := some q } = ⟨{ level with items := [item.quantify (some q)] }, [], []⟩ := by
  obtain ⟨inner, groups, noted⟩ := n
  obtain ⟨role, span, quantifier, anomalies⟩ := t
  -- an item under a quantifier is repeated
  have hquantify {node : Node} (hnode : node.quantify quantifier = item) : quantifier = none ∧ node = item := by
    cases quantifier with
    | none => exact ⟨rfl, hnode⟩
    | some q =>
      rw [← hnode] at hbare
      exact absurd hbare.symm Bool.false_ne_true
  cases role with
  | bar =>
    obtain ⟨hlevel, -⟩ := Nesting.mk.inj h
    rw [← hlevel] at hbranches
    exact absurd hbranches (List.cons_ne_nil _ _)
  | opening kind =>
    obtain ⟨-, hgroups, -⟩ := Nesting.mk.inj h
    exact absurd hgroups (List.cons_ne_nil _ _)
  | closing =>
    cases groups with
    | nil =>
      obtain ⟨-, -, hnoted⟩ := Nesting.mk.inj h
      exact absurd (List.append_eq_nil_iff.1 (List.append_eq_nil_iff.1 hnoted).1).2 (List.cons_ne_nil _ _)
    | cons g more =>
      obtain ⟨rfl, rfl, hnoted⟩ := Nesting.mk.inj h
      obtain ⟨hnode, houtside⟩ := List.cons.inj hitems
      obtain ⟨rfl, rfl⟩ := hquantify hnode
      refine ⟨rfl, rfl, fun q => ?_⟩
      simp only [step, Level.add, houtside, hnoted]
  | atom node =>
    obtain ⟨rfl, rfl, hnoted⟩ := Nesting.mk.inj h
    obtain ⟨hnode, hothers⟩ : node.quantify quantifier = item ∧ inner.items = [] := List.cons.inj hitems
    obtain ⟨rfl, rfl⟩ := hquantify hnode
    refine ⟨rfl, rfl, fun q => ?_⟩
    simp only [step, Level.add, hothers, hnoted]

end Nesting

/-! ## The quantifier behind a pattern -/

/-- A level that ends as a single branch with a single item. -/
theorem Level.single_item {level : Level} {item : Node}
    (h : level.alternation.branches.map Sequence.items = [[item]]) : level.branches = [] ∧ level.items = [item] := by
  have hitems : ((level.branch :: level.branches).map Sequence.items).reverse = [[item]] := by
    rw [← List.map_reverse]
    exact h
  rw [List.reverse_eq_iff, List.map_cons] at hitems
  obtain ⟨hbranch, hothers⟩ := List.cons.inj hitems
  exact ⟨List.map_eq_nil_iff.1 hothers, List.reverse_eq_iff.1 hbranch⟩

/-- A text of one item that is not repeated, in which nothing is noted, and a quantifier in braces. -/
theorem Alternation.ofText_quantified {pos : Nat} {s : List Char} {item : Node}
    (hclean : (Alternation.ofText pos s).2 = [])
    (hitem : (Alternation.ofText pos s).1.branches.map Sequence.items = [[item]])
    (hbare : item.isQuantified = false) {t : List Char} {q : Quantifier}
    (hq : Quantifier.read? ('\x7b' :: t) = some q) (hwhole : q.text = '\x7b' :: t) :
    (Alternation.ofText pos (s ++ '\x7b' :: t)).2 = [] ∧
      (Alternation.ofText pos (s ++ '\x7b' :: t)).1.branches.map Sequence.items =
        [[item.quantify (some q)]] := by
  obtain ⟨htokens, level, hread, htree⟩ := Alternation.ofText_clean hclean
  rw [htree] at hitem
  obtain ⟨hbranches, hitems⟩ := Level.single_item hitem
  obtain hnil | ⟨front, last, hlast⟩ := List.eq_nil_or_concat (Token.ofText pos s)
  · rw [hnil] at hread
    obtain ⟨rfl, -⟩ := Nesting.mk.inj hread
    exact absurd hitems.symm (List.cons_ne_nil _ _)
  rw [List.concat_eq_append] at hlast
  rw [hlast, List.foldl_append] at hread
  obtain ⟨hrole, hnone, hstep⟩ := Nesting.step_quantified hread hbranches hitems hbare
  have hfold : (Token.ofText pos (s ++ '\x7b' :: t)).foldl Nesting.step (.start pos) =
      ⟨{ level with items := [item.quantify (some q)] }, [], []⟩ := by
    rw [Token.ofText_quantified t htokens hlast hrole hnone hq hwhole, List.foldl_append]
    exact hstep q
  unfold ofText ofTokens
  rw [hfold, Nesting.finish, Nesting.closeAll, hbranches]
  exact ⟨rfl, rfl⟩

/-- A single item takes the whole text. -/
theorem Alternation.Lossless.span_item {a : Alternation} (h : a.Lossless) {item : Node}
    (hitem : a.branches.map Sequence.items = [[item]]) : item.span = a.span := by
  obtain ⟨⟨htext, hchain⟩, hbranches⟩ := Alternation.lossless_iff.1 h
  obtain ⟨span, branches⟩ := a
  obtain ⟨branch, rfl, hbranch⟩ : ∃ b, branches = [b] ∧ b.items = [item] := List.map_eq_singleton_iff.1 hitem
  obtain ⟨⟨hbranchText, hbranchChain, -⟩, -⟩ := Sequence.lossless_iff.1 (hbranches branch (.head _))
  rw [hbranch] at hbranchText hbranchChain
  have hitemText : branch.span.text = item.span.text := hbranchText.trans (List.append_nil _)
  have hwholeText : span.text = branch.span.text := htext
  exact congrArg₂ Span.mk (hwholeText.trans hitemText).symm (hbranchChain.1.trans hchain.1)

/-- A text is not in literal form if it ends with anything but a letter or a slash. -/
theorem not_inLiteralForm_append {s t : List Char} {last : Char} (ht : t.getLast? = some last)
    (hslash : last ≠ '/') (hletter : last.isAlpha = false) : ¬ InLiteralForm (s ++ t) := by
  rintro ⟨body, flags, heq, hflags⟩
  have hlast : (['/'] ++ body ++ ['/'] ++ flags).getLast? = some last := by
    rw [← heq, List.getLast?_append, ht]
    rfl
  cases hend : flags.getLast? with
  | none =>
    rw [List.getLast?_eq_none_iff.1 hend, List.append_nil, List.getLast?_concat] at hlast
    exact hslash (Option.some.inj hlast).symm
  | some c =>
    rw [List.getLast?_append, hend] at hlast
    obtain rfl : c = last := Option.some.inj hlast
    exact Bool.false_ne_true (hletter.symm.trans (hflags c (List.mem_of_getLast? hend)))

/-- A repetition is written from a brace on, and ends with another one or the mark of a lazy quantifier. -/
theorem Repetition.text_ends (r : Repetition) :
    (∃ t, r.text = '\x7b' :: t) ∧ (r.text.getLast? = some '\x7d' ∨ r.text.getLast? = some '?') := by
  refine ⟨⟨_, rfl⟩, ?_⟩
  obtain ⟨min, max, greedy⟩ := r
  cases greedy with
  | true =>
    left
    rw [text, if_pos rfl, List.append_nil]
    exact List.getLast?_concat
  | false => exact .inr List.getLast?_concat

/-- **Repetitions are read as they are written.** In a pattern of a single item that is not repeated, in
which nothing is noted and that is not in literal form, a repetition written behind it belongs to the item,
with the bounds that were written. Nothing is noted in the longer pattern, and the item stays as it was. -/
theorem read_quantified {a : List Char} {item : Node} {r : Repetition}
    (hclean : (read a).isClean = true) (ha : ¬ InLiteralForm a)
    (hitem : (read a).root.alternation.branches.map Sequence.items = [[item]])
    (hbare : item.isQuantified = false) (hr : r.Admitted) :
    (read (a ++ r.text)).isClean = true ∧
      (read (a ++ r.text)).root.alternation.branches.map Sequence.items =
        [[.quantified ⟨a ++ r.text, 0⟩ item r]] := by
  obtain ⟨⟨t, htext⟩, hend⟩ := r.text_ends
  have hform : ¬ InLiteralForm (a ++ r.text) := by
    obtain hend | hend := hend
    · exact not_inLiteralForm_append hend (by decide) (by decide)
    · exact not_inLiteralForm_append hend (by decide) (by decide)
  have hread := r.read?_text hr
  rw [htext] at hread
  rw [alternation_of_not ha] at hitem
  obtain ⟨hnoted, hquantified⟩ := Alternation.ofText_quantified (clean_of_read hclean ha) hitem hbare hread rfl
  rw [← htext] at hnoted hquantified
  rw [Outcome.isClean, anomalies_of_not hform, alternation_of_not hform, hnoted, hquantified]
  refine ⟨rfl, ?_⟩
  -- the item is the whole text
  obtain ⟨hlossless, hspan⟩ := Alternation.ofText_lossless 0 (a ++ r.text)
  have hitemSpan : (⟨item.span.text ++ r.text, item.span.offset⟩ : Span) = ⟨a ++ r.text, 0⟩ :=
    (hlossless.span_item hquantified).trans hspan
  rw [Node.quantify, hitemSpan]

/-- A group that begins with a brace, and the greatest bounds. -/
theorem read_quantified_group :
    (read "(\x7b2)".toList).isClean = true ∧ ¬ InLiteralForm "(\x7b2)".toList ∧
      (⟨0, some 4294967295, false⟩ : Repetition).Admitted ∧
      "(\x7b2)".toList ++ (⟨0, some 4294967295, false⟩ : Repetition).text = "(\x7b2)\x7b0,4294967295\x7d?".toList ∧
      ∃ item, (read "(\x7b2)".toList).root.alternation.branches.map Sequence.items = [[item]] ∧
        item.isQuantified = false ∧
        (read "(\x7b2)\x7b0,4294967295\x7d?".toList).isClean = true ∧
        (read "(\x7b2)\x7b0,4294967295\x7d?".toList).root.alternation.branches.map Sequence.items =
          [[.quantified ⟨"(\x7b2)\x7b0,4294967295\x7d?".toList, 0⟩ item ⟨0, some 4294967295, false⟩]] := by
  have hclean : (read "(\x7b2)".toList).isClean = true := by decide +kernel
  have hform : ¬ InLiteralForm "(\x7b2)".toList := not_inLiteralForm_cons (by decide) _
  have hadmitted : (⟨0, some 4294967295, false⟩ : Repetition).Admitted :=
    ⟨by decide, by simp [UInt32.size]⟩
  have htext : "(\x7b2)".toList ++ (⟨0, some 4294967295, false⟩ : Repetition).text =
      "(\x7b2)\x7b0,4294967295\x7d?".toList := by decide +kernel
  have hshape : ((read "(\x7b2)".toList).root.alternation.branches.map Sequence.items).map
      (List.map Node.isQuantified) = [[false]] := by decide +kernel
  obtain ⟨items, hitems, hone⟩ := List.map_eq_singleton_iff.1 hshape
  obtain ⟨item, rfl, hbare⟩ := List.map_eq_singleton_iff.1 hone
  refine ⟨hclean, hform, hadmitted, htext, item, hitems, hbare, ?_⟩
  rw [← htext]
  exact read_quantified hclean hform hitems hbare hadmitted

end RegexDiagram.Pattern
