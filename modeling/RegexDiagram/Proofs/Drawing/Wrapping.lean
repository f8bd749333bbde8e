import RegexDiagram.Proofs.Drawing.Texts
import RegexDiagram.Proofs.Pattern.Composition
import RegexDiagram.Proofs.Pattern.Views
import RegexDiagram.Text.Terminal

/-!
# Groups that show nothing

A non-capturing group, alone or repeated exactly once, draws what is in it. `read_wrap` says so of whole
patterns: a pattern in which nothing is noted has the same drawing as the pattern in such a group, with
every spacing and every measure, and so the same document and the same text.

The wrapped pattern is read as `Alternation.ofText_wrapped` says. A drawing does not depend on positions
(`Alternation.fragment_shift`), and the group is left out by the layout of the sequence, of the quantifier
and of the group (`Alternation.fragment_wrapped`).
-/

namespace RegexDiagram

namespace Pattern

/-! ## Drawings of shifted trees -/

section Positions

variable (d : Nat)

mutual

theorem Node.captures_shift : ∀ node : Node, (node.shift d).captures = node.captures
  | .quantified _ atom _ => atom.captures_shift
  | .group _ _ content => congrArg (_ + ·) content.captures_shift
  | .literal .. | .escape .. | .charset .. | .anchor .. | .wildcard _ => rfl

theorem Alternation.captures_shift : ∀ a : Alternation, (a.shift d).captures = a.captures
  | ⟨_, branches⟩ => branchCaptures_shift branches

theorem Sequence.captures_shift : ∀ s : Sequence, (s.shift d).captures = s.captures
  | ⟨_, items⟩ => itemCaptures_shift items

theorem branchCaptures_shift : ∀ branches : List Sequence,
    branchCaptures (shiftBranches d branches) = branchCaptures branches
  | [] => rfl
  | branch :: rest => by
    rw [shiftBranches, branchCaptures, branchCaptures, branch.captures_shift, branchCaptures_shift rest]

theorem itemCaptures_shift : ∀ items : List Node, itemCaptures (shiftItems d items) = itemCaptures items
  | [] => rfl
  | item :: rest => by
    rw [shiftItems, itemCaptures, itemCaptures, item.captures_shift, itemCaptures_shift rest]

end

variable {α : Type} [Scalar α] (c : Spacing α) (m : Measure α)

theorem ClassAtom.fragment_shift (atom : ClassAtom) :
    (atom.shift d).fragment c m = atom.fragment c m := by
  cases atom <;> rfl

theorem Member.fragment_shift (member : Member) :
    (member.shift d).fragment c m = member.fragment c m := by
  cases member with
  | single atom => exact atom.fragment_shift d c m
  | range span first last =>
    simp only [Member.shift, Member.fragment, ClassAtom.fragment_shift]

theorem Node.shift_ne_literal {item : Node} (h : ∀ span value, item ≠ .literal span value) :
    ∀ span value, item.shift d ≠ .literal span value := by
  cases item with
  | literal span value => exact absurd rfl (h span value)
  | _ => exact fun _ _ h => nomatch h

theorem itemFragments_shift {items : List Node}
    (h : ∀ i ∈ items, ∀ n, (i.shift d).fragment c m n = i.fragment c m n) (n : Nat)
    (run : Option (List Char)) :
    itemFragments c m n run (shiftItems d items) = itemFragments c m n run items := by
  induction items generalizing n run with
  | nil => rfl
  | cons item rest ih =>
    obtain ⟨hitem, hrest⟩ := List.forall_mem_cons.1 h
    have hfragment := hitem n
    have hcaptures := item.captures_shift d
    obtain ⟨span, value, rfl⟩ | hother := item.literal_or_other
    · exact ih hrest n (some (run.getD [] ++ value))
    · rw [shiftItems, itemFragments_cons_other c m n run _ (item.shift_ne_literal d hother),
        itemFragments_cons_other c m n run rest hother, hfragment, hcaptures, ih hrest]

theorem branchFragments_shift {branches : List Sequence}
    (h : ∀ b ∈ branches, ∀ n, (b.shift d).fragment c m n = b.fragment c m n) (n : Nat) :
    branchFragments c m n (shiftBranches d branches) = branchFragments c m n branches := by
  induction branches generalizing n with
  | nil => rfl
  | cons branch rest ih =>
    obtain ⟨hbranch, hrest⟩ := List.forall_mem_cons.1 h
    rw [shiftBranches, branchFragments, branchFragments, hbranch, branch.captures_shift, ih hrest]

/-- The layout does not look at positions. -/
theorem treeClosed_fragment_shift : TreeClosed
    (fun node => ∀ n, (node.shift d).fragment c m n = node.fragment c m n)
    (fun a => ∀ n, (a.shift d).fragment c m n = a.fragment c m n)
    (fun s => ∀ n, (s.shift d).fragment c m n = s.fragment c m n) where
  literal _ _ _ := rfl
  escape _ _ _ := rfl
  anchor _ _ _ := rfl
  wildcard _ _ := rfl
  charset _ negated members n := by
    rw [Node.shift, Node.fragment, Node.fragment, List.map_map]
    congr 1
    exact List.map_congr_left fun member _ => member.fragment_shift d c m
  quantified _ atom repetition hatom n := by
    rw [Node.shift, Node.fragment, Node.fragment, hatom]
  group _ kind content hcontent n := by
    rw [Node.shift, Node.fragment, Node.fragment]
    simp only [hcontent]
  ofBranches _ branches hbranches n := by
    -- a single branch is drawn as it is
    cases branches with
    | nil => rfl
    | cons first rest =>
      cases rest with
      | nil => exact hbranches first (.head _) n
      | cons second rest =>
        exact congrArg (Railroad.alternatives c) (branchFragments_shift d c m hbranches n)
  ofItems _ items hitems n := congrArg (Railroad.sequence c) (itemFragments_shift d c m hitems n none)

theorem Alternation.fragment_shift (a : Alternation) (n : Nat) :
    (a.shift d).fragment c m n = a.fragment c m n :=
  (treeClosed_fragment_shift d c m).alternation a n

end Positions

/-! ## Groups that are left out -/

/-- A group that captures nothing and occurs exactly once is drawn as what is in it. -/
theorem Alternation.fragment_wrapped {α : Type} [Scalar α] (c : Spacing α) (m : Measure α) (s : List Char)
    (content : Alternation) {quantifier : Option Quantifier}
    (honce : ∀ q ∈ quantifier, q.repetition.isOnce = true) (n : Nat) :
    (Alternation.wrapped s content quantifier).fragment c m n = content.fragment c m n := by
  cases quantifier with
  | none => rfl
  | some q =>
    have hq := honce q rfl
    show (if q.repetition.isOnce then content.fragment c m n else _) = _
    rw [if_pos hq]

/-! ## Wrappers -/

/-- A way to put a pattern into a group that shows nothing. -/
inductive Wrapper where
  | bare
  | once
  | onceLazy
  deriving DecidableEq, Repr

namespace Wrapper

/-- What stands behind the parenthesis that closes the group. -/
def suffix : Wrapper → List Char
  | bare => []
  | once => "\x7b1\x7d".toList
  | onceLazy => "\x7b1,1\x7d?".toList

/-- The quantifier of the group, if it has one. -/
def quantifier : Wrapper → Option Quantifier
  | bare => none
  | once => some ⟨⟨1, some 1, true⟩, once.suffix⟩
  | onceLazy => some ⟨⟨1, some 1, false⟩, onceLazy.suffix⟩

/-- The pattern in the group. -/
def wrap (w : Wrapper) (pattern : List Char) : List Char := "(?:".toList ++ pattern ++ [')'] ++ w.suffix

theorem read?_suffix (w : Wrapper) : Quantifier.read? w.suffix = w.quantifier := by
  cases w <;> decide

theorem quantifierChars_suffix (w : Wrapper) :
    quantifierChars (Quantifier.read? w.suffix) = w.suffix := by
  rw [read?_suffix]
  cases w <;> rfl

theorem isOnce_quantifier (w : Wrapper) : ∀ q ∈ w.quantifier, q.repetition.isOnce = true := by
  cases w <;> decide

/-- A pattern in a group begins with a parenthesis. -/
theorem not_inLiteralForm_wrap (w : Wrapper) (pattern : List Char) :
    ¬ InLiteralForm (w.wrap pattern) :=
  not_inLiteralForm_cons (by decide) _

end Wrapper

/-- **Non-capturing groups are invisible.** A pattern in which nothing is noted and that is not in literal
form, in one of the wrappers: nothing is noted in it either, its tree is one item, the group with the
tree of the pattern three bytes further on, and it is drawn as the pattern is, with every spacing and
every measure, as a document with any theme and as a text in both character sets. -/
theorem read_wrap [TerminalWidths] (w : Wrapper) {pattern : List Char}
    (hclean : (read pattern).isClean = true) (hpattern : ¬ InLiteralForm pattern) :
    (read (w.wrap pattern)).isClean = true ∧
      (read (w.wrap pattern)).root.alternation =
        .ofBranches 0 [.ofItems 0
          [(Node.group ⟨"(?:".toList ++ pattern ++ [')'], 0⟩ .nonCapturing
            ((read pattern).root.alternation.shift 3)).quantify w.quantifier]] ∧
      (∀ {α : Type} [Scalar α] (c : Spacing α) (m : Measure α),
        (read (w.wrap pattern)).root.drawing c m = (read pattern).root.drawing c m) ∧
      (∀ theme, svgDocument (w.wrap pattern) theme = svgDocument pattern theme) ∧
      ∀ set, textDiagram (w.wrap pattern) set = textDiagram pattern set := by
  have hwrap := w.not_inLiteralForm_wrap pattern
  have hnoted := clean_of_read hclean hpattern
  have hread : Alternation.ofText 0 (w.wrap pattern) =
      (.wrapped pattern ((read pattern).root.alternation.shift 3) w.quantifier, []) := by
    rw [Wrapper.wrap, Alternation.ofText_wrapped hnoted w.quantifierChars_suffix, w.read?_suffix,
      alternation_of_not hpattern]
  have htree : (read (w.wrap pattern)).root.alternation =
      .wrapped pattern ((read pattern).root.alternation.shift 3) w.quantifier := by
    rw [alternation_of_not hwrap, hread]
  have hdrawing {α : Type} [Scalar α] (c : Spacing α) (m : Measure α) :
      (read (w.wrap pattern)).root.drawing c m = (read pattern).root.drawing c m := by
    rw [Root.drawing, Root.drawing, flags_of_not hwrap, flags_of_not hpattern, htree,
      Alternation.fragment_wrapped c m pattern _ w.isOnce_quantifier, Alternation.fragment_shift]
  refine ⟨?_, htree, hdrawing, ?_, ?_⟩
  · rw [Outcome.isClean, anomalies_of_not hwrap, hread]
    rfl
  · intro theme
    rw [svgDocument, svgDocument, picture, picture, Svg.Surface.depictRoot, Svg.Surface.depictRoot,
      hdrawing]
  · intro set
    rw [textDiagram, textDiagram, hdrawing]

/-- A pattern with a quantifier of its own and a bar, in a group that occurs once. -/
theorem read_wrap_bar :
    (read "a*|b".toList).isClean = true ∧ ¬ InLiteralForm "a*|b".toList ∧
      (read "(?:a*|b)\x7b1,1\x7d?".toList).isClean = true ∧
      (∀ set, textDiagram "(?:a*|b)\x7b1,1\x7d?".toList set = textDiagram "a*|b".toList set) := by
  have hclean : (read "a*|b".toList).isClean = true := by decide +kernel
  have hpattern : ¬ InLiteralForm "a*|b".toList := by decide +kernel
  obtain ⟨hwrapped, -, -, -, htext⟩ := read_wrap .onceLazy hclean hpattern
  exact ⟨hclean, hpattern, hwrapped, htext⟩

end Pattern

end RegexDiagram
