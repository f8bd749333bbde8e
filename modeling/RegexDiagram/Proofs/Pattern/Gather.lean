import RegexDiagram.Proofs.Pattern.Nested

/-!
# What the nodes of a tree give

A list gathered from every node of a tree, in the order of its views, and the same list for a tree
that is not finished: `Nesting.gather` goes over the innermost alternation and the ones around it.
What a piece of the pattern adds to it is said once for each effect, up to the order, which changes
when a group is closed.

Alternations and quantifiers give nothing here. What a sequence gives may depend on its items, so a
new item can change it; how, is a hypothesis of the lemmas.
-/

namespace RegexDiagram.Pattern

variable {β : Type} {f : View → List β}

/-- Nothing is gathered from alternations, quantifiers and empty sequences. -/
structure Gathers (f : View → List β) : Prop where
  alternation : ∀ a, f (.alternation a) = []
  quantified : ∀ span atom repetition, f (.node (.quantified span atom repetition)) = []
  empty : ∀ span, f (.sequence ⟨span, []⟩) = []

/-- What the nodes of an alternation give as far as it is read. -/
def Level.gather (f : View → List β) (l : Level) : List β := l.alternation.views.flatMap f

/-- What all nodes that are read give. Open groups are not among them, but what they contain is. -/
def Nesting.gather (f : View → List β) (n : Nesting) : List β :=
  n.level.gather f ++ n.groups.flatMap (·.outside.gather f)

/-- A quantifier gives nothing. -/
theorem Gathers.quantify (h : Gathers f) (node : Node) (quantifier : Option Quantifier) :
    (node.quantify quantifier).views.flatMap f = node.views.flatMap f := by
  cases quantifier with
  | none => rfl
  | some q =>
    rw [Node.quantify, Node.views, List.flatMap_cons, h.quantified]
    rfl

/-- A group gives what it is and what its content gives. -/
theorem OpenGroup.close_gather (g : OpenGroup) (content : Level) (ending : List Char) :
    (g.close content ending).views.flatMap f =
      f (.node (g.close content ending)) ++ content.gather f := by
  show (Node.group _ _ _).views.flatMap f = _
  rw [Node.views, List.flatMap_cons]
  rfl

namespace Level

theorem gather_eq (h : Gathers f) (l : Level) :
    l.gather f = (l.branches.reverse.flatMap Sequence.views).flatMap f ++
      (f (.sequence l.branch) ++ (l.items.reverse.flatMap Node.views).flatMap f) := by
  rw [gather, Alternation.views_eq, alternation_branches, List.flatMap_cons, h.alternation,
    List.nil_append, List.flatMap_append, List.flatMap_append, List.flatMap_singleton,
    Sequence.views_eq, List.flatMap_cons]
  rfl

theorem gather_opened (h : Gathers f) (offset : Nat) : (opened offset).gather f = [] := by
  have hempty : f (.sequence (opened offset).branch) = [] := h.empty _
  rw [gather_eq h, hempty]
  rfl

theorem gather_nextBranch (h : Gathers f) (l : Level) (offset : Nat) :
    (l.nextBranch offset).gather f = l.gather f := by
  have hempty : f (.sequence (l.nextBranch offset).branch) = [] := h.empty _
  rw [gather_eq h, gather_eq h, hempty, nextBranch, List.reverse_cons, List.flatMap_append,
    List.flatMap_append, List.flatMap_singleton, Sequence.views_eq, List.flatMap_cons,
    List.append_assoc]
  simp only [List.reverse_nil, List.flatMap_nil, List.append_nil]
  rfl

variable [DecidableEq β]

/-- A new item gives what its nodes give, and what it changes for its branch. -/
theorem gather_add (h : Gathers f) (l : Level) {node : Node} {extra : List β}
    (branch : (f (.sequence (l.add node).branch)).Perm (f (.sequence l.branch) ++ extra)) :
    ((l.add node).gather f).Perm (l.gather f ++ (extra ++ node.views.flatMap f)) := by
  have hitems : (l.add node).items.reverse = l.items.reverse ++ [node] := List.reverse_cons
  have hbranches : (l.add node).branches = l.branches := rfl
  rw [gather_eq h, gather_eq h, hitems, hbranches, List.flatMap_append, List.flatMap_append,
    List.flatMap_singleton]
  rw [List.perm_iff_count] at branch ⊢
  intro b
  have hb := branch b
  simp only [List.count_append] at hb ⊢
  omega

end Level

namespace Nesting

theorem gather_start (h : Gathers f) (offset : Nat) : (Nesting.start offset).gather f = [] := by
  rw [gather, start, Level.gather_opened h]
  rfl

/-- A bar adds nothing. -/
theorem gather_bar (h : Gathers f) (n : Nesting) (offset : Nat) (anomalies : List Anomaly) :
    gather f ⟨n.level.nextBranch offset, n.groups, anomalies⟩ = n.gather f := by
  rw [gather, gather, Level.gather_nextBranch h]

/-- Opening a group adds nothing: the alternation that was the innermost one is now around it. -/
theorem gather_opening (h : Gathers f) (n : Nesting) (offset : Nat) (kind : GroupKind) (span : Span)
    (anomalies : List Anomaly) :
    gather f ⟨.opened offset, ⟨kind, span, n.level⟩ :: n.groups, anomalies⟩ = n.gather f := by
  rw [gather, gather, Level.gather_opened h, List.nil_append, List.flatMap_cons]

variable [DecidableEq β]

/-- An item adds what its nodes give, and what it changes for its branch. -/
theorem gather_add (h : Gathers f) (n : Nesting) {node : Node} {quantifier : Option Quantifier}
    {extra : List β} (branch : (f (.sequence (n.level.add (node.quantify quantifier)).branch)).Perm
      (f (.sequence n.level.branch) ++ extra)) (anomalies : List Anomaly) :
    (gather f ⟨n.level.add (node.quantify quantifier), n.groups, anomalies⟩).Perm
      (n.gather f ++ (extra ++ node.views.flatMap f)) := by
  have hadd := n.level.gather_add h branch
  rw [h.quantify] at hadd
  rw [List.perm_iff_count] at hadd ⊢
  intro b
  have hb := hadd b
  simp only [gather, List.count_append] at hb ⊢
  omega

/-- Closing a group adds what the group is, and what it changes for the branch it stands in. -/
theorem gather_close (h : Gathers f) {n : Nesting} {g : OpenGroup} {more : List OpenGroup}
    (groups : n.groups = g :: more) {ending : List Char} {quantifier : Option Quantifier}
    {extra : List β}
    (branch : (f (.sequence (g.outside.add ((g.close n.level ending).quantify quantifier)).branch)).Perm
      (f (.sequence g.outside.branch) ++ extra)) (anomalies : List Anomaly) :
    (gather f ⟨g.outside.add ((g.close n.level ending).quantify quantifier), more, anomalies⟩).Perm
      (n.gather f ++ (extra ++ f (.node (g.close n.level ending)))) := by
  have hadd := g.outside.gather_add h branch
  rw [h.quantify, OpenGroup.close_gather] at hadd
  rw [List.perm_iff_count] at hadd ⊢
  intro b
  have hb := hadd b
  simp only [gather, groups, List.flatMap_cons, List.count_append] at hb ⊢
  omega

end Nesting

end RegexDiagram.Pattern
