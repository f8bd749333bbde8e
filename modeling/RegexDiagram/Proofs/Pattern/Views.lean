import RegexDiagram.Pattern.View

/-!
# Induction over trees

The three types of a syntax tree contain one another through lists, so a proof over all of a tree
has five recursive parts. `TreeClosed` names what each construct has to give, and
`TreeClosed.node`, `TreeClosed.alternation` and `TreeClosed.sequence` carry it to every tree: the
recursion is done once, here.

The views of a tree are stated with `List.flatMap` in place of the walks over lists.
-/

namespace RegexDiagram.Pattern

/-! ## Views as lists of lists -/

theorem branchViews_eq (branches : List Sequence) :
    branchViews branches = branches.flatMap Sequence.views := by
  induction branches with
  | nil => rfl
  | cons branch rest ih => rw [branchViews, ih, List.flatMap_cons]

theorem itemViews_eq (items : List Node) : itemViews items = items.flatMap Node.views := by
  induction items with
  | nil => rfl
  | cons item rest ih => rw [itemViews, ih, List.flatMap_cons]

/-- An alternation comes before its branches. -/
theorem Alternation.views_eq (a : Alternation) :
    a.views = .alternation a :: a.branches.flatMap Sequence.views := by
  cases a with
  | mk span branches => rw [Alternation.views, branchViews_eq]

/-- A sequence comes before its items. -/
theorem Sequence.views_eq (s : Sequence) :
    s.views = .sequence s :: s.items.flatMap Node.views := by
  cases s with
  | mk span items => rw [Sequence.views, itemViews_eq]

/-- What is in a branch is in the alternation. -/
theorem branch_subset_views (span : Span) {branches : List Sequence} {b : Sequence} (hb : b ∈ branches) :
    b.views ⊆ Alternation.views ⟨span, branches⟩ := fun v hv => by
  rw [Alternation.views_eq]
  exact .tail _ (List.mem_flatMap.2 ⟨b, hb, hv⟩)

/-- What is in an item is in the sequence. -/
theorem item_subset_views (span : Span) {items : List Node} {i : Node} (hi : i ∈ items) :
    i.views ⊆ Sequence.views ⟨span, items⟩ := fun v hv => by
  rw [Sequence.views_eq]
  exact .tail _ (List.mem_flatMap.2 ⟨i, hi, hv⟩)

/-- Every alternation among the views has a branch. -/
def Branched (views : List View) : Prop := ∀ a, View.alternation a ∈ views → a.branches ≠ []

/-! ## Induction -/

variable {P : Node → Prop} {Q : Alternation → Prop} {R : Sequence → Prop}

/-- Three properties that every construct passes on from its parts to itself. -/
structure TreeClosed (P : Node → Prop) (Q : Alternation → Prop) (R : Sequence → Prop) : Prop where
  literal : ∀ span value, P (.literal span value)
  escape : ∀ span meaning, P (.escape span meaning)
  charset : ∀ span negated members, P (.charset span negated members)
  anchor : ∀ span edge, P (.anchor span edge)
  wildcard : ∀ span, P (.wildcard span)
  quantified : ∀ span atom repetition, P atom → P (.quantified span atom repetition)
  group : ∀ span kind content, Q content → P (.group span kind content)
  ofBranches : ∀ span branches, (∀ b ∈ branches, R b) → Q ⟨span, branches⟩
  ofItems : ∀ span items, (∀ i ∈ items, P i) → R ⟨span, items⟩

namespace TreeClosed

mutual

theorem node (h : TreeClosed P Q R) : ∀ n, P n
  | .literal span value => h.literal span value
  | .escape span meaning => h.escape span meaning
  | .charset span negated members => h.charset span negated members
  | .anchor span edge => h.anchor span edge
  | .wildcard span => h.wildcard span
  | .quantified span atom repetition => h.quantified span atom repetition (h.node atom)
  | .group span kind content => h.group span kind content (h.alternation content)

theorem alternation (h : TreeClosed P Q R) : ∀ a, Q a
  | ⟨span, branches⟩ => h.ofBranches span branches (h.branches branches)

theorem sequence (h : TreeClosed P Q R) : ∀ s, R s
  | ⟨span, items⟩ => h.ofItems span items (h.items items)

theorem branches (h : TreeClosed P Q R) : ∀ bs : List Sequence, ∀ b ∈ bs, R b
  | [] => fun _ hb => absurd hb List.not_mem_nil
  | first :: rest => List.forall_mem_cons.2 ⟨h.sequence first, h.branches rest⟩

theorem items (h : TreeClosed P Q R) : ∀ ns : List Node, ∀ n ∈ ns, P n
  | [] => fun _ hn => absurd hn List.not_mem_nil
  | first :: rest => List.forall_mem_cons.2 ⟨h.node first, h.items rest⟩

end

end TreeClosed

end RegexDiagram.Pattern
