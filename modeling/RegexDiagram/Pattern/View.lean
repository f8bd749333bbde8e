import RegexDiagram.Pattern.Tree

/-!
# Views of a tree

Every node of a tree as one list: parents before children, children from left to right. A tree has
nodes of several types, and a view is any of them.
-/

namespace RegexDiagram.Pattern

inductive NodeKind where
  | root | alternation | sequence | quantifiedAtom | literal | escape | charsetEscape | charset
  | charsetRange | anchor | wildcard | group
  deriving DecidableEq, Repr

namespace NodeKind

def title : NodeKind → String
  | .root => "root"
  | .alternation => "alternation"
  | .sequence => "sequence"
  | .quantifiedAtom => "quantified atom"
  | .literal => "literal"
  | .escape => "escape"
  | .charsetEscape => "charset escape"
  | .charset => "charset"
  | .charsetRange => "charset range"
  | .anchor => "anchor"
  | .wildcard => "wildcard"
  | .group => "group"

/-- The kind as an identifier, with underscores for blanks. -/
def identifier (k : NodeKind) : String := k.title.map fun c => if c = ' ' then '_' else c

end NodeKind

def Node.kind : Node → NodeKind
  | .quantified .. => .quantifiedAtom
  | .literal .. => .literal
  | .escape .. => .escape
  | .charset .. => .charset
  | .anchor .. => .anchor
  | .wildcard .. => .wildcard
  | .group .. => .group

def Member.kind : Member → NodeKind
  | .single (.literal ..) => .literal
  | .single (.escape ..) => .charsetEscape
  | .range .. => .charsetRange

/-- Any node of a tree. -/
inductive View where
  | root (root : Root)
  | alternation (alternation : Alternation)
  | sequence (sequence : Sequence)
  | node (node : Node)
  | member (member : Member)

namespace View

def kind : View → NodeKind
  | .root _ => .root
  | .alternation _ => .alternation
  | .sequence _ => .sequence
  | .node n => n.kind
  | .member m => m.kind

def span : View → Span
  | .root r => r.span
  | .alternation a => a.span
  | .sequence s => s.span
  | .node n => n.span
  | .member m => m.span

end View

/-- A member and, below a range, its two ends. -/
def Member.views : Member → List View
  | .single atom => [.member (.single atom)]
  | .range span first last =>
    [.member (.range span first last), .member (.single first), .member (.single last)]

mutual

/-- A node and all nodes below it. -/
def Node.views : Node → List View
  | .quantified span atom repetition => .node (.quantified span atom repetition) :: atom.views
  | .charset span negated members =>
    .node (.charset span negated members) :: members.flatMap Member.views
  | .group span kind content => .node (.group span kind content) :: content.views
  | .literal span value => [.node (.literal span value)]
  | .escape span meaning => [.node (.escape span meaning)]
  | .anchor span edge => [.node (.anchor span edge)]
  | .wildcard span => [.node (.wildcard span)]

def Alternation.views : Alternation → List View
  | ⟨span, branches⟩ => .alternation ⟨span, branches⟩ :: branchViews branches

def Sequence.views : Sequence → List View
  | ⟨span, items⟩ => .sequence ⟨span, items⟩ :: itemViews items

def branchViews : List Sequence → List View
  | [] => []
  | branch :: rest => branch.views ++ branchViews rest

def itemViews : List Node → List View
  | [] => []
  | item :: rest => item.views ++ itemViews rest

end

/-- Every node of the tree, parents before children, from left to right. -/
def Root.descendants (r : Root) : List View := .root r :: r.alternation.views

end RegexDiagram.Pattern
