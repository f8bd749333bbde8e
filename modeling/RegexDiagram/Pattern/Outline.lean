import RegexDiagram.Pattern.Outcome
import RegexDiagram.Pattern.View

/-!
# Outlines

A listing of a tree, one line for each node, indented by its depth. An alternation with a single
branch has no line of its own. The anomalies follow the tree.
-/

namespace RegexDiagram.Pattern

structure OutlineLine where
  depth : Nat
  content : List Char

namespace OutlineLine

/-- The line with its indentation. -/
def text (l : OutlineLine) : List Char := List.replicate (2 * l.depth) ' ' ++ l.content

/-- The line of a node: a name, the characters of the node between quotes, and its position. -/
def ofSpan (depth : Nat) (name : List Char) (span : Span) : OutlineLine :=
  ⟨depth, name ++ [' '] ++ quoted span.text ++ [' ', '@'] ++ decimal span.offset⟩

def escapeName (meaning : Meaning) : List Char := "escape (".toList ++ meaning.label ++ [')']

/-- The line of a single class member. -/
def ofAtom (depth : Nat) (atom : ClassAtom) : OutlineLine :=
  match atom with
  | .literal span _ => ofSpan depth NodeKind.literal.title.toList span
  | .escape span meaning => ofSpan depth (escapeName meaning) span

end OutlineLine

/-- The lines of a class member; the ends of a range are listed below it. -/
def Member.outline (depth : Nat) : Member → List OutlineLine
  | .single atom => [.ofAtom depth atom]
  | .range span first last =>
    [.ofSpan depth NodeKind.charsetRange.title.toList span, .ofAtom (depth + 1) first,
      .ofAtom (depth + 1) last]

mutual

/-- The lines of a node and of the nodes below it. -/
def Node.outline (depth : Nat) : Node → List OutlineLine
  | .quantified span atom repetition =>
    .ofSpan depth ("repeat ".toList ++ repetition.text) span :: atom.outline (depth + 1)
  | .escape span meaning => [.ofSpan depth (OutlineLine.escapeName meaning) span]
  | .charset span negated members =>
    .ofSpan depth (if negated then "charset (inverted)" else "charset").toList span ::
      members.flatMap (Member.outline (depth + 1))
  | .group span kind content =>
    .ofSpan depth ("group (".toList ++ kind.description ++ [')']) span ::
      content.outline (depth + 1)
  | .literal span _ => [.ofSpan depth NodeKind.literal.title.toList span]
  | .anchor span _ => [.ofSpan depth NodeKind.anchor.title.toList span]
  | .wildcard span => [.ofSpan depth NodeKind.wildcard.title.toList span]

/-- The lines of an alternation. A single branch stands in its place. -/
def Alternation.outline (depth : Nat) : Alternation → List OutlineLine
  | ⟨_, [branch]⟩ => branch.outline depth
  | ⟨span, branches⟩ =>
    .ofSpan depth NodeKind.alternation.title.toList span :: branchOutlines (depth + 1) branches

def Sequence.outline (depth : Nat) : Sequence → List OutlineLine
  | ⟨span, items⟩ =>
    .ofSpan depth NodeKind.sequence.title.toList span :: itemOutlines (depth + 1) items

def branchOutlines (depth : Nat) : List Sequence → List OutlineLine
  | [] => []
  | branch :: rest => branch.outline depth ++ branchOutlines depth rest

def itemOutlines (depth : Nat) : List Node → List OutlineLine
  | [] => []
  | item :: rest => item.outline depth ++ itemOutlines depth rest

end

def Root.outline (r : Root) : List OutlineLine :=
  [⟨0, "root ".toList ++ quoted r.span.text⟩] ++
    (if r.flags = [] then [] else [⟨1, "flags ".toList ++ quoted r.flags⟩]) ++
    r.alternation.outline 1

/-- The lines of a pattern as read: the tree and then a warning for each anomaly. -/
def Outcome.outlineLines (o : Outcome) : List OutlineLine :=
  o.root.outline ++ o.anomalies.map fun a => ⟨0, "warning: ".toList ++ a.message.toList⟩

/-- The listing of a pattern as read. -/
def Outcome.outline (o : Outcome) : List Char :=
  o.outlineLines.flatMap fun line => line.text ++ ['\n']

end RegexDiagram.Pattern
