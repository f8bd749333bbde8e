import RegexDiagram.Pattern.Escape
import RegexDiagram.Pattern.Repetition
import RegexDiagram.Text.Quoted

/-!
# Syntax trees

One type of node for each construct of a pattern. Every node keeps the characters it was read from
and the byte position of the first of them in the whole input, the leading slash of a pattern in
literal form included.

The trees are those that the reader builds. Each bound of a range in a class is a character or an
escape, never a range again. An escape keeps what it stands for: its label and the number of its
character follow from that and cannot be chosen freely.
-/

namespace RegexDiagram.Pattern

/-- A piece of the input: its characters and where it starts. -/
structure Span where
  text : List Char
  offset : Nat
  deriving DecidableEq, Repr

/-- The byte position behind the piece. -/
def Span.stop (s : Span) : Nat := s.offset + byteLength s.text

/-- How a group captures. -/
inductive GroupKind where
  | nonCapturing
  | capturing
  | named (name : List Char)
  | lookahead (negative : Bool)
  | lookbehind (negative : Bool)
  deriving DecidableEq, Repr

namespace GroupKind

/-- Capturing groups are numbered. -/
def isCapturing : GroupKind → Bool
  | .capturing | .named _ => true
  | _ => false

/-- The kind as listings write it. -/
def description : GroupKind → List Char
  | .nonCapturing => "NonCapturing".toList
  | .capturing => "Capturing".toList
  | .named name => "Named(".toList ++ quoted name ++ [')']
  | .lookahead negative => "Lookahead ".toList ++ polarity negative
  | .lookbehind negative => "Lookbehind ".toList ++ polarity negative
where
  /-- The polarity of a look around, as a field. -/
  polarity (negative : Bool) : List Char :=
    (if negative then "\x7b negative: true \x7d" else "\x7b negative: false \x7d").toList

end GroupKind

inductive Edge where
  | start
  | finish
  deriving DecidableEq, Repr

/-- A single character or an escape in a character class. -/
inductive ClassAtom where
  | literal (span : Span) (value : List Char)
  | escape (span : Span) (meaning : Meaning)
  deriving DecidableEq, Repr

def ClassAtom.span : ClassAtom → Span
  | .literal span _ | .escape span _ => span

inductive Member where
  | single (atom : ClassAtom)
  | range (span : Span) (first last : ClassAtom)
  deriving DecidableEq, Repr

def Member.span : Member → Span
  | .single atom => atom.span
  | .range span .. => span

mutual

/-- An item of a sequence. -/
inductive Node where
  /-- A node and the quantifier behind it. -/
  | quantified (span : Span) (atom : Node) (repetition : Repetition)
  /-- A character that stands for itself. -/
  | literal (span : Span) (value : List Char)
  | escape (span : Span) (meaning : Meaning)
  | charset (span : Span) (negated : Bool) (members : List Member)
  | anchor (span : Span) (edge : Edge)
  | wildcard (span : Span)
  | group (span : Span) (kind : GroupKind) (content : Alternation)

/-- Branches between bars; there is at least one in every tree that is read. -/
structure Alternation where
  span : Span
  branches : List Sequence

/-- Nodes matched one after the other, possibly none. -/
structure Sequence where
  span : Span
  items : List Node

end

def Node.span : Node → Span
  | .quantified span .. | .literal span _ | .escape span _ | .charset span .. | .anchor span _
  | .wildcard span | .group span .. => span

/-- A whole pattern. The flags are the letters behind the closing slash of the literal form. -/
structure Root where
  span : Span
  flags : List Char
  alternation : Alternation

/-- A sequence whose text is what its items were read from. -/
def Sequence.ofItems (offset : Nat) (items : List Node) : Sequence :=
  ⟨⟨items.flatMap (·.span.text), offset⟩, items⟩

/-- An alternation whose text is that of its branches with bars between them. -/
def Alternation.ofBranches (offset : Nat) (branches : List Sequence) : Alternation :=
  ⟨⟨joinWith ['|'] (branches.map (·.span.text)), offset⟩, branches⟩

end RegexDiagram.Pattern
