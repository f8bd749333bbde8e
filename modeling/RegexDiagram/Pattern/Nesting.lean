import RegexDiagram.Pattern.Token

/-!
# Nesting

The tree of a list of tokens. The tokens are taken one by one, and the groups that are open at the
moment form a stack. A closing parenthesis ends the innermost group, or stands for itself where
there is none; the groups that are open at the end are closed there, the innermost first.
-/

namespace RegexDiagram.Pattern

/-- An alternation that is being read: its finished branches and the items of the current one, the
last first in both. -/
structure Level where
  start : Nat
  branches : List Sequence
  branchStart : Nat
  items : List Node

namespace Level

/-- An alternation of which nothing is read yet. -/
def opened (offset : Nat) : Level := ⟨offset, [], offset, []⟩

def add (l : Level) (node : Node) : Level := { l with items := node :: l.items }

def branch (l : Level) : Sequence := .ofItems l.branchStart l.items.reverse

/-- The current branch ends, and the next one starts at the given byte position. -/
def nextBranch (l : Level) (offset : Nat) : Level :=
  ⟨l.start, l.branch :: l.branches, offset, []⟩

/-- The alternation as far as it is read. -/
def alternation (l : Level) : Alternation := .ofBranches l.start (l.branch :: l.branches).reverse

end Level

/-- A group that is open: its kind, the characters that opened it, and the alternation it stands
in. -/
structure OpenGroup where
  kind : GroupKind
  span : Span
  outside : Level

/-- The group with its content, ended by the given characters, in the alternation around it. -/
def OpenGroup.close (g : OpenGroup) (content : Level) (ending : List Char) : Node :=
  let alternation := content.alternation
  .group ⟨g.span.text ++ alternation.span.text ++ ending, g.span.offset⟩ g.kind alternation

/-- A node under its quantifier, if it has one. -/
def Node.quantify (node : Node) : Option Quantifier → Node
  | none => node
  | some q => .quantified ⟨node.span.text ++ q.text, node.span.offset⟩ node q.repetition

/-- What is read so far: the innermost alternation, the groups around it from the inside out, and
the anomalies in the order in which they were met. -/
structure Nesting where
  level : Level
  groups : List OpenGroup
  anomalies : List Anomaly

namespace Nesting

def start (offset : Nat) : Nesting := ⟨.opened offset, [], []⟩

def step (n : Nesting) (t : Token) : Nesting :=
  match t.role with
  | .bar => { n with level := n.level.nextBranch t.span.stop, anomalies := n.anomalies ++ t.anomalies }
  | .opening kind =>
    { level := .opened t.span.stop
      groups := ⟨kind, t.span, n.level⟩ :: n.groups
      anomalies := n.anomalies ++ t.anomalies }
  | .closing =>
    match n.groups with
    | group :: groups =>
      let node := group.close n.level t.span.text
      { level := group.outside.add (node.quantify t.quantifier)
        groups
        anomalies := n.anomalies ++ t.anomalies }
    | [] =>
      -- no group is open: the parenthesis stands for itself
      let node := Node.literal t.span t.span.text
      { n with
        level := n.level.add (node.quantify t.quantifier)
        anomalies := n.anomalies ++ [⟨t.span.offset, .unmatchedParen⟩] ++ t.anomalies }
  | .atom node =>
    { n with
      level := n.level.add (node.quantify t.quantifier)
      anomalies := n.anomalies ++ t.anomalies }

/-- The whole alternation once the groups around a level are ended without a parenthesis, and an
anomaly for each of them. -/
def closeAll (level : Level) : List OpenGroup → Alternation × List Anomaly
  | [] => (level.alternation, [])
  | group :: groups =>
    let (alternation, noted) := closeAll (group.outside.add (group.close level [])) groups
    (alternation, ⟨group.span.offset, .unterminatedGroup⟩ :: noted)

/-- The alternation read so far and all its anomalies, where the text ends here. -/
def finish (n : Nesting) : Alternation × List Anomaly :=
  let (alternation, noted) := closeAll n.level n.groups
  (alternation, n.anomalies ++ noted)

end Nesting

/-- The alternation that a list of tokens starting at the byte position `offset` forms, and the
anomalies in it. -/
def Alternation.ofTokens (offset : Nat) (tokens : List Token) : Alternation × List Anomaly :=
  (tokens.foldl Nesting.step (.start offset)).finish

/-- The alternation that a text starting at the byte position `offset` stands for, and the anomalies
in it. -/
def Alternation.ofText (offset : Nat) (s : List Char) : Alternation × List Anomaly :=
  ofTokens offset (Token.ofText offset s)

end RegexDiagram.Pattern
