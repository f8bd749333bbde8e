import RegexDiagram.Json
import RegexDiagram.Pattern.Outcome

/-!
# Trees as data

The tree of a pattern and its anomalies as a JSON value, for other programs to read.
-/

namespace RegexDiagram.Pattern

/-- The fields every node has. -/
def Span.fields (s : Span) : List (String × Json) :=
  [("text", .text s.text), ("offset", .number s.offset)]

/-- The fields of a node that is one of several types. -/
def typedFields (type : String) (s : Span) : List (String × Json) :=
  ("type", .text type.toList) :: s.fields

/-- The bounds of a repetition. -/
def Repetition.record (r : Repetition) : Json :=
  .object
    [("min", .number r.min), ("max", (r.max.map Json.number).getD .null),
      ("greedy", .boolean r.greedy)]

def GroupKind.record : GroupKind → Json
  | .nonCapturing => .text "non_capturing".toList
  | .capturing => .text "capturing".toList
  | .named name => .object [("named", .text name)]
  | .lookahead negative => .object [("lookahead", .object [("negative", .boolean negative)])]
  | .lookbehind negative => .object [("lookbehind", .object [("negative", .boolean negative)])]

def literalRecord (span : Span) (value : List Char) : Json :=
  .object (typedFields "literal" span ++ [("value", .text value)])

def escapeRecord (span : Span) (meaning : Meaning) : Json :=
  .object (typedFields "escape" span ++
    [("label", .text meaning.label), ("ordinal", (meaning.ordinal.map Json.number).getD .null)])

def ClassAtom.record : ClassAtom → Json
  | .literal span value => literalRecord span value
  | .escape span meaning => escapeRecord span meaning

def Member.record : Member → Json
  | .single atom => atom.record
  | .range span first last =>
    .object (typedFields "range" span ++ [("first", first.record), ("last", last.record)])

def Edge.name : Edge → String
  | .start => "start"
  | .finish => "end"

mutual

def Node.record : Node → Json
  | .quantified span atom repetition =>
    .object (typedFields "quantified" span ++
      [("atom", atom.record), ("repeat", repetition.record)])
  | .literal span value => literalRecord span value
  | .escape span meaning => escapeRecord span meaning
  | .charset span negated members =>
    .object (typedFields "charset" span ++
      [("invert", .boolean negated), ("items", .array (members.map Member.record))])
  | .anchor span edge =>
    .object (typedFields "anchor" span ++ [("kind", .text edge.name.toList)])
  | .wildcard span => .object (typedFields "wildcard" span)
  | .group span kind content =>
    .object (typedFields "group" span ++
      [("kind", kind.record), ("alternation", content.record)])

def Alternation.record : Alternation → Json
  | ⟨span, branches⟩ => .object (span.fields ++ [("branches", .array (branchRecords branches))])

def Sequence.record : Sequence → Json
  | ⟨span, items⟩ => .object (span.fields ++ [("items", .array (itemRecords items))])

def branchRecords : List Sequence → List Json
  | [] => []
  | branch :: rest => branch.record :: branchRecords rest

def itemRecords : List Node → List Json
  | [] => []
  | item :: rest => item.record :: itemRecords rest

end

def Root.record (r : Root) : Json :=
  .object (r.span.fields ++ [("flags", .text r.flags), ("alternation", r.alternation.record)])

def Anomaly.Kind.record : Anomaly.Kind → Json
  | .unterminatedGroup => .text "unterminated_group".toList
  | .unterminatedCharset => .text "unterminated_charset".toList
  | .unmatchedParen => .text "unmatched_paren".toList
  | .malformedQuantifier => .text "malformed_quantifier".toList
  | .nothingToRepeat => .text "nothing_to_repeat".toList
  | .unknownEscape c => .object [("unknown_escape", .text [c])]
  | .incompleteEscape c => .object [("incomplete_escape", .text [c])]
  | .trailingBackslash => .text "trailing_backslash".toList
  | .unterminatedGroupName => .text "unterminated_group_name".toList

def Anomaly.record (a : Anomaly) : Json :=
  .object [("offset", .number a.offset), ("kind", a.kind.record)]

def Outcome.record (o : Outcome) : Json :=
  .object
    [("root", o.root.record), ("anomalies", .array (o.anomalies.map Anomaly.record))]

end RegexDiagram.Pattern
