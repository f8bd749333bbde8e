import RegexDiagram.Pattern.Nesting

/-!
# Reading a pattern

A pattern is the text itself, or what stands between the slashes of a text in literal form,
`/body/flags`. Reading it always gives a tree; `Outcome.strict` refuses the patterns in which
something had to be recovered.
-/

namespace RegexDiagram.Pattern

/-- A text in literal form, taken apart. -/
structure LiteralForm where
  body : List Char
  flags : List Char
  deriving DecidableEq, Repr

/-- The parts of a text in literal form: it begins with a slash, and behind the last of its other
slashes there are ASCII letters only. -/
def LiteralForm.read? : List Char → Option LiteralForm
  | '/' :: rest =>
    let backwards := rest.reverse
    let flags := (backwards.takeWhile (· ≠ '/')).reverse
    match backwards.dropWhile (· ≠ '/') with
    | _ :: body => if flags.all Char.isAlpha then some ⟨body.reverse, flags⟩ else none
    | [] => none
  | _ => none

/-- A pattern as read: its tree and the anomalies in the order in which they were met. -/
structure Outcome where
  root : Root
  anomalies : List Anomaly

/-- The tree of a pattern and what had to be recovered. -/
def read (input : List Char) : Outcome :=
  let (offset, body, flags) :=
    match LiteralForm.read? input with
    | some form => (1, form.body, form.flags)
    | none => (0, input, [])
  let (alternation, anomalies) := Alternation.ofText offset body
  ⟨⟨⟨input, 0⟩, flags, alternation⟩, anomalies⟩

namespace Outcome

def isClean (o : Outcome) : Bool := o.anomalies.isEmpty

/-- The tree, or the failure of the first anomaly. -/
def strict (o : Outcome) : Except Failure Root :=
  match o.anomalies with
  | [] => .ok o.root
  | anomaly :: _ => .error (anomaly.toFailure o.root.span.text)

end Outcome

end RegexDiagram.Pattern
