import RegexDiagram.Pattern.Token
import RegexDiagram.Proofs.Pattern.Classes

/-!
# What is read as an atom

`Token.AtomRead` has one case for each way an atom is read, with the node and what is noted. An escape
has two, for it is a literal where it has no name.
-/

namespace RegexDiagram.Pattern

/-- The first characters of atoms that are not literals. -/
def IsSpecial (c : Char) : Prop := c ∈ ['^', '$', '.', '[', '\\']

instance (c : Char) : Decidable (IsSpecial c) := by unfold IsSpecial; infer_instance

namespace Token

/-- The piece of the pattern that an escape outside a class takes. -/
def escapeSpan (offset : Nat) (rest : List Char) : Span :=
  ⟨'\\' :: rest.take (Escape.outside rest).length, offset⟩

/-- The ways to read an atom, by its first character: the node, and what is noted. -/
inductive AtomRead (offset : Nat) (rest : List Char) : Char → Node × List Anomaly → Prop
  | start : AtomRead offset rest '^' (.anchor ⟨['^'], offset⟩ .start, [])
  | finish : AtomRead offset rest '$' (.anchor ⟨['$'], offset⟩ .finish, [])
  | wildcard : AtomRead offset rest '.' (.wildcard ⟨['.'], offset⟩, [])
  | charset : AtomRead offset rest '[' (Node.readCharset offset rest)
  | escape (meaning : Meaning) : AtomRead offset rest '\\' (.escape (escapeSpan offset rest) meaning, [])
  | escaped (value : Char) :
    AtomRead offset rest '\\' (.literal (escapeSpan offset rest) [value],
      Escape.troubles Escape.troubleOutside (escapeSpan offset rest))
  | literal {c : Char} (special : ¬ IsSpecial c) :
    AtomRead offset rest c (.literal ⟨[c], offset⟩ [c],
      if c ∈ ['*', '+', '?'] ∨ (Bounds.braces? (c :: rest)).isSome then
        [⟨offset, .nothingToRepeat⟩] else [])

theorem readEscape_cases (offset : Nat) (rest : List Char) :
    AtomRead offset rest '\\' (readEscape offset rest) := by
  unfold readEscape
  simp only [(Escape.outside_judged rest).noted]
  cases (Escape.outside rest).shown with
  | named meaning => exact .escape meaning
  | plain value => exact .escaped value

/-- Every atom is read in one of the ways. -/
theorem readAtom_cases (offset : Nat) (c : Char) (rest : List Char) :
    AtomRead offset rest c (readAtom offset c rest) := by
  unfold readAtom
  simp only
  split
  next hc => exact hc ▸ .start
  split
  next hc => exact hc ▸ .finish
  split
  next hc => exact hc ▸ .wildcard
  split
  next hc => exact hc ▸ .charset
  split
  next hc => exact hc ▸ readEscape_cases offset rest
  next hstart hfinish hdot hbracket hbackslash =>
    have hspecial : ¬ IsSpecial c := by
      simp [IsSpecial, hstart, hfinish, hdot, hbracket, hbackslash]
    have hread := @AtomRead.literal offset rest c hspecial
    simpa only [Bool.or_eq_true, decide_eq_true_eq] using hread

end Token

end RegexDiagram.Pattern
