import RegexDiagram.Text.Numeral

/-!
# Repetitions

How often a piece of a pattern may occur, how a quantifier says so, and how the bounds are written
back in braces.
-/

namespace RegexDiagram.Pattern

/-- Bounds of a repetition. Without a greatest count it is unbounded. -/
structure Repetition where
  min : Nat
  max : Option Nat
  greedy : Bool
  deriving DecidableEq, Repr

namespace Repetition

/-- Exactly once, which shows nothing. -/
def isOnce (r : Repetition) : Bool := r.min == 1 && r.max == some 1

/-- The piece may be left out. -/
def canSkip (r : Repetition) : Bool := r.min == 0

/-- The piece may occur more than once. -/
def canRepeat (r : Repetition) : Bool :=
  match r.max with
  | none => true
  | some max => 1 < max

/-- The bounds as a quantifier in braces; equal bounds are written once. -/
def text (r : Repetition) : List Char :=
  let bounds :=
    match r.max with
    | none => decimal r.min ++ [',']
    | some max => if max = r.min then decimal r.min else decimal r.min ++ [','] ++ decimal max
  ['\x7b'] ++ bounds ++ ['\x7d'] ++ (if r.greedy then [] else ['?'])

/-- The greatest bound a quantifier may name: the greatest number of thirty-two bits. -/
def greatestBound : Nat := 4294967295

end Repetition

/-- Bounds as a quantifier gives them, before it is known whether it is greedy. -/
structure Bounds where
  min : Nat
  max : Option Nat
  deriving DecidableEq, Repr

namespace Bounds

/-- A bound in decimal digits, unless it is too large. -/
def bound? (digits : List Char) : Option Nat :=
  let n := numeralValue 10 digits
  if n ≤ Repetition.greatestBound then some n else none

/-- The digits of the least bound, and behind a comma those of the greatest one, if there are any. The text
is in this form as a whole: there is no blank anywhere, and the least bound is never left out. -/
def digits? : List Char → Option (List Char × Option (Option (List Char)))
  | '\x7b' :: body =>
    let low := body.takeWhile Char.isDigit
    if low = [] then none
    else
      match body.dropWhile Char.isDigit with
      | ['\x7d'] => some (low, none)
      | ',' :: more =>
        let high := more.takeWhile Char.isDigit
        match more.dropWhile Char.isDigit with
        | ['\x7d'] => some (low, some (if high = [] then none else some high))
        | _ => none
      | _ => none
  | _ => none

/-- The greatest bound, if there is one: without a comma it is the least one. -/
def greatest? (min : Nat) : Option (Option (List Char)) → Option (Option Nat)
  | none => some (some min)
  | some none => some none
  | some (some high) => (bound? high).map some

/-- The bounds that a candidate in braces asks for. They have to be in order. -/
def parse? (candidate : List Char) : Option Bounds := do
  let (low, rest) ← digits? candidate
  let min ← bound? low
  let max ← greatest? min rest
  if max.any (· < min) then none else some ⟨min, max⟩

/-- The quantifier in braces at the front of the text and its number of characters. The candidate ends with
the first closing brace. -/
def braces? (s : List Char) : Option (Bounds × Nat) := do
  let close ← s.idxOf? '\x7d'
  -- nothing behind this brace is looked at, and nothing in front of it may be left over
  let bounds ← parse? (s.take (close + 1))
  return (bounds, close + 1)

/-- The bounds that the front of the text asks for and the number of characters they take, the
question mark of a lazy quantifier not included. -/
def read? : List Char → Option (Bounds × Nat)
  | '*' :: _ => some (⟨0, none⟩, 1)
  | '+' :: _ => some (⟨1, none⟩, 1)
  | '?' :: _ => some (⟨0, some 1⟩, 1)
  | s => braces? s

end Bounds

/-- A quantifier as it stands in the pattern. -/
structure Quantifier where
  repetition : Repetition
  text : List Char
  deriving DecidableEq, Repr

/-- The quantifier at the front of the text. A question mark behind it makes it lazy. -/
def Quantifier.read? (s : List Char) : Option Quantifier :=
  (Bounds.read? s).map fun (bounds, length) =>
    let lazy := (s.drop length).head? == some '?'
    { repetition := ⟨bounds.min, bounds.max, !lazy⟩
      text := s.take (if lazy then length + 1 else length) }

/-- A quantifier is read from the front of the text. -/
theorem Quantifier.read?_text {s : List Char} {q : Quantifier} (h : Quantifier.read? s = some q) :
    q.text <+: s := by
  obtain ⟨b, _, rfl⟩ := Option.map_eq_some_iff.1 h
  exact List.take_prefix ..

end RegexDiagram.Pattern
