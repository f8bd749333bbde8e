/-!
# Byte positions

A text is the list of its characters. A position in it is the number of bytes that the characters
before it take in UTF-8, so that positions of neighbouring pieces add up.
-/

namespace RegexDiagram

/-- The bytes a text takes in UTF-8. -/
def byteLength : List Char → Nat
  | [] => 0
  | c :: s => c.utf8Size + byteLength s

@[simp] theorem byteLength_nil : byteLength [] = 0 := rfl

@[simp] theorem byteLength_cons (c : Char) (s : List Char) :
    byteLength (c :: s) = c.utf8Size + byteLength s := rfl

@[simp] theorem byteLength_append (s t : List Char) :
    byteLength (s ++ t) = byteLength s + byteLength t := by
  induction s with
  | nil => simp
  | cons c s ih => simp [ih, Nat.add_assoc]

theorem byteLength_pos {s : List Char} (h : s ≠ []) : 0 < byteLength s := by
  cases s with
  | nil => exact absurd rfl h
  | cons c rest =>
    rw [byteLength_cons]
    exact Nat.lt_add_right _ c.utf8Size_pos

/-- The characters before a byte position, if the position lies between two characters of the text
or at one of its ends. -/
def beforeByte? : Nat → List Char → Option (List Char)
  | 0, _ => some []
  | _ + 1, [] => none
  | n + 1, c :: rest =>
    if c.utf8Size ≤ n + 1 then (beforeByte? (n + 1 - c.utf8Size) rest).map (c :: ·) else none

end RegexDiagram
