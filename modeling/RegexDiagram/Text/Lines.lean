/-!
# Lines and runs

Cutting a text into lines and at single characters. A line ends at a line feed.
-/

namespace RegexDiagram

/-- The text before the first `stop`, or nothing if there is none. -/
def before? (stop : Char) : List Char → Option (List Char)
  | [] => none
  | c :: rest => if c = stop then some [] else (before? stop rest).map (c :: ·)

/-- What `before?` finds stands in front of a `stop`. -/
theorem eq_append_of_before? {stop : Char} {s t : List Char} (h : before? stop s = some t) :
    ∃ r, s = t ++ stop :: r := by
  induction s generalizing t with
  | nil => cases h
  | cons c rest ih =>
    rw [before?] at h
    split at h
    · next hc => cases h; exact ⟨rest, by simp [hc]⟩
    · obtain ⟨u, hu, rfl⟩ := Option.map_eq_some_iff.1 h
      obtain ⟨r, rfl⟩ := ih hu
      exact ⟨r, rfl⟩

/-- The longest run of at most `n` characters at the front of the text that all satisfy `p`. -/
def leading (n : Nat) (p : Char → Bool) (s : List Char) : List Char := (s.take n).takeWhile p

/-- One more character in front of pieces that are already cut. -/
def consPiece (c : Char) (pieces : List (List Char)) : List (List Char) :=
  if c = '\n' then [] :: pieces
  else
    match pieces with
    | [] => [[c]]
    | piece :: more => (c :: piece) :: more

/-- The pieces between line feeds. A text without one is a single piece, and a line feed at the end
is followed by an empty piece. -/
def splitLines (s : List Char) : List (List Char) := s.foldr consPiece [[]]

/-- A line without the carriage return at its end. -/
def dropReturn (line : List Char) : List Char :=
  if line.getLast? = some '\r' then line.dropLast else line

/-- The lines of a text as a terminal shows them: a carriage return before a line feed belongs to
the line break, and a break at the end opens no further line. -/
def displayLines (s : List Char) : List (List Char) :=
  let pieces := splitLines s
  match pieces.getLast? with
  | none => []
  | some last =>
    pieces.dropLast.map dropReturn ++ (if last = [] then [] else [last])

/-- White space as Unicode defines it. -/
def isBlank (c : Char) : Bool :=
  let n := c.toNat
  (0x09 ≤ n && n ≤ 0x0D) || n == 0x20 || n == 0x85 || n == 0xA0 || n == 0x1680 ||
    (0x2000 ≤ n && n ≤ 0x200A) || n == 0x2028 || n == 0x2029 || n == 0x202F || n == 0x205F ||
    n == 0x3000

/-- The text without the white space at its end. -/
def trimEnd (s : List Char) : List Char := (s.reverse.dropWhile isBlank).reverse

/-- A control character: one of the ranges below the space and around U+0080. -/
def isControl (c : Char) : Bool :=
  let n := c.toNat
  n < 0x20 || (0x7F ≤ n && n ≤ 0x9F)

/-- Texts with a separator between neighbours. -/
def joinWith (separator : List Char) : List (List Char) → List Char
  | [] => []
  | [s] => s
  | s :: t :: rest => s ++ separator ++ joinWith separator (t :: rest)

end RegexDiagram
