import RegexDiagram.Text.Bytes
import RegexDiagram.Text.Lines

/-!
# Slices

Pieces of a text by byte positions. A slice is there only if both of its ends are between two characters and
in order (`slice?_eq_some_iff`). Positions come from the characters themselves: each character is listed with
the position where it starts (`charIndices`), and so the first place of a character (`findByte?_eq`) and the end
of a run (`leadingSlice?_eq`) are positions that a slice can have.
-/

namespace RegexDiagram

/-! ## Ends -/

/-- The characters before a position between two characters. -/
theorem beforeByte?_append (before after : List Char) :
    beforeByte? (byteLength before) (before ++ after) = some before := by
  induction before with
  | nil => rw [byteLength_nil, List.nil_append, beforeByte?]
  | cons c rest ih =>
    obtain ⟨n, hn⟩ := Nat.exists_eq_add_one.2 (byteLength_pos (List.cons_ne_nil c rest))
    have hle : c.utf8Size ≤ n + 1 := by
      rw [← hn, byteLength_cons]
      exact Nat.le_add_right _ _
    rw [hn, List.cons_append, beforeByte?, if_pos hle, ← hn, byteLength_cons, Nat.add_sub_cancel_left, ih]
    rfl

/-- Nothing else has characters before it. -/
theorem eq_append_of_beforeByte? {n : Nat} {s before : List Char} (h : beforeByte? n s = some before) :
    ∃ after, s = before ++ after ∧ n = byteLength before := by
  fun_induction beforeByte? n s generalizing before with
  | case1 s => exact ⟨s, by cases h; exact ⟨rfl, rfl⟩⟩
  | case2 => cases h
  | case3 n c rest hle ih =>
    obtain ⟨front, hfront, rfl⟩ := Option.map_eq_some_iff.1 h
    obtain ⟨after, rfl, hbytes⟩ := ih hfront
    exact ⟨after, rfl, by rw [byteLength_cons, ← hbytes]; omega⟩
  | case4 => cases h

/-- The text between two byte positions, if both are between two characters or at an end, and in order. -/
def slice? (start stop : Nat) (s : List Char) : Option (List Char) := do
  let front ← beforeByte? stop s
  let before ← beforeByte? start front
  return front.drop before.length

theorem slice?_append (before t after : List Char) :
    slice? (byteLength before) (byteLength before + byteLength t) (before ++ t ++ after) = some t := by
  rw [slice?, ← byteLength_append, beforeByte?_append]
  simp only [Option.bind_eq_bind, Option.bind_some, beforeByte?_append, List.drop_left]
  rfl

/-- **A slice is cut between characters**: it is there exactly if the text is made of what is before it, the
slice and what is behind it, at these positions. -/
theorem slice?_eq_some_iff {start stop : Nat} {s t : List Char} :
    slice? start stop s = some t ↔
      ∃ before after, s = before ++ t ++ after ∧ start = byteLength before ∧ stop = start + byteLength t := by
  constructor
  · intro h
    obtain ⟨front, hfront, hrest⟩ := Option.bind_eq_some_iff.1 h
    obtain ⟨before, hbefore, hslice⟩ := Option.bind_eq_some_iff.1 hrest
    obtain ⟨after, rfl, rfl⟩ := eq_append_of_beforeByte? hfront
    obtain ⟨t', rfl, rfl⟩ := eq_append_of_beforeByte? hbefore
    rw [List.drop_left] at hslice
    obtain rfl := Option.some.inj hslice
    exact ⟨before, after, rfl, rfl, byteLength_append before t'⟩
  · rintro ⟨before, after, rfl, rfl, rfl⟩
    exact slice?_append before t after

/-- The text from a byte position on. -/
def sliceFrom? (start : Nat) (s : List Char) : Option (List Char) := slice? start (byteLength s) s

/-- The text up to a byte position. -/
def sliceTo? (stop : Nat) (s : List Char) : Option (List Char) := slice? 0 stop s

theorem sliceFrom?_append (before after : List Char) :
    sliceFrom? (byteLength before) (before ++ after) = some after := by
  have h := slice?_append before after []
  rwa [List.append_nil, ← byteLength_append] at h

theorem sliceTo?_append (before after : List Char) :
    sliceTo? (byteLength before) (before ++ after) = some before := by
  have h := slice?_append [] before after
  rwa [List.nil_append, byteLength_nil, Nat.zero_add] at h

/-! ## Positions of characters -/

/-- The characters of a text, each with the byte position where it starts. -/
def charIndices (pos : Nat) : List Char → List (Nat × Char)
  | [] => []
  | c :: rest => (pos, c) :: charIndices (pos + c.utf8Size) rest

/-- The byte position of the first `stop`. -/
def findByte? (stop : Char) (s : List Char) : Option Nat :=
  ((charIndices 0 s).find? (·.2 = stop)).map (·.1)

theorem find?_charIndices (stop : Char) (pos : Nat) (s : List Char) :
    ((charIndices pos s).find? (·.2 = stop)).map (·.1) =
      (before? stop s).map fun name => pos + byteLength name := by
  induction s generalizing pos with
  | nil => rfl
  | cons c rest ih =>
    rw [charIndices, before?, List.find?_cons]
    by_cases hc : c = stop
    · simp [hc]
    · simp only [hc, decide_false, if_false, ih, Option.map_map]
      refine congrArg (Option.map · _) (funext fun name => ?_)
      rw [Function.comp_apply, byteLength_cons, Nat.add_assoc]

/-- The first `stop` stands where the text in front of it ends. -/
theorem findByte?_eq (stop : Char) (s : List Char) : findByte? stop s = (before? stop s).map byteLength := by
  rw [findByte?, find?_charIndices]
  exact congrArg (Option.map · _) (funext fun name => Nat.zero_add _)

/-- The text up to the end of the longest run of at most `n` characters that all satisfy `p`. -/
def leadingSlice? (n : Nat) (p : Char → Bool) (s : List Char) : Option (List Char) :=
  let run := ((charIndices 0 s).take n).takeWhile fun entry => p entry.2
  sliceTo? ((run.map fun entry => entry.1 + entry.2.utf8Size).getLast?.getD 0) s

theorem take_charIndices (n pos : Nat) (s : List Char) :
    (charIndices pos s).take n = charIndices pos (s.take n) := by
  induction s generalizing n pos with
  | nil => rw [charIndices, List.take_nil, List.take_nil, charIndices]
  | cons c rest ih =>
    cases n with
    | zero => rfl
    | succ n => rw [charIndices, List.take_succ_cons, List.take_succ_cons, charIndices, ih]

theorem takeWhile_charIndices (p : Char → Bool) (pos : Nat) (s : List Char) :
    ((charIndices pos s).takeWhile fun entry => p entry.2) = charIndices pos (s.takeWhile p) := by
  induction s generalizing pos with
  | nil => rfl
  | cons c rest ih =>
    rw [charIndices, List.takeWhile_cons, List.takeWhile_cons, ih]
    split <;> rfl

/-- The last character ends where the text ends. -/
theorem getLast?_charIndices (pos : Nat) (s : List Char) :
    ((charIndices pos s).map fun entry => entry.1 + entry.2.utf8Size).getLast?.getD pos =
      pos + byteLength s := by
  induction s generalizing pos with
  | nil => rfl
  | cons c rest ih =>
    rw [charIndices, List.map_cons, List.getLast?_cons, Option.getD_some, ih, byteLength_cons, Nat.add_assoc]

/-- The end of a run is a position between two characters. -/
theorem leadingSlice?_eq (n : Nat) (p : Char → Bool) (s : List Char) :
    leadingSlice? n p s = some (leading n p s) := by
  obtain ⟨rest, hrest⟩ : leading n p s <+: s := (List.takeWhile_prefix p).trans (List.take_prefix n s)
  have hslice := sliceTo?_append (leading n p s) rest
  have hstop := getLast?_charIndices 0 (leading n p s)
  rw [Nat.zero_add] at hstop
  rw [leadingSlice?, take_charIndices, takeWhile_charIndices, ← leading, hstop]
  rwa [hrest] at hslice

end RegexDiagram
