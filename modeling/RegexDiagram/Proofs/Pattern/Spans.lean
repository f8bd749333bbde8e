import RegexDiagram.Text.Lines
import RegexDiagram.Pattern.Tree

/-!
# Pieces of a text

What it means that pieces lie in a text and that they lie side by side. A piece carries its
characters and its byte position, so both are statements about the two together: `Span.Within` says
that the characters really stand at the position, and `Span.Chain` that each piece starts where the
one before it ends, with a gap of a fixed number of bytes.

Both are kept by cutting: a part of a piece in a text lies in the text (`Span.Within.part`).
-/

namespace RegexDiagram

/-- A separator of one character between the pieces, one more piece at the end. -/
theorem joinWith_snoc (separator : List Char) (pieces : List (List Char)) (last : List Char) :
    joinWith separator (pieces ++ [last]) =
      if pieces = [] then last else joinWith separator pieces ++ separator ++ last := by
  induction pieces with
  | nil => rfl
  | cons piece rest ih =>
    rw [if_neg (List.cons_ne_nil _ _)]
    cases rest with
    | nil => rfl
    | cons next more =>
      rw [if_neg (List.cons_ne_nil _ _)] at ih
      show piece ++ separator ++ joinWith separator (next :: more ++ [last]) = _
      rw [ih]
      simp only [joinWith, List.append_assoc]

namespace Pattern

namespace Span

/-- The characters of the piece stand in the text, at its byte position. -/
def Within (s : Span) (input : List Char) : Prop :=
  ∃ before after, input = before ++ s.text ++ after ∧ byteLength before = s.offset

/-- The whole text is a piece of itself. -/
theorem within_self (input : List Char) : Within ⟨input, 0⟩ input :=
  ⟨[], [], by simp, rfl⟩

/-- A part of a piece in a text lies in the text, if its position is right. -/
theorem Within.part {s t : Span} {input : List Char} (h : s.Within input) (left right : List Char)
    (text : s.text = left ++ t.text ++ right) (offset : t.offset = s.offset + byteLength left) :
    t.Within input := by
  obtain ⟨before, after, rfl, hb⟩ := h
  refine ⟨before ++ left, right ++ after, ?_, ?_⟩
  · rw [text]
    simp only [List.append_assoc]
  · rw [byteLength_append, hb, offset]

/-- Every piece starts `gap` bytes behind the one before it, and the first one at the given
position. -/
def Chain (gap : Nat) : Nat → List Span → Prop
  | _, [] => True
  | offset, s :: rest => s.offset = offset ∧ Chain gap (s.stop + gap) rest

/-- The position behind a chain of pieces and its last gap. -/
def behind (gap : Nat) : Nat → List Span → Nat
  | offset, [] => offset
  | _, s :: rest => behind gap (s.stop + gap) rest

theorem behind_append (gap : Nat) (first second : List Span) (offset : Nat) :
    behind gap offset (first ++ second) = behind gap (behind gap offset first) second := by
  induction first generalizing offset with
  | nil => rfl
  | cons s rest ih => exact ih _

theorem chain_append {gap : Nat} {first second : List Span} {offset : Nat} :
    Chain gap offset (first ++ second) ↔
      Chain gap offset first ∧ Chain gap (behind gap offset first) second := by
  induction first generalizing offset with
  | nil => simp only [List.nil_append, Chain, behind, true_and]
  | cons s rest ih => simp only [List.cons_append, Chain, behind, ih, and_assoc]

/-- One more piece at the end of a chain. -/
theorem chain_snoc {gap : Nat} {pieces : List Span} {last : Span} {offset : Nat} :
    Chain gap offset (pieces ++ [last]) ↔
      Chain gap offset pieces ∧ last.offset = behind gap offset pieces := by
  simp only [chain_append, Chain, and_true]

theorem behind_snoc (gap : Nat) (pieces : List Span) (last : Span) (offset : Nat) :
    behind gap offset (pieces ++ [last]) = last.stop + gap := by
  rw [behind_append]
  rfl

/-- Without gaps, a chain ends where its characters end. -/
theorem Chain.behind_eq {pieces : List Span} {offset : Nat} (h : Chain 0 offset pieces) :
    behind 0 offset pieces = offset + byteLength (pieces.flatMap (·.text)) := by
  induction pieces generalizing offset with
  | nil => rfl
  | cons s rest ih =>
    obtain ⟨rfl, hrest⟩ := h
    rw [behind, ih hrest, List.flatMap_cons, byteLength_append, stop]
    omega

/-- With a separator of one byte in the gaps, the characters end where the last piece ends. -/
theorem Chain.stop_eq (separator : Char) (hs : separator.utf8Size = 1) {pieces : List Span}
    {last : Span} {offset : Nat} (h : Chain 1 offset (pieces ++ [last])) :
    offset + byteLength (joinWith [separator] ((pieces ++ [last]).map (·.text))) = last.stop := by
  induction pieces generalizing offset with
  | nil =>
    obtain ⟨rfl, -⟩ := h
    rfl
  | cons s rest ih =>
    obtain ⟨rfl, hrest⟩ := h
    have hlast := ih hrest
    rw [List.cons_append, List.map_cons]
    cases hmore : (rest ++ [last]).map (·.text) with
    | nil => simp at hmore
    | cons t more =>
      rw [hmore] at hlast
      simp only [joinWith, byteLength_append, byteLength_cons, byteLength_nil, hs]
      rw [← hlast, stop]
      omega

/-- The pieces of a chain without gaps lie where their characters, put together, lie. -/
theorem Chain.within {input : List Char} {pieces : List Span} {offset : Nat}
    (h : Chain 0 offset pieces) (whole : Within ⟨pieces.flatMap (·.text), offset⟩ input) :
    ∀ s ∈ pieces, s.Within input := by
  induction pieces generalizing offset with
  | nil =>
    intro s hs
    cases hs
  | cons t rest ih =>
    intro s hs
    obtain ⟨rfl, hrest⟩ := h
    rcases List.mem_cons.1 hs with rfl | hs
    · refine whole.part [] (rest.flatMap (·.text)) ?_ rfl
      rw [List.flatMap_cons, List.nil_append]
    · refine ih hrest (whole.part t.text [] ?_ rfl) s hs
      rw [List.flatMap_cons, List.append_nil]

/-- The pieces of a chain with separators lie where the joined characters lie. -/
theorem Chain.within_joined (separator : Char) (hs : separator.utf8Size = 1) {input : List Char}
    {pieces : List Span} {offset : Nat} (h : Chain 1 offset pieces)
    (whole : Within ⟨joinWith [separator] (pieces.map (·.text)), offset⟩ input) :
    ∀ s ∈ pieces, s.Within input := by
  induction pieces generalizing offset with
  | nil =>
    intro s hs
    cases hs
  | cons t rest ih =>
    intro s hmem
    obtain ⟨rfl, hrest⟩ := h
    cases rest with
    | nil =>
      rw [List.mem_singleton.1 hmem]
      exact whole
    | cons u more =>
      rw [List.map_cons, List.map_cons, joinWith] at whole
      rcases List.mem_cons.1 hmem with rfl | hmem
      · refine whole.part [] (separator :: joinWith [separator] (u.text :: more.map (·.text))) ?_ rfl
        rw [List.nil_append, List.append_assoc, List.singleton_append]
      · refine ih hrest (whole.part (t.text ++ [separator]) [] ?_ ?_) s hmem
        · rw [List.map_cons, List.append_nil]
        · simp only [stop, byteLength_append, byteLength_cons, byteLength_nil, hs]
          omega

end Span

end Pattern

end RegexDiagram
