import RegexDiagram.Proofs.Drawing.Words
import RegexDiagram.Proofs.Pattern.LiteralForm
import RegexDiagram.Proofs.Pattern.Steps
import RegexDiagram.Text.Terminal

/-!
# Texts as patterns

A pattern can stand for any text: a backslash in front of every character that is neither a letter nor a digit
takes its meaning away (`verbatim`). Letters and digits never stand behind a backslash, so no escape has a name,
and only a letter, a digit or a backslash begins what comes next, so nothing is repeated. Every character is read
as a literal, and nothing is noted.

The literals are drawn as one. `read_verbatim` says so of every text and of every way to draw it.
-/

namespace RegexDiagram

open Pattern

/-! ## The spelling -/

/-- A character as it is spelled in a pattern that stands for itself. -/
def verbatimChar (c : Char) : List Char := if c.isAlphanum then [c] else ['\\', c]

/-- The pattern that stands for a text. -/
def verbatim (s : List Char) : List Char := s.flatMap verbatimChar

namespace Pattern

/-- The characters of a text as literals, each with its spelling. -/
def verbatimItems (offset : Nat) : List Char → List Node
  | [] => []
  | c :: rest =>
    .literal ⟨verbatimChar c, offset⟩ [c] :: verbatimItems (offset + byteLength (verbatimChar c)) rest

theorem text_verbatimItems (offset : Nat) (s : List Char) :
    (verbatimItems offset s).flatMap (·.span.text) = verbatim s := by
  induction s generalizing offset with
  | nil => rfl
  | cons c rest ih =>
    rw [verbatimItems, List.flatMap_cons, ih]
    rfl

/-- What the spelling of a character begins with. -/
def BeginsVerbatim (c : Char) : Prop := c.isAlphanum = true ∨ c = '\\'

instance (c : Char) : Decidable (BeginsVerbatim c) := inferInstanceAs (Decidable (_ ∨ _))

theorem BeginsVerbatim.ne {c d : Char} (hc : BeginsVerbatim c) (hd : ¬ BeginsVerbatim d) : c ≠ d :=
  fun h => hd (h ▸ hc)

theorem BeginsVerbatim.notMem {c : Char} (hc : BeginsVerbatim c) {marks : List Char}
    (h : marks.all (fun d => ¬ BeginsVerbatim d) = true) : c ∉ marks :=
  fun hmem => of_decide_eq_true (List.all_eq_true.1 h c hmem) hc

/-! ## Escapes -/

namespace Escape

/-- Behind a backslash only letters and digits have a meaning. -/
theorem shared_plain {c : Char} (hc : c.isAlphanum = false) (rest : List Char) : shared c rest = plain c := by
  refine shared_cases (P := fun c e => c.isAlphanum = false → e = plain c) (fun {c _} hmeaning hc => ?_)
    (fun h => absurd h (by decide)) (fun h => absurd h (by decide)) (fun h => absurd h (by decide))
    (fun h => absurd h (by decide)) (fun negated h => ?_) (fun c hc => if_neg (ne_true_of_eq_false hc)) c hc
  · unfold letterMeaning? at hmeaning
    split at hmeaning <;> first | exact absurd hc (by decide) | exact absurd hmeaning (by simp)
  · cases negated <;> exact absurd h (by decide)

theorem outside_plain {c : Char} (hc : c.isAlphanum = false) (rest : List Char) :
    outside (c :: rest) = plain c := by
  have hne {d : Char} (hd : d.isAlphanum = true) : c ≠ d := by
    rintro rfl
    exact absurd hd (ne_true_of_eq_false hc)
  have hdigit : ¬ ('1' ≤ c ∧ c ≤ '9') := fun ⟨hlow, hhigh⟩ => by
    have hzero : '0' ≤ c := Char.le_trans (by decide) hlow
    have hisDigit : c.isDigit = true := Bool.and_eq_true_iff.2 ⟨decide_eq_true hzero, decide_eq_true hhigh⟩
    exact absurd (Bool.or_eq_true_iff.2 (.inr hisDigit)) (ne_true_of_eq_false hc)
  rw [outside, if_neg (hne (by decide)), if_neg (hne (by decide)), if_neg (hne (by decide)), if_neg hdigit,
    shared_plain hc]

end Escape

/-! ## Tokens -/

/-- Every character is read as a literal from its spelling, whatever follows. -/
theorem Token.readAtom_verbatim (c : Char) : ∃ d spelling, verbatimChar c = d :: spelling ∧ BeginsVerbatim d ∧
    ∀ (pos : Nat) (rest : List Char),
      readAtom pos d (spelling ++ rest) = (.literal ⟨verbatimChar c, pos⟩ [c], []) := by
  by_cases hc : c.isAlphanum = true
  · have hbegins : BeginsVerbatim c := .inl hc
    have hspelling : verbatimChar c = [c] := if_pos hc
    refine ⟨c, [], hspelling, hbegins, fun pos rest => ?_⟩
    have hbackslash : c ≠ '\\' := by
      rintro rfl
      exact absurd hc (by decide)
    have hbrace : ¬ (Bounds.braces? (c :: ([] ++ rest))).isSome = true := fun hbraces =>
      hbegins.ne (by decide) (Bounds.braces?_brace hbraces)
    have hmark : c ∉ ['*', '+', '?'] := hbegins.notMem (by decide)
    rw [readAtom, if_neg (hbegins.ne (by decide)), if_neg (hbegins.ne (by decide)), if_neg (hbegins.ne (by decide)),
      if_neg (hbegins.ne (by decide)), if_neg hbackslash, hspelling]
    simp only [hmark, hbrace, decide_false, Bool.or_self, Bool.false_eq_true, if_false]
  · have hspelling : verbatimChar c = ['\\', c] := if_neg hc
    refine ⟨'\\', [c], hspelling, .inr rfl, fun pos rest => ?_⟩
    have hescape : Escape.outside ([c] ++ rest) = .plain c :=
      Escape.outside_plain (Bool.eq_false_iff.2 hc) rest
    rw [hspelling]
    show readEscape pos ([c] ++ rest) = _
    rw [readEscape, hescape]
    rfl

theorem beginsVerbatim_head {s rest : List Char} {d : Char} (h : verbatim s = d :: rest) : BeginsVerbatim d := by
  cases s with
  | nil => cases h
  | cons c more =>
    obtain ⟨first, spelling, hspelling, hbegins, -⟩ := Token.readAtom_verbatim c
    rw [verbatim, List.flatMap_cons, hspelling] at h
    exact (List.cons.inj h).1 ▸ hbegins

/-- Nothing that could repeat a character begins the spelling of a text. -/
theorem Quantifier.read?_verbatim (s : List Char) : Quantifier.read? (verbatim s) = none := by
  cases h : verbatim s with
  | nil => rfl
  | cons d rest => exact Quantifier.read?_of_notMem ((beginsVerbatim_head h).notMem (by decide)) rest

theorem malformedAt_verbatim (pos : Nat) (s : List Char) : malformedAt pos (verbatim s) = [] := by
  refine if_neg fun hbrace => ?_
  obtain ⟨rest, h⟩ := List.head?_eq_some_iff.1 (eq_of_beq (Bool.and_eq_true_iff.1 hbrace).2)
  exact (beginsVerbatim_head h).ne (by decide) rfl

/-- The first token is the first character. -/
theorem Token.ofText_verbatim (pos : Nat) (c : Char) (s : List Char) :
    Token.ofText pos (verbatim (c :: s)) =
      ⟨.atom (.literal ⟨verbatimChar c, pos⟩ [c]), ⟨verbatimChar c, pos⟩, none, []⟩ ::
        Token.ofText (pos + byteLength (verbatimChar c)) (verbatim s) := by
  obtain ⟨d, spelling, hspelling, hbegins, hatom⟩ := readAtom_verbatim c
  have hread : Token.read pos d (spelling ++ verbatim s) =
      ⟨.atom (.literal ⟨verbatimChar c, pos⟩ [c]), ⟨verbatimChar c, pos⟩, none, []⟩ := by
    have htext : d :: (spelling ++ verbatim s) =
        (readAtom pos d (spelling ++ verbatim s)).1.span.text ++ verbatim s := by
      rw [hatom, ← List.cons_append, ← hspelling]
      rfl
    rw [read_atom (hbegins.ne (by decide)) (hbegins.ne (by decide)) (hbegins.ne (by decide)) pos htext, hatom,
      Quantifier.read?_verbatim, malformedAt_verbatim]
    rfl
  have htext : (Token.read pos d (spelling ++ verbatim s)).text = d :: spelling := by
    rw [hread, ← hspelling]
    exact List.append_nil _
  have hsplit : verbatim (c :: s) = d :: (spelling ++ verbatim s) := by
    rw [verbatim, List.flatMap_cons, hspelling]
    rfl
  rw [hsplit, Token.ofText, htext, hread, List.length_cons, Nat.add_sub_cancel, List.drop_left, ← hspelling]

/-! ## The tree -/

/-- Reading the spelling of a text puts its characters behind the items of the branch. -/
theorem Nesting.foldl_verbatim (n : Nesting) (pos : Nat) (s : List Char) :
    (Token.ofText pos (verbatim s)).foldl Nesting.step n =
      { n with level := { n.level with items := (verbatimItems pos s).reverse ++ n.level.items } } := by
  induction s generalizing n pos with
  | nil =>
    rw [verbatim, List.flatMap_nil, Token.ofText]
    rfl
  | cons c rest ih =>
    rw [Token.ofText_verbatim, List.foldl_cons, ih, verbatimItems, List.reverse_cons, List.append_assoc]
    simp only [Nesting.step, List.append_nil]
    rfl

/-- The spelling of a text does not begin with a slash. -/
theorem not_inLiteralForm_verbatim (s : List Char) : ¬ InLiteralForm (verbatim s) := by
  cases h : verbatim s with
  | nil => exact by decide
  | cons d rest => exact not_inLiteralForm_cons ((beginsVerbatim_head h).ne (by decide)) rest

/-- The spelling of a text is one branch with the characters of the text. -/
theorem Alternation.ofText_verbatim (s : List Char) :
    Alternation.ofText 0 (verbatim s) = (.ofBranches 0 [⟨⟨verbatim s, 0⟩, verbatimItems 0 s⟩], []) := by
  rw [ofText, ofTokens, Nesting.foldl_verbatim, ← text_verbatimItems 0]
  simp only [Nesting.finish, Nesting.closeAll, Nesting.start, Level.opened, Level.alternation, Level.branch,
    List.append_nil, List.reverse_reverse, List.reverse_singleton, Sequence.ofItems]

/-! ## The drawing -/

/-- Unless the text has to be ASCII, a drawing of a tree shows what the tree says. -/
theorem Root.texts_drawing {α : Type} [Scalar α] {c : Spacing α} (hc : c.asciiText = false) (m : Measure α)
    (r : Root) : (r.drawing c m).fragment.texts = r.words := by
  obtain ⟨-, htexts⟩ := (treeClosed_said (m := m) hc).alternation r.alternation
  rw [drawing, Railroad.texts_drawing, htexts, funext (shown_eq hc), Option.map_id', words]

theorem itemParts_verbatimItems (offset : Nat) (s : List Char) :
    itemParts (verbatimItems offset s) = s.map fun c => .literal [c] := by
  induction s generalizing offset with
  | nil => rfl
  | cons c rest ih => rw [verbatimItems, itemParts, ih, List.map_cons]

/-- Characters one behind the other are one label. -/
theorem pieces_characters (value s : List Char) :
    Part.pieces (.literal value :: s.map fun c => .literal [c]) = [.text (literalLabel (value ++ s))] := by
  induction s generalizing value with
  | nil => rw [List.map_nil, Part.pieces_last, List.append_nil]
  | cons c rest ih => rw [List.map_cons, Part.pieces_merge, ih, List.append_assoc, List.singleton_append]

end Pattern

/-- **Any text can be written as a pattern.** Its characters are read as literals, one by one, and are the only
branch; nothing is noted, and there are no flags. Unless the text is empty, its label is all that a drawing
shows. -/
theorem read_verbatim (s : List Char) :
    (read (verbatim s)).isClean = true ∧ (read (verbatim s)).root.flags = [] ∧
      (read (verbatim s)).root.alternation.branches = [⟨⟨verbatim s, 0⟩, verbatimItems 0 s⟩] ∧
      (s ≠ [] → ∀ {α : Type} [Scalar α] (c : Spacing α) (m : Measure α), c.asciiText = false →
        ((read (verbatim s)).root.drawing c m).fragment.texts = [literalLabel s]) := by
  have hform := not_inLiteralForm_verbatim s
  have hread := Alternation.ofText_verbatim s
  have hclean : (read (verbatim s)).isClean = true := by
    rw [Outcome.isClean, anomalies_of_not hform, hread]
    rfl
  have htree : (read (verbatim s)).root.alternation = .ofBranches 0 [⟨⟨verbatim s, 0⟩, verbatimItems 0 s⟩] := by
    rw [alternation_of_not hform, hread]
  refine ⟨hclean, flags_of_not hform, by rw [htree]; rfl, fun hs α _ c m hc => ?_⟩
  obtain ⟨first, rest, rfl⟩ := List.exists_cons_of_ne_nil hs
  rw [Root.texts_drawing hc, Root.words, flags_of_not hform, htree, Alternation.ofBranches, Alternation.pieces,
    branchPieces, branchPieces, Sequence.pieces, itemParts_verbatimItems, List.map_cons, pieces_characters]
  rfl

/-- A text that would be a pattern between slashes, with a repetition and a line feed in it. -/
theorem read_verbatim_slashes :
    verbatim "/a\x7b2\x7d\n/".toList = "\\/a\\\x7b2\\\x7d\\\n\\/".toList ∧
      "/a\x7b2\x7d\n/".toList ≠ [] ∧ (Spacing.pixels : Spacing Float).asciiText = false ∧
      ((read (verbatim "/a\x7b2\x7d\n/".toList)).root.drawing (Spacing.pixels : Spacing Float)
        .standardFont).fragment.texts = ["“/a\x7b2\x7d\\n/”".toList] := by
  have htext : "/a\x7b2\x7d\n/".toList ≠ [] := by decide
  obtain ⟨-, -, -, htexts⟩ := read_verbatim "/a\x7b2\x7d\n/".toList
  exact ⟨by decide, htext, rfl, htexts htext Spacing.pixels .standardFont rfl⟩

end RegexDiagram
