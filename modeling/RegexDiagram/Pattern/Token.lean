import RegexDiagram.Pattern.Charset
import RegexDiagram.Text.Letters

/-!
# Tokens

A pattern as a flat list of pieces. A piece is a bar, the opening or the closing of a group, or an
atom, and a quantifier belongs to the piece in front of it. What a piece is does not depend on the
groups around it: which parenthesis closes which group is decided afterwards.

Each token keeps its characters, so the tokens of a text, put together, are the text.
-/

namespace RegexDiagram.Pattern

/-- What a piece is for the structure around it. -/
inductive Token.Role where
  | bar
  | opening (kind : GroupKind)
  | closing
  | atom (node : Node)

/-- A piece of a pattern. The characters of its quantifier are kept apart from its own. -/
structure Token where
  role : Token.Role
  span : Span
  quantifier : Option Quantifier
  anomalies : List Anomaly

namespace Token

def quantifierText (t : Token) : List Char := (t.quantifier.map (·.text)).getD []

/-- All characters of the piece. -/
def text (t : Token) : List Char := t.span.text ++ t.quantifierText

/-- A name for a group: letters, numbers, underscores and dollar signs, at least one of them. -/
def isGroupName (name : List Char) : Bool :=
  name ≠ [] && name.all fun c => isAlphanumeric c || c == '_' || c == '$'

/-- A group as it is opened: its kind, the characters behind the parenthesis, and whether the name
it promised is missing. -/
structure Opening where
  kind : GroupKind
  marker : List Char
  nameless : Bool

/-- How the group opens whose parenthesis is followed by the given text. A name that is not closed
or not a name leaves a capturing group. -/
def Opening.read : List Char → Opening
  | '?' :: ':' :: _ => ⟨.nonCapturing, ['?', ':'], false⟩
  | '?' :: '=' :: _ => ⟨.lookahead false, ['?', '='], false⟩
  | '?' :: '!' :: _ => ⟨.lookahead true, ['?', '!'], false⟩
  | '?' :: '<' :: '=' :: _ => ⟨.lookbehind false, ['?', '<', '='], false⟩
  | '?' :: '<' :: '!' :: _ => ⟨.lookbehind true, ['?', '<', '!'], false⟩
  | '?' :: '<' :: rest =>
    match before? '>' rest with
    | some name =>
      if isGroupName name then ⟨.named name, ['?', '<'] ++ name ++ ['>'], false⟩
      else ⟨.capturing, ['?', '<'], true⟩
    | none => ⟨.capturing, ['?', '<'], true⟩
  | _ => ⟨.capturing, [], false⟩

/-- The characters that open a group are read from the front of the text. -/
theorem Opening.read_marker (s : List Char) : (Opening.read s).marker <+: s := by
  unfold Opening.read
  split
  case h_6 rest _ _ =>
    split
    · next name h =>
      obtain ⟨r, rfl⟩ := eq_append_of_before? h
      split <;> simp
    · simp
  all_goals simp

/-- A piece that may be repeated, with the quantifier that follows it in `rest`. A brace that begins
no quantifier is left for the next piece. -/
def withQuantifier (role : Role) (span : Span) (anomalies : List Anomaly) (rest : List Char) :
    Token :=
  let quantifier := Quantifier.read? rest
  let malformed := quantifier.isNone && rest.head? == some '\x7b'
  { role, span, quantifier
    anomalies := anomalies ++ (if malformed then [⟨span.stop, .malformedQuantifier⟩] else []) }

/-- A piece has its own characters and then those of a quantifier at the front of the text. -/
theorem withQuantifier_text (role : Role) (span : Span) (anomalies : List Anomaly)
    (rest : List Char) :
    ∃ q, (withQuantifier role span anomalies rest).text = span.text ++ q ∧ q <+: rest := by
  refine ⟨_, rfl, ?_⟩
  unfold quantifierText withQuantifier
  cases h : Quantifier.read? rest with
  | none => exact List.nil_prefix
  | some q => exact Quantifier.read?_text h

/-- An atom and what was noted in it. The text is the pattern from the atom on. -/
def ofAtom (node : Node) (anomalies : List Anomaly) (s : List Char) : Token :=
  withQuantifier (.atom node) node.span anomalies (s.drop node.span.text.length)

/-- The escape outside a class whose backslash is at the byte position `offset`. -/
def readEscape (offset : Nat) (rest : List Char) : Node × List Anomaly :=
  let escape := Escape.outside rest
  let span : Span := ⟨'\\' :: rest.take escape.length, offset⟩
  (match escape.shown with
    | .named meaning => .escape span meaning
    | .plain value => .literal span [value],
   (escape.trouble.map (Anomaly.mk offset)).toList)

/-- An escape is read from its backslash on, without a gap. -/
theorem readEscape_text (offset : Nat) (rest : List Char) :
    ∃ t, (readEscape offset rest).1.span.text = '\\' :: t ∧ t <+: rest := by
  refine ⟨rest.take (Escape.outside rest).length, ?_, List.take_prefix ..⟩
  unfold readEscape
  simp only
  split <;> rfl

/-- The atom that begins with the character `c`, and what was noted in it. -/
def readAtom (offset : Nat) (c : Char) (rest : List Char) : Node × List Anomaly :=
  let span : Span := ⟨[c], offset⟩
  if c = '^' then (.anchor span .start, [])
  else if c = '$' then (.anchor span .finish, [])
  else if c = '.' then (.wildcard span, [])
  else if c = '[' then Node.readCharset offset rest
  else if c = '\\' then readEscape offset rest
  else
    let nothing := c ∈ ['*', '+', '?'] || (Bounds.braces? (c :: rest)).isSome
    (.literal span [c], if nothing then [⟨offset, .nothingToRepeat⟩] else [])

/-- An atom is read from the front of the text and has its first character. -/
theorem readAtom_text (offset : Nat) (c : Char) (rest : List Char) :
    ∃ t, (readAtom offset c rest).1.span.text = c :: t ∧ t <+: rest := by
  have bare : ∃ t, [c] = c :: t ∧ t <+: rest := ⟨[], rfl, List.nil_prefix⟩
  unfold readAtom
  simp only
  split
  · exact bare
  · split
    · exact bare
    · split
      · exact bare
      · split
        · next h => rw [h]; exact Node.readCharset_text offset rest
        · split
          · next h => rw [h]; exact readEscape_text offset rest
          · exact bare

/-- The piece that begins with the character `c` at the byte position `offset`. -/
def read (offset : Nat) (c : Char) (rest : List Char) : Token :=
  if c = '|' then ⟨.bar, ⟨['|'], offset⟩, none, []⟩
  else if c = '(' then
    let opening := Opening.read rest
    ⟨.opening opening.kind, ⟨'(' :: opening.marker, offset⟩, none,
      if opening.nameless then [⟨offset + 1, .unterminatedGroupName⟩] else []⟩
  else if c = ')' then withQuantifier .closing ⟨[')'], offset⟩ [] rest
  else
    let (node, noted) := readAtom offset c rest
    ofAtom node noted (c :: rest)

/-- A piece is read from the front of the text and has its first character. -/
theorem read_text (offset : Nat) (c : Char) (rest : List Char) :
    ∃ t, (read offset c rest).text = c :: t ∧ t <+: rest := by
  unfold read
  simp only
  split
  · next h => exact ⟨[], by rw [h]; rfl, List.nil_prefix⟩
  · split
    · next h => exact ⟨_, by rw [h]; exact List.append_nil _, Opening.read_marker rest⟩
    · split
      · next h => rw [h]; exact withQuantifier_text ..
      · obtain ⟨t, ht, hp⟩ := readAtom_text offset c rest
        obtain ⟨q, hq, hr⟩ := withQuantifier_text (.atom (readAtom offset c rest).1)
          (readAtom offset c rest).1.span (readAtom offset c rest).2
          ((c :: rest).drop (readAtom offset c rest).1.span.text.length)
        refine ⟨t ++ q, by rw [ofAtom, hq, ht]; rfl, ?_⟩
        rw [ht, List.length_cons, List.drop_succ_cons] at hr
        rw [← List.prefix_iff_eq_append.1 hp]
        exact (List.prefix_append_right_inj _).2 hr

/-- The pieces of a text that starts at the byte position `offset`. -/
def ofText (offset : Nat) : List Char → List Token
  | [] => []
  | c :: rest =>
    let token := read offset c rest
    token :: ofText (offset + byteLength token.text) (rest.drop (token.text.length - 1))
termination_by s => s.length
decreasing_by simp only [List.length_drop, List.length_cons]; omega

/-- The pieces of a text, put together, are the text. -/
theorem flatMap_text_ofText (offset : Nat) (s : List Char) : (ofText offset s).flatMap text = s := by
  fun_induction ofText offset s with
  | case1 => rfl
  | case2 offset c rest token ih =>
    obtain ⟨t, ht, hp⟩ := read_text offset c rest
    rw [List.flatMap_cons, ih, show token.text = c :: t from ht, List.length_cons,
      Nat.add_sub_cancel, List.cons_append, List.prefix_iff_eq_append.1 hp]

end Token

end RegexDiagram.Pattern
