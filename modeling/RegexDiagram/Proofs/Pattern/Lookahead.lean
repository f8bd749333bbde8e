import RegexDiagram.Proofs.Pattern.Classes
import RegexDiagram.Proofs.Pattern.Quantifiers
import RegexDiagram.Proofs.Pattern.Steps
import Mathlib.Tactic.SplitIfs

/-!
# How far the reader looks ahead

The readers of escapes, quantifiers, group names and classes look at text behind what they take. Some of
them look as far as they like: a name goes on to the next closing bracket. This module says when that does
not matter. A bar, a closing parenthesis or a brace ends every number and every incomplete marker in front
of it (`EndsPiece`), and a reader that looks farther has found what it looked for, or it notes an anomaly.
Quantifiers end there as well, except that a brace may begin one behind a complete text.

So a text in which nothing is noted has the same tokens in front of the end of a branch as it has alone:
`Token.ofText_append`. In front of a quantifier in braces they are the same but for the last one, which gets
the quantifier: `Token.ofText_quantified`. The condition is needed, since `\k` in front of `|x>` is no name
alone, and a class that is not closed goes on behind the bar.
-/

namespace RegexDiagram

/-! ## Runs of characters -/

section Runs

variable {p : Char → Bool} {e : Char} (he : p e = false)

include he

theorem takeWhile_append_stop (s t : List Char) : (s ++ e :: t).takeWhile p = s.takeWhile p := by
  induction s with
  | nil => simp [he]
  | cons c rest ih => simp only [List.cons_append, List.takeWhile_cons, ih]

theorem leading_append_stop (n : Nat) (s t : List Char) :
    leading n p (s ++ e :: t) = leading n p s := by
  induction s generalizing n with
  | nil => cases n <;> simp [leading, he]
  | cons c rest ih =>
    cases n with
    | zero => rfl
    | succ n =>
      have hrest := ih n
      simp only [leading] at hrest
      simp only [leading, List.cons_append, List.take_succ_cons, List.takeWhile_cons, hrest]

end Runs

/-- What is found is found again with more text behind it. -/
theorem before?_append {stop : Char} {s name : List Char} (h : before? stop s = some name)
    (t : List Char) : before? stop (s ++ t) = some name := by
  induction s generalizing name with
  | nil => cases h
  | cons c rest ih =>
    rw [before?] at h
    rw [List.cons_append, before?]
    split
    next hc => rwa [if_pos hc] at h
    next hc =>
      rw [if_neg hc] at h
      obtain ⟨u, hu, rfl⟩ := Option.map_eq_some_iff.1 h
      rw [ih hu]
      rfl

namespace Pattern

/-! ## The end of a piece -/

/-- The characters that end a branch. -/
def EndsBranch (c : Char) : Prop := c = '|' ∨ c = ')'

/-- The characters that end a piece: those that end its branch, and a brace, which may begin its
quantifier. -/
def EndsPiece (c : Char) : Prop := EndsBranch c ∨ c = '\x7b'

theorem EndsBranch.ne_brace {e : Char} (he : EndsBranch e) : e ≠ '\x7b' := by
  rintro rfl
  exact absurd he (by unfold EndsBranch; decide)

/-- A fact of all characters that end a piece. -/
theorem EndsPiece.of {P : Char → Prop} {e : Char} (he : EndsPiece e) (bar : P '|')
    (closing : P ')') (brace : P '\x7b') : P e := by
  rcases he with (rfl | rfl) | rfl
  · exact bar
  · exact closing
  · exact brace

theorem EndsPiece.isOctalDigit {e : Char} (he : EndsPiece e) : isOctalDigit e = false :=
  he.of (P := fun c => RegexDiagram.isOctalDigit c = false) (by decide) (by decide) (by decide)

theorem EndsPiece.isHexDigit {e : Char} (he : EndsPiece e) : isHexDigit e = false :=
  he.of (P := fun c => RegexDiagram.isHexDigit c = false) (by decide) (by decide) (by decide)

variable {e : Char} (he : EndsPiece e) (t : List Char)

include he

/-! ## Quantifiers -/

/-- No quantifier in braces goes on behind a piece, though a brace may begin one. -/
theorem Bounds.Braces.ne_append {text : List Char} {b : Bounds} (h : Braces text b) {s more : List Char}
    (hs : e = '\x7b' → s ≠ []) : text ≠ s ++ e :: more := by
  obtain ⟨body, rfl, hbody⟩ := h.parts
  have hother : ¬ (e.isDigit = true ∨ e = ',') :=
    he.of (P := fun c => ¬ (c.isDigit = true ∨ c = ',')) (by decide) (by decide) (by decide)
  have hclose : e ≠ '\x7d' := he.of (P := (· ≠ '\x7d')) (by decide) (by decide) (by decide)
  intro htext
  cases s with
  | nil => exact hs (List.cons.inj htext).1.symm rfl
  | cons c rest =>
    have htail : body ++ ['\x7d'] = rest ++ e :: more := (List.cons.inj htext).2
    have hmem : e ∈ body ++ ['\x7d'] := htail ▸ List.mem_append_right rest (.head more)
    obtain hmem | hmem := List.mem_append.1 hmem
    · exact hother (hbody e hmem)
    · exact hclose (List.mem_singleton.1 hmem)

theorem Bounds.braces?_append {s : List Char} (hs : e = '\x7b' → s ≠ []) :
    braces? (s ++ e :: t) = braces? s := by
  refine Option.ext fun (b, n) => ⟨fun h => ?_, fun h => ?_⟩
  · obtain ⟨text, after, htext, rfl, hbraces, hadmitted⟩ := braces?_written h
    obtain ⟨more, htext, hafter⟩ | ⟨more, rfl, -⟩ := List.append_eq_append_iff.1 htext
    · cases more with
      | nil =>
        obtain rfl : text = s := htext.trans (List.append_nil s)
        have hread := hbraces.read_admitted hadmitted []
        rwa [List.append_nil] at hread
      | cons c more =>
        obtain rfl : e = c := (List.cons.inj hafter).1
        exact absurd htext (hbraces.ne_append he hs)
    · exact hbraces.read_admitted hadmitted more
  · obtain ⟨text, after, rfl, rfl, hbraces, hadmitted⟩ := braces?_written h
    rw [List.append_assoc]
    exact hbraces.read_admitted hadmitted _

theorem Bounds.read?_append {s : List Char} (hs : e = '\x7b' → s ≠ []) : read? (s ++ e :: t) = read? s := by
  have hbraces := Bounds.braces?_append he t hs
  rcases s with _ | ⟨c, rest⟩
  · rcases he with (rfl | rfl) | rfl
    · exact hbraces
    · exact hbraces
    · exact absurd rfl (hs rfl)
  by_cases hstar : c = '*'
  · subst hstar
    rfl
  by_cases hplus : c = '+'
  · subst hplus
    rfl
  by_cases hquestion : c = '?'
  · subst hquestion
    rfl
  simpa [read?, hstar, hplus, hquestion] using hbraces

/-- A quantifier does not go on behind a piece, though a brace may begin one. -/
theorem Quantifier.read?_append {s : List Char} (hs : e = '\x7b' → s ≠ []) :
    read? (s ++ e :: t) = read? s := by
  have hlazy : e ≠ '?' := he.of (P := (· ≠ '?')) (by decide) (by decide) (by decide)
  unfold read?
  rw [Bounds.read?_append he t hs]
  cases hbounds : Bounds.read? s with
  | none => rfl
  | some found =>
    obtain ⟨bounds, length⟩ := found
    obtain ⟨text, after, rfl, rfl, -⟩ := Bounds.read?_written hbounds
    cases after with
    | nil => simp [hlazy]
    | cons c more =>
      by_cases hc : c = '?'
      · simp [hc, List.take_append]
      · simp [hc]

/-! ## Group names -/

/-- A group that has the name it promised is opened by the same marker. -/
theorem Token.Opening.read_append {s : List Char} (h : (Opening.read s).nameless = false) :
    Opening.read (s ++ e :: t) = Opening.read s := by
  fun_cases Opening.read s with
  | case6 rest hequal hbang name hname hvalid =>
    cases rest with
    | nil => cases hname
    | cons c more =>
      have hc : c ≠ '=' ∧ c ≠ '!' :=
        ⟨fun hc => hequal more (hc ▸ rfl), fun hc => hbang more (hc ▸ rfl)⟩
      have hfound := before?_append hname (e :: t)
      rw [List.cons_append] at hfound
      simp [Opening.read, hc.1, hc.2, hfound, hvalid]
  | case7 rest hequal hbang name hname hinvalid =>
    rw [Opening.read] at h
    · simp [hname, hinvalid] at h
    · exact hequal
    · exact hbang
  | case8 rest hequal hbang hnone =>
    rw [Opening.read] at h
    · simp [hnone] at h
    · exact hequal
    · exact hbang
  | case9 s hcolon hequal hbang hbehind hnotBehind hname =>
    rcases s with _ | ⟨a, _ | ⟨b, more⟩⟩
    · rcases he with (rfl | rfl) | rfl <;> rfl
    · rcases he with (rfl | rfl) | rfl <;> simp [Opening.read]
    · by_cases ha : a = '?'
      · subst ha
        have hb : b ≠ ':' ∧ b ≠ '=' ∧ b ≠ '!' ∧ b ≠ '<' := by
          refine ⟨?_, ?_, ?_, ?_⟩ <;> rintro rfl
          · exact hcolon more rfl
          · exact hequal more rfl
          · exact hbang more rfl
          · exact hname more rfl
        simp [Opening.read, hb]
      · simp [Opening.read, ha]
  | _ => rfl

/-! ## Escapes -/

namespace Escape

theorem octal_append (s : List Char) : octal (s ++ e :: t) = octal s := by
  rw [octal, octal, leading_append_stop he.isOctalDigit]

theorem zero_append (s : List Char) : zero (s ++ e :: t) = zero s := by
  rw [zero, zero, leading_append_stop he.isOctalDigit]

theorem control_append (s : List Char) : control (s ++ e :: t) = control s := by
  have hletter := he.of (P := fun c => c.isAlpha = false) (by decide) (by decide) (by decide)
  cases s with
  | nil => simp [control, hletter]
  | cons c rest => rfl

theorem hex_append (s : List Char) : hex (s ++ e :: t) = hex s := by
  rw [hex, hex, leading_append_stop he.isHexDigit]

theorem unicode_append {s : List Char} (h : (unicode s).trouble = none) :
    unicode (s ++ e :: t) = unicode s := by
  have hdigit := he.isHexDigit
  have hclose := he.of (P := (· ≠ '\x7d')) (by decide) (by decide) (by decide)
  rcases s with _ | ⟨c, body⟩
  · simp [unicode, incomplete, leading] at h
  by_cases hc : c = '\x7b'
  · subst hc
    simp only [unicode, List.cons_append, leading_append_stop hdigit,
      List.drop_append_of_le_length (length_leading_le 6 isHexDigit body)]
    rcases body.drop (leading 6 isHexDigit body).length with _ | ⟨a, more⟩
    · simp [hclose]
    · rfl
  · have hdigits := leading_append_stop hdigit 4 (c :: body) t
    rw [List.cons_append] at hdigits
    simp [unicode, hc, hdigits]

omit he in
/-- A property with its name ends at the bracket that is found. -/
theorem property_append {negated : Bool} {s : List Char} (h : (property negated s).trouble = none) :
    property negated (s ++ t) = property negated s := by
  fun_cases property negated s with
  | case1 body hname => simp [property, hname, incomplete] at h
  | case2 body name hname hne => simp [property, before?_append hname, hne]
  | case3 body hnone => simp [property, hnone, incomplete] at h
  | case4 s hbrace => simp [property, incomplete] at h

omit he in
theorem namedBackReference_append {s : List Char} (h : (namedBackReference s).trouble = none) :
    namedBackReference (s ++ t) = namedBackReference s := by
  fun_cases namedBackReference s with
  | case1 body hname => simp [namedBackReference, hname, incomplete] at h
  | case2 body name hname hne => simp [namedBackReference, before?_append hname, hne]
  | case3 body hnone => simp [namedBackReference, hnone, incomplete] at h
  | case4 s hbracket => simp [namedBackReference, incomplete] at h

theorem shared_append {c : Char} {s : List Char} (h : (shared c s).trouble = none) :
    shared c (s ++ e :: t) = shared c s := by
  unfold shared at h ⊢
  cases hmeaning : letterMeaning? c with
  | some meaning => rfl
  | none =>
    simp only [hmeaning, zero_append he, control_append he, hex_append he] at h ⊢
    split_ifs at h ⊢ with hzero hcontrol hhex hunicode hproperty hnegated
    · rfl
    · rfl
    · rfl
    · exact unicode_append he t h
    · exact property_append _ h
    · exact property_append _ h
    · rfl

/-- An escape outside a class, if it is complete, is the same in front of the end of a piece. -/
theorem outside_append {s : List Char} (h : (outside s).trouble = none) :
    outside (s ++ e :: t) = outside s := by
  cases s with
  | nil => cases h
  | cons c rest =>
    rw [List.cons_append, outside, outside]
    rw [outside] at h
    split_ifs at h ⊢ with hb hB hk hdigit
    · rfl
    · rfl
    · exact namedBackReference_append _ h
    · rfl
    · exact shared_append he t h

/-- An escape inside a class, if it is complete, is the same in front of the end of a piece. -/
theorem inside_append {s : List Char} (h : (inside s).trouble = none) :
    inside (s ++ e :: t) = inside s := by
  cases s with
  | nil => cases h
  | cons c rest =>
    rw [List.cons_append, inside, inside]
    rw [inside] at h
    split_ifs at h ⊢ with hb hB hdigit
    · rfl
    · rfl
    · exact octal_append he t (c :: rest)
    · exact shared_append he t h

theorem beginsSet_append (s : List Char) : beginsSet (s ++ e :: t) = beginsSet s := by
  cases s with
  | nil => exact he.of (P := fun c => beginsSet (c :: t) = false) (by rfl) (by rfl) (by rfl)
  | cons c rest => rfl

end Escape

/-! ## Classes -/

omit he in
/-- If nothing is noted about an escape, nothing is wrong with it. -/
theorem trouble_eq_none {trouble : Option Anomaly.Kind} {pos : Nat}
    (h : (trouble.map (Anomaly.mk pos)).toList = []) : trouble = none := by
  cases trouble with
  | none => rfl
  | some kind => cases h

theorem ClassAtom.read_append {pos : Nat} {c : Char} {s : List Char}
    (h : (ClassAtom.read pos c s).anomalies = []) :
    ClassAtom.read pos c (s ++ e :: t) = ClassAtom.read pos c s := by
  unfold ClassAtom.read at h ⊢
  by_cases hc : c = '\\'
  · rw [if_pos hc] at h
    have hinside := Escape.inside_append he t (trouble_eq_none h)
    simp only [if_pos hc, hinside, Escape.beginsSet_append he,
      List.take_append_of_le_length (Escape.length_inside_le s)]
  · rw [if_neg hc, if_neg hc]

theorem ClassAtom.beginsSet_append (pos : Nat) (c : Char) (s : List Char) :
    (ClassAtom.read pos c (s ++ e :: t)).beginsSet = (ClassAtom.read pos c s).beginsSet := by
  unfold ClassAtom.read
  by_cases hc : c = '\\'
  · simp only [if_pos hc, Escape.beginsSet_append he]
  · simp only [if_neg hc]

/-- A member of a class is the same, unless a hyphen is all that is left behind its first atom: that
hyphen could become a range. -/
theorem Member.read_append {pos : Nat} {c : Char} {s : List Char}
    (h : (Member.read pos c s).2 = [])
    (hdash : s.drop (covered c s) ≠ ['-']) :
    Member.read pos c (s ++ e :: t) = Member.read pos c s := by
  have hfirst : (ClassAtom.read pos c s).anomalies = [] := by
    rcases Member.read_cases pos c s with hread | ⟨d, more, stop, -, -, -, hread⟩
    · rw [hread] at h
      exact h
    · rw [hread] at h
      exact (List.append_eq_nil_iff.1 h).1
  have hle : (ClassAtom.read pos c s).atom.span.text.length ≤ (c :: s).length := by
    obtain ⟨u, hu, hprefix⟩ := ClassAtom.read_text pos c s
    rw [hu]
    exact Nat.succ_le_succ hprefix.length_le
  unfold Member.read at h ⊢
  simp only [ClassAtom.read_append he t hfirst, ← List.cons_append, List.drop_append_of_le_length hle,
    ClassAtom.drop_read] at h ⊢
  generalize s.drop (covered c s) = behind at h hdash ⊢
  rcases behind with _ | ⟨a, _ | ⟨d, more⟩⟩
  · rcases he with (rfl | rfl) | rfl <;> rfl
  · have ha : a ≠ '-' := fun ha => hdash (ha ▸ rfl)
    simp [ha]
  by_cases ha : a = '-'
  · subst ha
    simp only [List.cons_append, ClassAtom.beginsSet_append he] at h ⊢
    split_ifs at h ⊢ with hd hlast
    · rfl
    · rfl
    · rw [ClassAtom.read_append he t (List.append_eq_nil_iff.1 h).2]
  · simp [ha]

omit he in
/-- A hyphen alone closes no class. -/
theorem ClassBody.closed_dash (pos : Nat) : (ClassBody.read pos ['-']).closed = false := by
  have hmember : Member.read pos '-' [] = (.single (.literal ⟨['-'], pos⟩ ['-']), []) := rfl
  rw [ClassBody.read, if_neg (by decide), hmember]
  simp only [Member.span, ClassAtom.span, List.drop_nil]
  rw [ClassBody.read]

omit he in
/-- In a class that is closed there is more behind an atom than a hyphen. -/
theorem ClassBody.drop_ne_dash {pos : Nat} {c : Char} {rest : List Char} (hc : c ≠ ']')
    (hclosed : (ClassBody.read pos (c :: rest)).closed = true) : rest.drop (covered c rest) ≠ ['-'] := by
  intro hdash
  have hbehind := Member.read_behind pos c rest
  rw [ClassBody.read, if_neg hc] at hclosed
  simp only at hclosed
  rcases Member.read_cases pos c rest with hread | ⟨d, more, stop, -, hrange, -, -⟩
  · have hatom := ClassAtom.drop_read pos c rest
    simp only [hread, Member.span] at hbehind hclosed
    rw [hdash, hbehind, List.drop_left] at hatom
    rw [hatom, ClassBody.closed_dash] at hclosed
    cases hclosed
  · rw [hdash] at hrange
    cases hrange

/-- A class that is closed, with nothing noted in it, ends at the same bracket. -/
theorem ClassBody.read_append {pos : Nat} {s : List Char}
    (hclosed : (ClassBody.read pos s).closed = true) (h : (ClassBody.read pos s).anomalies = []) :
    ClassBody.read pos (s ++ e :: t) = ClassBody.read pos s := by
  fun_induction ClassBody.read pos s with
  | case1 => cases hclosed
  | case2 pos rest => rw [List.cons_append, ClassBody.read, if_pos rfl]
  | case3 pos c rest hc member noted hread text body ih =>
    obtain ⟨hnoted, hbody⟩ := List.append_eq_nil_iff.1 h
    have hwhole : (ClassBody.read pos (c :: rest)).closed = true := by
      rw [ClassBody.read, if_neg hc, hread]
      exact hclosed
    have hmember : Member.read pos c (rest ++ e :: t) = (member, noted) := by
      rw [Member.read_append he t _ (ClassBody.drop_ne_dash hc hwhole), hread]
      rw [hread]
      exact hnoted
    have hle : text.length - 1 ≤ rest.length := by
      obtain ⟨u, hu, hprefix⟩ := Member.read_text pos c rest
      rw [hread] at hu
      rw [show text = c :: u from hu]
      exact hprefix.length_le
    rw [List.cons_append, ClassBody.read, if_neg hc, hmember]
    simp only
    rw [List.drop_append_of_le_length hle, ih hclosed hbody]

theorem Node.readCharset_append {pos : Nat} {s : List Char} (h : (Node.readCharset pos s).2 = []) :
    Node.readCharset pos (s ++ e :: t) = Node.readCharset pos s := by
  unfold Node.readCharset at h ⊢
  obtain ⟨hbody, hclosed⟩ := List.append_eq_nil_iff.1 h
  cases s with
  | nil =>
    rw [List.head?_nil] at hclosed
    simp [ClassBody.read] at hclosed
  | cons c rest =>
    by_cases hc : c = '^'
    · subst hc
      have hsame : ClassBody.read (pos + 2) (rest ++ e :: t) = ClassBody.read (pos + 2) rest :=
        ClassBody.read_append he t (by simpa using hclosed) (by simpa using hbody)
      simp [hsame]
    · have hsame : ClassBody.read (pos + 1) (c :: rest ++ e :: t) = ClassBody.read (pos + 1) (c :: rest) :=
        ClassBody.read_append he t (by simpa [hc] using hclosed) (by simpa [hc] using hbody)
      rw [List.cons_append] at hsame
      simp [hc, hsame]

/-! ## Tokens -/

namespace Token

theorem readEscape_append {pos : Nat} {s : List Char} (h : (readEscape pos s).2 = []) :
    readEscape pos (s ++ e :: t) = readEscape pos s := by
  have houtside := Escape.outside_append he t (trouble_eq_none h)
  unfold readEscape
  simp only [houtside, List.take_append_of_le_length (Escape.length_outside_le s)]

theorem readAtom_append {pos : Nat} {c : Char} {s : List Char} (h : (readAtom pos c s).2 = []) :
    readAtom pos c (s ++ e :: t) = readAtom pos c s := by
  unfold readAtom at h ⊢
  simp only [← List.cons_append, Bounds.braces?_append he t fun _ => List.cons_ne_nil c s]
  split_ifs at h ⊢ with hstart hfinish hdot hbracket hbackslash
  · rfl
  · rfl
  · rfl
  · exact Node.readCharset_append he t h
  · exact readEscape_append he t h
  · rfl
  · rfl

theorem withQuantifier_append (role : Role) (span : Span) (anomalies : List Anomaly) {s : List Char}
    (hs : e = '\x7b' → s ≠ []) :
    withQuantifier role span anomalies (s ++ e :: t) = withQuantifier role span anomalies s := by
  unfold withQuantifier
  rw [Quantifier.read?_append he t hs]
  cases s with
  | nil => simp [show e ≠ '\x7b' from fun h => hs h rfl]
  | cons c rest => rfl

/-- **A piece about which nothing is noted ends in front of a character that ends it**, or before. If this
is a brace, it could begin a quantifier, unless there is more text in front of it. -/
theorem read_append {pos : Nat} {c : Char} {s : List Char} (h : (read pos c s).anomalies = [])
    (hs : e = '\x7b' → (read pos c s).text ≠ c :: s) : read pos c (s ++ e :: t) = read pos c s := by
  unfold read at h hs ⊢
  split_ifs at h hs ⊢ with hbar hopen hclose
  · rfl
  · have hname : (Opening.read s).nameless = false := by
      cases hnameless : (Opening.read s).nameless with
      | false => rfl
      | true => simp [hnameless] at h
    rw [Opening.read_append he t hname]
  · refine withQuantifier_append he t _ _ _ fun hbrace hnil => hs hbrace ?_
    rw [hnil, hclose]
    rfl
  · have hnoted : (readAtom pos c s).2 = [] := by
      unfold ofAtom withQuantifier at h
      exact (List.append_eq_nil_iff.1 h).1
    obtain ⟨u, hu, hprefix⟩ := readAtom_text pos c s
    have hle : (readAtom pos c s).1.span.text.length ≤ (c :: s).length := by
      rw [hu]
      exact Nat.succ_le_succ hprefix.length_le
    rw [readAtom_append he t hnoted]
    simp only [ofAtom, ← List.cons_append, List.drop_append_of_le_length hle] at hs ⊢
    refine withQuantifier_append he t _ _ _ fun hbrace hnil => hs hbrace ?_
    have hwhole : u = s := by
      rw [hu, List.length_cons, List.drop_succ_cons, List.drop_eq_nil_iff] at hnil
      exact hprefix.eq_of_length_le hnil
    rw [hnil, text, withQuantifier, hu, hwhole]
    exact List.append_nil _

omit he in
/-- The pieces of a text are the first one and those of the text behind it. -/
theorem ofText_cons {pos : Nat} {c : Char} {rest after : List Char}
    (h : c :: rest = (read pos c rest).text ++ after) :
    ofText pos (c :: rest) =
      read pos c rest :: ofText (pos + byteLength (read pos c rest).text) after := by
  obtain ⟨u, hu, -⟩ := read_text pos c rest
  have hrest : rest = u ++ after := by
    rw [hu] at h
    exact (List.cons.inj h).2
  rw [ofText, hu, List.length_cons, Nat.add_sub_cancel]
  rw [hrest, List.drop_left]

omit he in
/-- A text in which nothing is noted has the same pieces in front of the end of a branch. -/
theorem ofText_append (he : EndsBranch e) {pos : Nat} {s : List Char}
    (h : ∀ token ∈ ofText pos s, token.anomalies = []) :
    ofText pos (s ++ e :: t) = ofText pos s ++ ofText (pos + byteLength s) (e :: t) := by
  fun_induction ofText pos s with
  | case1 => rfl
  | case2 pos c rest token ih =>
    obtain ⟨htoken, hrest⟩ := List.forall_mem_cons.1 h
    obtain ⟨u, hu, hprefix⟩ := read_text pos c rest
    obtain ⟨more, rfl⟩ := hprefix
    have hlength : token.text.length - 1 = u.length := by
      rw [show token.text = c :: u from hu]
      rfl
    rw [hlength, List.drop_left] at ih hrest
    have hsame := read_append (.inl he) t htoken fun hbrace => absurd hbrace he.ne_brace
    have hbehind : c :: (u ++ more ++ e :: t) = (read pos c (u ++ more ++ e :: t)).text ++ (more ++ e :: t) := by
      rw [hsame, hu, List.append_assoc]
      rfl
    have hpos : pos + byteLength token.text + byteLength more = pos + byteLength (c :: (u ++ more)) := by
      rw [show token.text = c :: u from hu, ← List.cons_append, byteLength_append, Nat.add_assoc]
    rw [List.cons_append, ofText_cons hbehind, hsame, ih hrest, hpos, hlength, List.drop_left]
    rfl

omit he

/-- A quantifier can belong to the piece. -/
def Role.isRepeatable : Role → Bool
  | .atom _ | .closing => true
  | .bar | .opening _ => false

/-- A piece that takes the whole text and has no quantifier takes the one in braces behind it. -/
theorem read_followed {pos : Nat} {c : Char} {s : List Char} (h : (read pos c s).anomalies = [])
    (hwhole : (read pos c s).text = c :: s) (hrole : (read pos c s).role.isRepeatable = true)
    (hnone : (read pos c s).quantifier = none) {q : Quantifier} (hq : Quantifier.read? ('\x7b' :: t) = some q) :
    read pos c (s ++ '\x7b' :: t) = { read pos c s with quantifier := some q } := by
  have hnoted (pos : Nat) : malformedAt pos ('\x7b' :: t) = [] := by
    rw [malformedAt, hq]
    rfl
  have hbar : c ≠ '|' := by
    rintro rfl
    exact Bool.false_ne_true hrole
  have hopen : c ≠ '(' := by
    rintro rfl
    exact Bool.false_ne_true hrole
  by_cases hclose : c = ')'
  · subst hclose
    rw [read_closing] at h hwhole hnone
    have hnil : s = [] := by
      rw [text, quantifierText, hnone] at hwhole
      exact (List.cons.inj hwhole).2.symm
    rw [hnil, List.nil_append, read_closing, read_closing, hq, hnoted]
    rfl
  · obtain ⟨u, hu, behind, rfl⟩ := readAtom_text pos c s
    have hatom : c :: (u ++ behind) = (readAtom pos c (u ++ behind)).1.span.text ++ behind := by rw [hu]; rfl
    rw [read_atom hbar hopen hclose pos hatom] at h hwhole hnone ⊢
    have hnil : behind = [] := by
      rw [text, quantifierText, hnone, hu] at hwhole
      simpa using hwhole
    subst hnil
    obtain ⟨hclean, -⟩ := List.append_eq_nil_iff.1 h
    have hsame := readAtom_append (.inr rfl) t hclean
    have hfollowed : c :: (u ++ [] ++ '\x7b' :: t) =
        (readAtom pos c (u ++ [] ++ '\x7b' :: t)).1.span.text ++ '\x7b' :: t := by
      rw [hsame, hu, List.append_nil]
      rfl
    rw [read_atom hbar hopen hclose pos hfollowed, hsame, hq, hnoted]
    rfl

/-- **A quantifier behind a text.** If nothing is noted in the text, and its last piece can be repeated and
is not, then a quantifier in braces belongs to that piece, and changes no other one. -/
theorem ofText_quantified {pos : Nat} {s : List Char} (h : ∀ token ∈ ofText pos s, token.anomalies = [])
    {front : List Token} {last : Token} (hlast : ofText pos s = front ++ [last])
    (hrole : last.role.isRepeatable = true) (hnone : last.quantifier = none) {q : Quantifier}
    (hq : Quantifier.read? ('\x7b' :: t) = some q) (hwhole : q.text = '\x7b' :: t) :
    ofText pos (s ++ '\x7b' :: t) = front ++ [{ last with quantifier := some q }] := by
  fun_induction ofText pos s generalizing front with
  | case1 => exact absurd hlast.symm (List.append_ne_nil_of_right_ne_nil _ (List.cons_ne_nil _ _))
  | case2 pos c rest token ih =>
    obtain ⟨htoken, hrest⟩ := List.forall_mem_cons.1 h
    obtain ⟨u, hu, more, rfl⟩ := read_text pos c rest
    have htext : token.text = c :: u := hu
    have hlength : token.text.length - 1 = u.length := by
      rw [htext]
      rfl
    rw [hlength, List.drop_left] at ih hrest hlast
    cases more with
    | nil =>
      -- the piece is the last one
      rw [ofText] at hlast
      obtain ⟨rfl, hone⟩ := List.append_eq_singleton_iff.1 hlast.symm |>.elim id
        fun h => absurd h.2 (List.cons_ne_nil _ _)
      obtain rfl := (List.cons.inj hone).1
      have hread := read_followed t htoken (by rw [hu, List.append_nil]) hrole hnone hq
      have hspan : (read pos c (u ++ [])).span.text = c :: u := by
        rw [← hu, text, quantifierText, hnone]
        exact (List.append_nil _).symm
      have hall : c :: (u ++ [] ++ '\x7b' :: t) = (read pos c (u ++ [] ++ '\x7b' :: t)).text ++ [] := by
        rw [hread, text, quantifierText, hspan, Option.map_some, hwhole, Option.getD_some, List.append_nil,
          List.append_nil]
        rfl
      rw [List.cons_append, ofText_cons hall, ofText, hread]
      rfl
    | cons d behind =>
      have hne : (read pos c (u ++ d :: behind)).text ≠ c :: (u ++ d :: behind) := by
        rw [hu]
        simp
      have hsame := read_append (.inr rfl) t htoken fun _ => hne
      have hbehind : c :: (u ++ d :: behind ++ '\x7b' :: t) =
          (read pos c (u ++ d :: behind ++ '\x7b' :: t)).text ++ (d :: behind ++ '\x7b' :: t) := by
        rw [hsame, hu, List.append_assoc]
        rfl
      obtain _ | ⟨first, others⟩ := front
      · rw [ofText] at hlast
        exact absurd (List.cons.inj hlast).2 (List.cons_ne_nil _ _)
      · obtain ⟨rfl, hothers⟩ := List.cons.inj hlast
        rw [List.cons_append, ofText_cons hbehind, hsame, ih hrest hothers]
        rfl

end Token

end Pattern

end RegexDiagram
