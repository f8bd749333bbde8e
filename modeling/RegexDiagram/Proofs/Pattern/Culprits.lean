import RegexDiagram.Proofs.Pattern.Lookahead
import RegexDiagram.Proofs.Pattern.Shapes
import RegexDiagram.Proofs.Text.Lines
import RegexDiagram.Proofs.Text.Slices
import Mathlib.Data.List.TakeWhile

/-!
# What an anomaly points at

An anomaly is noted at a character that shows what is wrong: the parenthesis of a group that is not closed, the
backslash of an escape. `Anomaly.Kind.Blames` says which character that is for each kind, and
`read_anomalies_blame` that it stands in the pattern where the anomaly is noted, and in the line and the column
that a strict reading reports.

The reader may have gone on before it notes something: the parenthesis of a group that is not closed is noted at
the end of the pattern. The invariant, `Nesting.Blamed`, knows from the text that the groups are read from where
they begin (`Nesting.Sound.at_group`).
-/

namespace RegexDiagram

/-! ## Lines and columns -/

/-- The line and the column at the end of some text are those of the character that follows: so many lines are
ended before it, and so many characters of its own line are. -/
theorem Pattern.Anomaly.endPosition_eq (before : List Char) {c : Char} (hc : c ≠ '\n') (after : List Char) :
    ∃ earlier left right later, splitLines (before ++ c :: after) = earlier ++ (left ++ c :: right) :: later ∧
      before = endLines earlier ++ left ∧ endPosition before = (earlier.length + 1, left.length + 1) := by
  induction before using lineInduction with
  | last before hbefore =>
    have hcolumn : before.reverse.takeWhile (· ≠ '\n') = before.reverse :=
      List.takeWhile_eq_self_iff.2 fun d hd => decide_eq_true fun hfeed =>
        hbefore (hfeed ▸ List.mem_reverse.1 hd)
    have hposition : endPosition before = (([] : List (List Char)).length + 1, before.length + 1) := by
      rw [endPosition, List.count_eq_zero.2 hbefore, hcolumn, List.length_reverse]
      rfl
    have hline {right : List Char} (hright : '\n' ∉ right) : '\n' ∉ before ++ c :: right := fun hmem =>
      (List.mem_append.1 hmem).elim hbefore fun hmem =>
        (List.mem_cons.1 hmem).elim (Ne.symm hc) hright
    -- the line goes on to the next line feed, if there is one
    by_cases hafter : '\n' ∈ after
    · obtain ⟨right, more, rfl, hright⟩ := List.eq_append_cons_of_mem hafter
      refine ⟨[], before, right, splitLines more, ?_, rfl, hposition⟩
      rw [← List.cons_append, ← List.append_assoc, splitLines_append (hline hright)]
      rfl
    · exact ⟨[], before, after, [], splitLines_of_notMem (hline hafter), rfl, hposition⟩
  | ended line before hline ih =>
    obtain ⟨earlier, left, right, later, hsplit, hbefore, hposition⟩ := ih
    have hcolumn : (line ++ '\n' :: before).reverse.takeWhile (· ≠ '\n') =
        before.reverse.takeWhile (· ≠ '\n') := by
      rw [List.reverse_append, List.reverse_cons, List.append_assoc, List.singleton_append,
        takeWhile_append_stop (by decide)]
    refine ⟨line :: earlier, left, right, later, ?_, ?_, ?_⟩
    · rw [List.append_assoc, List.cons_append, splitLines_append hline, hsplit, List.cons_append]
    · rw [endLines_cons, List.append_assoc, List.cons_append, ← hbefore]
    · obtain ⟨hrow, hplace⟩ := Prod.mk.inj hposition
      rw [endPosition, hcolumn, hplace, List.count_append, List.count_cons_self, List.count_eq_zero.2 hline,
        Nat.zero_add, hrow, List.length_cons]

namespace Pattern

/-! ## Culprits -/

/-- The character at which an anomaly is noted, by what stands before and behind it. -/
def Anomaly.Kind.Blames (before : List Char) (c : Char) (after : List Char) : Anomaly.Kind → Prop
  | .unterminatedGroup => c = '('
  | .unterminatedCharset => c = '['
  | .unmatchedParen => c = ')'
  | .malformedQuantifier => c = '\x7b'
  | .nothingToRepeat => c ∈ ['*', '+', '?', '\x7b']
  | .unknownEscape letter | .incompleteEscape letter =>
    c = '\\' ∧ after.head? = some letter ∧ letter.isAlphanum
  | .trailingBackslash => c = '\\' ∧ after = []
  | .unterminatedGroupName => c = '?' ∧ before.getLast? = some '(' ∧ after.head? = some '<'

/-- No anomaly is noted at a line feed. -/
theorem Anomaly.Kind.Blames.ne_feed {kind : Anomaly.Kind} {before after : List Char} {c : Char}
    (h : kind.Blames before c after) : c ≠ '\n' := by
  cases kind with
  | unknownEscape | incompleteEscape | trailingBackslash | unterminatedGroupName =>
    rw [h.1]
    decide
  | nothingToRepeat =>
    rintro rfl
    exact absurd (show '\n' ∈ ['*', '+', '?', '\x7b'] from h) (by decide)
  | _ =>
    rw [show c = _ from h]
    decide

/-- The anomaly is noted at its culprit in the pattern. -/
def Span.Blames (body : Span) (a : Anomaly) : Prop :=
  ∃ before c after, body.text = before ++ c :: after ∧ body.offset + byteLength before = a.offset ∧
    a.kind.Blames before c after

variable {body : Span} {pos : Nat}

/-- Most culprits are known by the text from them on. -/
theorem Span.At.blames {c : Char} {after : List Char} (hat : body.At pos (c :: after)) {kind : Anomaly.Kind}
    (h : ∀ before, kind.Blames before c after) : body.Blames ⟨pos, kind⟩ := by
  obtain ⟨before, htext, hpos⟩ := hat
  exact ⟨before, c, after, htext, hpos, h before⟩

/-- A brace behind a piece is noted where it stands. -/
theorem Span.At.blames_malformed {rest : List Char} (hat : body.At pos rest) :
    ∀ a ∈ malformedAt pos rest, body.Blames a := by
  unfold malformedAt
  split
  next hbrace =>
    obtain ⟨more, rfl⟩ := List.head?_eq_some_iff.1 (eq_of_beq (Bool.and_eq_true_iff.1 hbrace).2)
    exact List.forall_mem_singleton.2 (hat.blames fun _ => rfl)
  next => exact fun _ ha => absurd ha List.not_mem_nil

/-! ## Escapes -/

namespace Escape

/-- What is wrong with an escape is noted at its backslash and names the letter behind it. -/
theorem Judged.blames {begun allowed : List Char} (hbegun : begun.all Char.isAlphanum = true)
    {e : Escape} {c : Char} {rest : List Char} (h : e.Judged (troubleOf begun allowed) (c :: rest))
    (hstands : e.Stands c) {kind : Anomaly.Kind} (hkind : e.trouble = some kind) (before : List Char) :
    kind.Blames before '\\' (c :: rest) := by
  unfold Judged at h
  cases hshown : e.shown with
  | named meaning =>
    rw [hshown, hkind] at h
    exact absurd h (Option.some_ne_none _)
  | plain value =>
    have hjudged : some kind = troubleOf begun allowed [c] := by
      rw [hshown, hkind, (hstands value hshown).2] at h
      exact h
    rw [troubleOf] at hjudged
    split at hjudged
    next hmem =>
      obtain rfl := Option.some.inj hjudged
      exact ⟨rfl, rfl, List.all_eq_true.1 hbegun c hmem⟩
    next =>
      split at hjudged
      next hletter =>
        obtain rfl := Option.some.inj hjudged
        exact ⟨rfl, rfl, hletter.1⟩
      next => exact absurd hjudged (Option.some_ne_none _)

theorem outside_blames {s : List Char} {kind : Anomaly.Kind} (h : (outside s).trouble = some kind)
    (before : List Char) : kind.Blames before '\\' s := by
  cases s with
  | nil =>
    obtain rfl := Option.some.inj h
    exact ⟨rfl, rfl⟩
  | cons c rest => exact (outside_judged (c :: rest)).blames (by decide) (outside_stands c rest) h before

theorem inside_blames {s : List Char} {kind : Anomaly.Kind} (h : (inside s).trouble = some kind)
    (before : List Char) : kind.Blames before '\\' s := by
  cases s with
  | nil =>
    obtain rfl := Option.some.inj h
    exact ⟨rfl, rfl⟩
  | cons c rest => exact (inside_judged (c :: rest)).blames (by decide) (inside_stands c rest) h before

end Escape

/-- The trouble of an escape is noted where its backslash stands. -/
theorem Span.At.blames_trouble {rest : List Char} (hat : body.At pos ('\\' :: rest))
    {trouble : Option Anomaly.Kind} (h : ∀ kind, trouble = some kind → ∀ before, kind.Blames before '\\' rest) :
    ∀ a ∈ (trouble.map (Anomaly.mk pos)).toList, body.Blames a := by
  intro a ha
  obtain ⟨kind, hkind, rfl⟩ := Option.map_eq_some_iff.1 (Option.mem_toList.1 ha)
  exact hat.blames (h kind hkind)

/-! ## Classes -/

theorem ClassAtom.read_blames {c : Char} {rest : List Char} (hat : body.At pos (c :: rest)) :
    ∀ a ∈ (ClassAtom.read pos c rest).anomalies, body.Blames a := by
  unfold ClassAtom.read
  split
  next hc =>
    subst hc
    exact hat.blames_trouble fun _ => Escape.inside_blames
  next => exact fun _ ha => absurd ha List.not_mem_nil

theorem Member.read_blames {c : Char} {rest : List Char} (hat : body.At pos (c :: rest)) :
    ∀ a ∈ (Member.read pos c rest).2, body.Blames a := by
  obtain hread | ⟨d, more, stop, -, hdrop, rfl, hread⟩ := Member.read_cases pos c rest
  · rw [hread]
    exact ClassAtom.read_blames hat
  · rw [hread]
    exact List.forall_mem_append.2
      ⟨ClassAtom.read_blames hat, ClassAtom.read_blames (ClassAtom.at_last hat hdrop)⟩

theorem Node.readCharset_blames {rest : List Char} (hat : body.At pos ('[' :: rest)) :
    ∀ a ∈ (Node.readCharset pos rest).2, body.Blames a := by
  obtain ⟨negated, inner, read, hrest, hclass, hread⟩ := Node.readCharset_cases pos rest
  rw [hread]
  refine List.forall_mem_append.2 ⟨?_, ?_⟩
  · rw [hclass, ClassBody.read_anomalies, List.forall_mem_flatMap]
    intro member hmember
    obtain ⟨before, d, more, rfl, rfl⟩ := ClassBody.mem_members hmember
    rw [← Member.read_anomalies]
    rw [hrest] at hat
    exact Member.read_blames hat.behind.behind
  · split
    · exact fun _ ha => absurd ha List.not_mem_nil
    · exact List.forall_mem_singleton.2 (hat.blames fun _ => rfl)

/-! ## Atoms -/

theorem Token.readAtom_blames {c : Char} {rest : List Char} (hat : body.At pos (c :: rest)) :
    ∀ a ∈ (Token.readAtom pos c rest).2, body.Blames a := by
  by_cases hbackslash : c = '\\'
  · subst hbackslash
    exact hat.blames_trouble fun _ => Escape.outside_blames
  have hread := Token.readAtom_cases pos c rest
  generalize Token.readAtom pos c rest = read at hread ⊢
  cases hread with
  | charset => exact Node.readCharset_blames hat
  | escape | escaped => exact absurd rfl hbackslash
  | literal special =>
    intro a ha
    rw [List.mem_ite_nil_right, List.mem_singleton] at ha
    obtain ⟨hnothing, rfl⟩ := ha
    refine hat.blames fun _ => ?_
    obtain hmark | hbraces := hnothing
    · exact List.mem_append_left ['\x7b'] hmark
    · obtain rfl := Bounds.braces?_brace hbraces
      exact List.mem_append_right ['*', '+', '?'] (List.mem_singleton.2 rfl)
  | _ => exact fun _ ha => absurd ha List.not_mem_nil

/-! ## Groups -/

/-- The innermost open group begins with its parenthesis. -/
theorem Nesting.Sound.at_group {n : Nesting} {rest : List Char} {g : OpenGroup} {more : List OpenGroup}
    (h : n.Sound body.offset body.text pos rest) (hgroups : n.groups = g :: more) :
    ∃ following, body.At g.span.offset ('(' :: following) := by
  have henclosed := h.groups
  rw [hgroups] at henclosed
  obtain ⟨-, hopened, houtside, hmore⟩ := henclosed
  obtain ⟨marker, -, htext, -⟩ := hopened.marks
  -- in front of the parenthesis stands what was read of the alternation around the group
  obtain ⟨before, hbody, hbefore⟩ := hmore.split
  refine ⟨marker ++ (n.level.alternation.span.text ++ rest), before ++ g.outside.alternation.span.text, ?_, ?_⟩
  · rw [List.append_assoc, hbody, htext, List.cons_append]
  · rw [byteLength_append, ← Nat.add_assoc, hbefore, ← houtside.alternation_stop]
    rfl

/-- Behind the opening of a group whose name is begun and missing stands what it is noted for. -/
theorem Span.At.blames_opening {rest after : List Char} (hat : body.At pos ('(' :: rest))
    (marker : rest = (Token.Opening.read rest).marker ++ after) :
    ∀ a ∈ if (Token.Opening.read rest).nameless then [⟨pos + 1, .unterminatedGroupName⟩] else [],
      body.Blames a := by
  intro a ha
  rw [List.mem_ite_nil_right, List.mem_singleton, Token.Opening.read_nameless] at ha
  obtain ⟨⟨-, hmarker⟩, rfl⟩ := ha
  rw [hmarker] at marker
  obtain ⟨before, htext, rfl⟩ := hat
  refine ⟨before ++ ['('], '?', '<' :: after, ?_, ?_, rfl, List.getLast?_concat, rfl⟩
  · rw [htext, marker, List.append_assoc]
    rfl
  · rw [byteLength_append]
    rfl

/-! ## The whole pattern -/

/-- Everything noted so far is noted at its culprit. -/
structure Nesting.Blamed (body : Span) (n : Nesting) (pos : Nat) (rest : List Char) : Prop where
  sound : n.Sound body.offset body.text pos rest
  noted : ∀ a ∈ n.anomalies, body.Blames a

namespace Nesting.Blamed

theorem step {n n' : Nesting} {pos' : Nat} {s after : List Char} (effect : n.Effect pos s after n' pos')
    (h : n.Blamed body pos s) : n'.Blamed body pos' after := by
  refine ⟨h.sound.step effect, ?_⟩
  have hat : body.At pos s := h.sound.split
  cases effect with
  | bar => exact h.noted
  | opening marker => exact List.forall_mem_append.2 ⟨h.noted, hat.blames_opening marker⟩
  | @closing _ _ rest =>
    have hbehind : body.At (pos + 1) rest := Span.At.behind (s := [')']) hat
    exact List.forall_mem_append.2 ⟨h.noted, hbehind.blames_malformed⟩
  | @unmatched rest =>
    have hbehind : body.At (pos + 1) rest := Span.At.behind (s := [')']) hat
    refine List.forall_mem_append.2 ⟨List.forall_mem_append.2 ⟨h.noted, ?_⟩, hbehind.blames_malformed⟩
    exact List.forall_mem_singleton.2 (hat.blames fun _ => rfl)
  | @atom c rest behind _ _ _ _ hatom =>
    refine List.forall_mem_append.2 ⟨h.noted, List.forall_mem_append.2 ⟨Token.readAtom_blames hat, ?_⟩⟩
    have hstop : (Token.readAtom pos c rest).1.span.stop =
        pos + byteLength (Token.readAtom pos c rest).1.span.text := by
      rw [Span.stop, (Token.readAtom_lossless pos c rest).1]
    rw [hatom] at hat
    exact hstop ▸ hat.behind.blames_malformed

theorem closeLast {level : Level} {g : OpenGroup} {more : List OpenGroup} {anomalies : List Anomaly}
    (h : Nesting.Blamed body ⟨level, g :: more, anomalies⟩ pos []) :
    Nesting.Blamed body ⟨g.outside.add (g.close level []), more,
      anomalies ++ [⟨g.span.offset, .unterminatedGroup⟩]⟩ pos [] := by
  obtain ⟨following, hat⟩ := h.sound.at_group rfl
  exact ⟨h.sound.closeLast _,
    List.forall_mem_append.2 ⟨h.noted, List.forall_mem_singleton.2 (hat.blames fun _ => rfl)⟩⟩

end Nesting.Blamed

/-- Every anomaly of a pattern is noted at its culprit in the body. -/
theorem read_blamed (input : List Char) :
    ∀ a ∈ (read input).anomalies, (read input).root.alternation.span.Blames a := by
  rw [read_alternation_span, read_anomalies]
  obtain ⟨level, anomalies, stop, hblamed, hread⟩ := Alternation.ofText_eq Nesting.Blamed.step
    Nesting.Blamed.closeLast ⟨Nesting.sound_start (bodySpan input).offset (bodySpan input).text,
      fun _ ha => absurd ha List.not_mem_nil⟩
  rw [hread]
  exact hblamed.noted

/-- **An anomaly points at its culprit.** It is noted at a character of the body, which is the one that its kind
speaks of, and the line and the column that a strict reading reports are those of this character in the input. -/
theorem read_anomalies_blame (input : List Char) {a : Anomaly} (h : a ∈ (read input).anomalies) :
    ∃ before c after,
      (read input).root.alternation.span.text = before ++ c :: after ∧
      (read input).root.alternation.span.offset + byteLength before = a.offset ∧
      a.kind.Blames before c after ∧
      ∃ earlier left right later,
        splitLines input = earlier ++ (left ++ c :: right) :: later ∧
        byteLength (endLines earlier ++ left) = a.offset ∧
        a.toFailure input = .parse a.kind.message (earlier.length + 1) (left.length + 1) := by
  obtain ⟨before, c, after, htext, hoffset, hblames⟩ := read_blamed input a h
  obtain ⟨front, back, hinput, hfront⟩ := read_body_within input
  refine ⟨before, c, after, htext, hoffset, hblames, ?_⟩
  have hsplit : input = (front ++ before) ++ c :: (after ++ back) := by
    rw [hinput, htext]
    simp only [List.append_assoc, List.cons_append]
  obtain ⟨earlier, left, right, later, hlines, hbefore, hposition⟩ :=
    Anomaly.endPosition_eq (front ++ before) hblames.ne_feed (after ++ back)
  have hbytes : byteLength (front ++ before) = a.offset := by
    rw [byteLength_append, hfront, hoffset]
  refine ⟨earlier, left, right, later, hsplit ▸ hlines, hbefore ▸ hbytes, ?_⟩
  rw [Anomaly.toFailure, Anomaly.position, ← hbytes, hsplit, beforeByte?_append, Option.getD_some, hposition]

/-- A backslash on the second line of an input, behind a character of two bytes. -/
theorem read_anomalies_blame_escape :
    ⟨5, .incompleteEscape 'k'⟩ ∈ (read "/é(\n\\k/g".toList).anomalies ∧
    ∃ before c after,
      (read "/é(\n\\k/g".toList).root.alternation.span.text = before ++ c :: after ∧
      (read "/é(\n\\k/g".toList).root.alternation.span.offset + byteLength before = 5 ∧
      (Anomaly.Kind.incompleteEscape 'k').Blames before c after ∧
      ∃ earlier left right later,
        splitLines "/é(\n\\k/g".toList = earlier ++ (left ++ c :: right) :: later ∧
        byteLength (endLines earlier ++ left) = 5 ∧
        Anomaly.toFailure ⟨5, .incompleteEscape 'k'⟩ "/é(\n\\k/g".toList =
          .parse "incomplete escape \\k" (earlier.length + 1) (left.length + 1) := by
  have hmem : ⟨5, .incompleteEscape 'k'⟩ ∈ (read "/é(\n\\k/g".toList).anomalies := by decide +kernel
  exact ⟨hmem, read_anomalies_blame "/é(\n\\k/g".toList hmem⟩

end Pattern

end RegexDiagram
