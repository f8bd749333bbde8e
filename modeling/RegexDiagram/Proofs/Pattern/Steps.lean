import RegexDiagram.Pattern.Nesting

/-!
# Steps of the reader

What one token does to the state of the reader, said once. `Nesting.Effect` has one case for each
kind of piece, with the text before and after it, and `Nesting.step_effect` says that every token
that is read has one of these effects. Invariants of the reader are proved by cases on the effect,
and `Nesting.foldl_ofText` carries them from the first character to the last.
-/

namespace RegexDiagram.Pattern

/-! ## Quantifiers behind a piece -/

/-- The characters of a quantifier, if there is one. -/
def quantifierChars (quantifier : Option Quantifier) : List Char :=
  (quantifier.map (·.text)).getD []

/-- What is noted behind a piece: a brace that begins no quantifier. -/
def malformedAt (pos : Nat) (rest : List Char) : List Anomaly :=
  if (Quantifier.read? rest).isNone && rest.head? == some '\x7b' then [⟨pos, .malformedQuantifier⟩]
  else []

/-! ## Tokens by their first character -/

namespace Token

theorem read_closing (pos : Nat) (rest : List Char) :
    read pos ')' rest =
      ⟨.closing, ⟨[')'], pos⟩, Quantifier.read? rest, malformedAt (pos + 1) rest⟩ := rfl

/-- A character that no group and no branch depends on begins an atom. The text behind the atom
decides on its quantifier. -/
theorem read_atom {c : Char} (hbar : c ≠ '|') (hopen : c ≠ '(') (hclose : c ≠ ')') (pos : Nat)
    {rest behind : List Char}
    (h : c :: rest = (readAtom pos c rest).1.span.text ++ behind) :
    read pos c rest =
      ⟨.atom (readAtom pos c rest).1, (readAtom pos c rest).1.span, Quantifier.read? behind,
        (readAtom pos c rest).2 ++ malformedAt (readAtom pos c rest).1.span.stop behind⟩ := by
  unfold read ofAtom
  rw [if_neg hbar, if_neg hopen, if_neg hclose]
  simp only
  conv => lhs; rw [h]
  rw [List.drop_left]
  rfl

end Token

/-! ## Effects -/

namespace Nesting

/-- What reading one piece does: the state, the position and the text before it, and the text, the
state and the position behind it. -/
inductive Effect (n : Nesting) (pos : Nat) : List Char → List Char → Nesting → Nat → Prop
  | bar (after : List Char) :
    Effect n pos ('|' :: after) after
      ⟨n.level.nextBranch (pos + 1), n.groups, n.anomalies⟩ (pos + 1)
  | opening {rest after : List Char} (marker : rest = (Token.Opening.read rest).marker ++ after) :
    Effect n pos ('(' :: rest) after
      ⟨.opened (pos + 1 + byteLength (Token.Opening.read rest).marker),
        ⟨(Token.Opening.read rest).kind, ⟨'(' :: (Token.Opening.read rest).marker, pos⟩,
          n.level⟩ :: n.groups,
        n.anomalies ++ (if (Token.Opening.read rest).nameless then
          [⟨pos + 1, .unterminatedGroupName⟩] else [])⟩
      (pos + 1 + byteLength (Token.Opening.read rest).marker)
  | closing {g : OpenGroup} {more : List OpenGroup} {rest after : List Char}
      (groups : n.groups = g :: more)
      (quantifier : rest = quantifierChars (Quantifier.read? rest) ++ after) :
    Effect n pos (')' :: rest) after
      ⟨g.outside.add ((g.close n.level [')']).quantify (Quantifier.read? rest)), more,
        n.anomalies ++ malformedAt (pos + 1) rest⟩
      (pos + 1 + byteLength (quantifierChars (Quantifier.read? rest)))
  | unmatched {rest after : List Char} (groups : n.groups = [])
      (quantifier : rest = quantifierChars (Quantifier.read? rest) ++ after) :
    Effect n pos (')' :: rest) after
      ⟨n.level.add ((Node.literal ⟨[')'], pos⟩ [')']).quantify (Quantifier.read? rest)), [],
        n.anomalies ++ [⟨pos, .unmatchedParen⟩] ++ malformedAt (pos + 1) rest⟩
      (pos + 1 + byteLength (quantifierChars (Quantifier.read? rest)))
  | atom {c : Char} {rest behind after : List Char}
      (bar : c ≠ '|') (opening : c ≠ '(') (closing : c ≠ ')')
      (atom : c :: rest = (Token.readAtom pos c rest).1.span.text ++ behind)
      (quantifier : behind = quantifierChars (Quantifier.read? behind) ++ after) :
    Effect n pos (c :: rest) after
      ⟨n.level.add ((Token.readAtom pos c rest).1.quantify (Quantifier.read? behind)), n.groups,
        n.anomalies ++ ((Token.readAtom pos c rest).2 ++
          malformedAt (Token.readAtom pos c rest).1.span.stop behind)⟩
      (pos + byteLength (Token.readAtom pos c rest).1.span.text +
        byteLength (quantifierChars (Quantifier.read? behind)))

/-- Every token that is read has one of the effects. -/
theorem step_effect (n : Nesting) {pos : Nat} {c : Char} {rest after : List Char}
    (h : c :: rest = (Token.read pos c rest).text ++ after) :
    Effect n pos (c :: rest) after (n.step (Token.read pos c rest))
      (pos + byteLength (Token.read pos c rest).text) := by
  by_cases hbar : c = '|'
  · subst hbar
    obtain rfl : rest = after := (List.cons.inj h).2
    have hstep : n.step (Token.read pos '|' rest) =
        ⟨n.level.nextBranch (pos + 1), n.groups, n.anomalies ++ []⟩ := rfl
    rw [hstep, List.append_nil]
    exact .bar rest
  by_cases hopen : c = '('
  · subst hopen
    have htext : (Token.read pos '(' rest).text = '(' :: (Token.Opening.read rest).marker :=
      List.append_nil _
    rw [htext] at h ⊢
    rw [byteLength_cons, ← Nat.add_assoc]
    have hstep := @Effect.opening n pos _ _ (List.cons.inj h).2
    rw [Nat.add_assoc] at hstep ⊢
    exact hstep
  by_cases hclose : c = ')'
  · subst hclose
    have htext : (Token.read pos ')' rest).text =
        ')' :: quantifierChars (Quantifier.read? rest) := rfl
    rw [htext] at h ⊢
    have hrest := (List.cons.inj h).2
    rw [byteLength_cons, ← Nat.add_assoc, Token.read_closing]
    cases hgroups : n.groups with
    | nil =>
      have hstep := @Effect.unmatched n pos _ _ hgroups hrest
      rw [step]
      simp only [hgroups]
      exact hstep
    | cons g more =>
      have hstep := @Effect.closing n pos _ _ _ _ hgroups hrest
      rw [step]
      simp only [hgroups]
      exact hstep
  · obtain ⟨t, ht, hp⟩ := Token.readAtom_text pos c rest
    obtain ⟨behind, hbehind⟩ := hp
    have hatom : c :: rest = (Token.readAtom pos c rest).1.span.text ++ behind := by
      rw [ht, ← hbehind]
      rfl
    have htoken := Token.read_atom hbar hopen hclose pos hatom
    have htext : (Token.read pos c rest).text =
        (Token.readAtom pos c rest).1.span.text ++ quantifierChars (Quantifier.read? behind) := by
      rw [htoken]
      rfl
    rw [htext, hatom, List.append_assoc] at h
    rw [htext, byteLength_append, ← Nat.add_assoc, htoken]
    exact .atom hbar hopen hclose hatom (List.append_cancel_left h)

/-- Induction over a text that is read: what holds of the first state and is kept by every effect
holds of the last state. The invariant speaks of the position and of the text that is left. -/
theorem foldl_ofText {I : Nesting → Nat → List Char → Prop}
    (step : ∀ {n pos s after n' pos'}, Effect n pos s after n' pos' → I n pos s → I n' pos' after)
    {n : Nesting} {pos : Nat} {s : List Char} (h : I n pos s) :
    ∃ stop, I ((Token.ofText pos s).foldl Nesting.step n) stop [] := by
  fun_induction Token.ofText pos s generalizing n with
  | case1 pos => exact ⟨pos, h⟩
  | case2 pos c rest token =>
    rename_i ih
    obtain ⟨t, ht, hp⟩ := Token.read_text pos c rest
    refine ih (step (step_effect n ?_) h)
    rw [ht, List.length_cons, Nat.add_sub_cancel, List.cons_append,
      List.prefix_iff_eq_append.1 hp]

/-- Induction over the groups that are open at the end: what is kept when the innermost of them is
ended without a parenthesis holds once none is left. -/
theorem finish_eq {I : Nesting → Prop}
    (close : ∀ {level : Level} {g : OpenGroup} {more : List OpenGroup} {anomalies : List Anomaly},
      I ⟨level, g :: more, anomalies⟩ →
        I ⟨g.outside.add (g.close level []), more,
          anomalies ++ [⟨g.span.offset, .unterminatedGroup⟩]⟩)
    {n : Nesting} (h : I n) :
    ∃ level anomalies, I ⟨level, [], anomalies⟩ ∧ n.finish = (level.alternation, anomalies) := by
  obtain ⟨level, groups, anomalies⟩ := n
  induction groups generalizing level anomalies with
  | nil => exact ⟨level, anomalies, h, by simp only [finish, closeAll, List.append_nil]⟩
  | cons g more ih =>
    obtain ⟨last, noted, hlast, hfinish⟩ := ih _ _ (close h)
    refine ⟨last, noted, hlast, ?_⟩
    rw [← hfinish]
    simp only [finish, closeAll, List.append_assoc, List.singleton_append]

end Nesting

/-- Induction over a whole pattern: an invariant that holds at its start and is kept by every effect
and by the end of an open group holds of the alternation and the anomalies of the pattern. -/
theorem Alternation.ofText_eq {I : Nesting → Nat → List Char → Prop}
    (step : ∀ {n pos s after n' pos'}, n.Effect pos s after n' pos' → I n pos s → I n' pos' after)
    (close : ∀ {level : Level} {g : OpenGroup} {more : List OpenGroup} {anomalies : List Anomaly}
      {stop : Nat}, I ⟨level, g :: more, anomalies⟩ stop [] →
        I ⟨g.outside.add (g.close level []), more,
          anomalies ++ [⟨g.span.offset, .unterminatedGroup⟩]⟩ stop [])
    {start : Nat} {body : List Char} (h : I (.start start) start body) :
    ∃ level anomalies stop, I ⟨level, [], anomalies⟩ stop [] ∧
      Alternation.ofText start body = (level.alternation, anomalies) := by
  obtain ⟨stop, hread⟩ := Nesting.foldl_ofText step h
  obtain ⟨level, anomalies, hlast, hfinish⟩ :=
    @Nesting.finish_eq (fun n => I n stop []) close _ hread
  exact ⟨level, anomalies, stop, hlast, hfinish⟩

end RegexDiagram.Pattern
