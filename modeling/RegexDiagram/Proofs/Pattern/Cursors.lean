import RegexDiagram.Proofs.Pattern.Slicing

/-!
# Cursors at escapes

A cursor goes through a window of a text by byte positions. Where it stands between two characters, what is in
front of it and what is behind it can be cut out; `read?_within` says that it stands so again behind each escape.
Every escape takes at least one character of a text that has one (`Escape.proceeds_read`).
-/

namespace RegexDiagram.Pattern

/-! ## Progress -/

namespace Escape

/-- The escape takes at least one character, and exactly one unless it has a name. -/
def Proceeds (e : Escape) : Prop := (∃ meaning length, e = named meaning (length + 1)) ∨ e.length = 1

theorem proceeds_named (meaning : Meaning) (length : Nat) : (named meaning (length + 1)).Proceeds :=
  .inl ⟨meaning, length, rfl⟩

theorem Proceeds.pos {e : Escape} (h : e.Proceeds) : 0 < e.length := by
  obtain ⟨meaning, length, rfl⟩ | h := h
  · exact Nat.succ_pos length
  · rw [h]
    exact Nat.one_pos

/-- An escape that stands for a character, or with which something is wrong, has no name. -/
theorem Proceeds.single {e : Escape} (h : e.Proceeds) (hplain : e.trouble ≠ none ∨ ∃ c, e.shown = .plain c) :
    e.length = 1 := by
  obtain ⟨meaning, length, rfl⟩ | h := h
  · obtain htrouble | ⟨c, hshown⟩ := hplain
    · exact absurd rfl htrouble
    · exact nomatch hshown
  · exact h

theorem proceeds_zero (rest : List Char) : (zero rest).Proceeds := by
  unfold zero
  simp only
  split <;> exact proceeds_named _ _

theorem proceeds_octal {c : Char} (hc : isOctalDigit c = true) (rest : List Char) :
    (octal (c :: rest)).Proceeds := by
  rw [octal, leading, List.take_succ_cons, List.takeWhile_cons_of_pos hc]
  exact proceeds_named _ _

theorem proceeds_control (rest : List Char) : (control rest).Proceeds := by
  unfold control
  split
  · split
    · exact proceeds_named _ _
    · exact .inr rfl
  · exact .inr rfl

theorem proceeds_hex (rest : List Char) : (hex rest).Proceeds := by
  unfold hex
  simp only
  split
  · exact proceeds_named _ _
  · exact .inr rfl

theorem proceeds_unicode (rest : List Char) : (unicode rest).Proceeds := by
  unfold unicode
  split
  all_goals
    simp only
    split
    · exact proceeds_named _ _
    · exact .inr rfl

theorem proceeds_bracketed (letter opening closing : Char) (meaning : List Char → Meaning) (rest : List Char) :
    (bracketed letter opening closing meaning rest).Proceeds := by
  fun_cases bracketed letter opening closing meaning rest with
  | case3 => exact proceeds_named _ _
  | _ => exact .inr rfl

theorem proceeds_shared (c : Char) (rest : List Char) : (shared c rest).Proceeds :=
  shared_cases (P := fun _ e => e.Proceeds) (fun _ => proceeds_named _ _) (proceeds_zero rest)
    (proceeds_control rest) (proceeds_hex rest) (proceeds_unicode rest)
    (fun negated => property_eq negated rest ▸ proceeds_bracketed _ _ _ _ rest)
    (fun c => .inr (length_identity c)) c

theorem length_read_le (inClass : Bool) (s : List Char) : (read inClass s).length ≤ s.length := by
  cases inClass with
  | false => exact length_outside_le s
  | true => exact length_inside_le s

theorem proceeds_read (inClass : Bool) {s : List Char} (hs : s ≠ []) : (read inClass s).Proceeds := by
  obtain ⟨c, rest, rfl⟩ := List.exists_cons_of_ne_nil hs
  cases inClass with
  | false =>
    show (outside (c :: rest)).Proceeds
    rw [outside]
    split_ifs
    · exact proceeds_named _ _
    · exact proceeds_named _ _
    · exact namedBackReference_eq rest ▸ proceeds_bracketed _ _ _ _ rest
    · exact proceeds_named _ _
    · exact proceeds_shared c rest
  | true =>
    show (inside (c :: rest)).Proceeds
    rw [inside]
    split_ifs with hbackspace hletter hdigit
    · exact proceeds_named _ _
    · exact .inr rfl
    · exact proceeds_octal (isOctalDigit_of_between hdigit.1 hdigit.2) rest
    · exact proceeds_shared c rest

end Escape

/-! ## Cursors -/

/-- A place in a window of a text, by byte positions. The window ends at `stop`. -/
structure Cursor where
  input : List Char
  pos : Nat
  stop : Nat

namespace Cursor

/-- The text from the cursor to the end of its window. -/
def rest? (c : Cursor) : Option (List Char) := slice? c.pos c.stop c.input

/-- The text from a position to the cursor. -/
def since? (c : Cursor) (start : Nat) : Option (List Char) := slice? start c.pos c.input

/-- The escape whose backslash is at `start` and behind the cursor: its characters, how it is shown, what is
noted, and the cursor behind it. -/
def escape? (c : Cursor) (inClass : Bool) (start : Nat) :
    Option (Span × Escape.Shown × List Anomaly × Cursor) := do
  let escape ← ByteEscape.read? inClass (← c.rest?)
  let next : Cursor := { c with pos := c.pos + escape.size }
  let text ← next.since? start
  return (⟨text, start⟩, escape.shown, (escape.trouble.map (Anomaly.mk start)).toList, next)

variable {c : Cursor} {start : Nat} {front taken rest : List Char}

/-- A cursor moves over some of the text in front of it. -/
theorem rest?_moved (h : c.rest? = some (taken ++ rest)) :
    rest? { c with pos := c.pos + byteLength taken } = some rest := by
  obtain ⟨before, after, hinput, hpos, hstop⟩ := slice?_eq_some_iff.1 h
  refine slice?_eq_some_iff.2 ⟨before ++ taken, after, ?_, ?_, ?_⟩
  · rw [hinput]
    simp only [List.append_assoc]
  · rw [byteLength_append, hpos]
  · rw [hstop, byteLength_append, Nat.add_assoc]

theorem since?_moved (hfront : c.since? start = some front) (hrest : c.rest? = some (taken ++ rest)) :
    since? { c with pos := c.pos + byteLength taken } start = some (front ++ taken) := by
  obtain ⟨before, after, hinput, hstart, hpos⟩ := slice?_eq_some_iff.1 hfront
  obtain ⟨before', after', hinput', hpos', -⟩ := slice?_eq_some_iff.1 hrest
  have hsplit : before ++ front = before' := by
    have hbehind := beforeByte?_append (before ++ front) after
    rw [← hinput, byteLength_append, ← hstart, ← hpos, hpos', hinput', List.append_assoc,
      beforeByte?_append] at hbehind
    exact (Option.some.inj hbehind).symm
  refine slice?_eq_some_iff.2 ⟨before, rest ++ after', ?_, hstart, ?_⟩
  · rw [hinput', ← hsplit]
    simp only [List.append_assoc]
  · rw [byteLength_append, hpos, Nat.add_assoc]

/-- A cursor behind a backslash moves over the escape, and both ends of the escape are between two
characters. -/
theorem escape?_eq {inClass : Bool} {e : ByteEscape} {s : List Char} (hstart : c.since? start = some ['\\'])
    (hrest : c.rest? = some s) (h : ByteEscape.read? inClass s = some e) (hs : s = taken ++ rest)
    (hsize : e.size = byteLength taken) :
    c.escape? inClass start = some (⟨'\\' :: taken, start⟩, e.shown,
      (e.trouble.map (Anomaly.mk start)).toList, { c with pos := c.pos + byteLength taken }) := by
  rw [escape?, hrest]
  simp only [Option.bind_eq_bind, Option.bind_some, h, hsize, since?_moved hstart (hs ▸ hrest)]
  rfl

end Cursor

/-- **Escapes are read within bounds.** Both readers cut the text between characters only, and every run of
digits that they find is a number. An escape is made of whole characters of the text, at least one unless the
text is empty, and exactly one if the escape stands for a character or something is wrong with it. So a cursor
behind a backslash that stands between two characters of its window does so again behind the escape, in the
same window. -/
theorem read?_within (inClass : Bool) (s : List Char) :
    let e := Escape.read inClass s
    ∃ taken rest, s = taken ++ rest ∧ taken.length = e.length ∧
      ByteEscape.read? inClass s = some ⟨e.shown, byteLength taken, e.trouble⟩ ∧
      (byteLength taken = 0 ↔ s = []) ∧
      (s ≠ [] → (e.trouble ≠ none ∨ ∃ c, e.shown = .plain c) → ∃ c, taken = [c]) ∧
      ∀ (c : Cursor) (start : Nat), c.since? start = some ['\\'] → c.rest? = some s →
        ∃ next, c.escape? inClass start = some (⟨'\\' :: taken, start⟩, e.shown,
            (e.trouble.map (Anomaly.mk start)).toList, next) ∧
          next.input = c.input ∧ next.stop = c.stop ∧ next.rest? = some rest := by
  intro e
  have hread := ByteEscape.read?_eq inClass s
  have hsplit := (List.take_append_drop e.length s).symm
  have hlength : (s.take e.length).length = e.length := List.length_take_of_le (Escape.length_read_le inClass s)
  refine ⟨s.take e.length, s.drop e.length, hsplit, hlength, hread, ?_, fun hne h => ?_,
    fun c start hstart hrest => ?_⟩
  · refine ⟨fun hzero => not_not.1 fun hne => ?_, fun hnil => by rw [hnil, List.take_nil, byteLength_nil]⟩
    have hpos := (Escape.proceeds_read inClass hne).pos
    have htaken : s.take e.length ≠ [] := mt List.take_eq_nil_iff.1 (not_or.2 ⟨Nat.ne_of_gt hpos, hne⟩)
    exact Nat.ne_of_gt (byteLength_pos htaken) hzero
  · obtain ⟨c, rest, rfl⟩ := List.exists_cons_of_ne_nil hne
    exact ⟨c, by rw [(Escape.proceeds_read inClass hne).single h, List.take_succ_cons, List.take_zero]⟩
  · exact ⟨_, Cursor.escape?_eq hstart hrest hread hsplit rfl, rfl, rfl,
      Cursor.rest?_moved (hrest.trans (congrArg some hsplit))⟩

end RegexDiagram.Pattern
