import RegexDiagram.Pattern.Tree

/-!
# Reading a character class

A class is read up to the first closing bracket that does not belong to an escape. Two members with
a hyphen between them form a range, unless one of them begins like a set of characters: then the
hyphen is a member of its own.
-/

namespace RegexDiagram.Pattern

/-- A character or an escape of a class as read. -/
structure ClassAtom.Reading where
  atom : ClassAtom
  /-- An escape that begins like a set. -/
  beginsSet : Bool
  anomalies : List Anomaly

/-- The character `c`, or the escape it begins. -/
def ClassAtom.read (offset : Nat) (c : Char) (rest : List Char) : ClassAtom.Reading :=
  if c = '\\' then
    let escape := Escape.inside rest
    let span : Span := ⟨'\\' :: rest.take escape.length, offset⟩
    { atom :=
        match escape.shown with
        | .named meaning => .escape span meaning
        | .plain value => .literal span [value]
      beginsSet := Escape.beginsSet rest
      anomalies := (escape.trouble.map (Anomaly.mk offset)).toList }
  else { atom := .literal ⟨[c], offset⟩ [c], beginsSet := false, anomalies := [] }

/-- An atom is read from the front of the text and has its first character. -/
theorem ClassAtom.read_text (offset : Nat) (c : Char) (rest : List Char) :
    ∃ t, (ClassAtom.read offset c rest).atom.span.text = c :: t ∧ t <+: rest := by
  unfold ClassAtom.read
  split
  · next hc =>
    refine ⟨rest.take (Escape.inside rest).length, ?_, List.take_prefix ..⟩
    simp only [hc]
    split <;> rfl
  · exact ⟨[], rfl, List.nil_prefix⟩

/-- The member that begins with the character `c`, and what was noted on the way. -/
def Member.read (offset : Nat) (c : Char) (rest : List Char) : Member × List Anomaly :=
  let first := ClassAtom.read offset c rest
  let single := (Member.single first.atom, first.anomalies)
  let text := first.atom.span.text
  match (c :: rest).drop text.length with
  | '-' :: d :: more =>
    -- the hyphen ends the class or stands between sets: it is read again, as a member
    if d = ']' || first.beginsSet then single
    else
      let last := ClassAtom.read (offset + byteLength text + 1) d more
      if last.beginsSet then single
      else
        let span : Span := ⟨text ++ ['-'] ++ last.atom.span.text, offset⟩
        (.range span first.atom last.atom, first.anomalies ++ last.anomalies)
  | _ => single

/-- A member is read from the front of the text and has its first character. -/
theorem Member.read_text (offset : Nat) (c : Char) (rest : List Char) :
    ∃ t, (Member.read offset c rest).1.span.text = c :: t ∧ t <+: rest := by
  obtain ⟨t, ht, hp⟩ := ClassAtom.read_text offset c rest
  have single : ∃ u, (Member.single (ClassAtom.read offset c rest).atom).span.text = c :: u ∧
      u <+: rest := ⟨t, ht, hp⟩
  unfold Member.read
  simp only
  split
  · next d more hd =>
    split
    · exact single
    · split
      · exact single
      · obtain ⟨u, hu, hq⟩ := ClassAtom.read_text
          (offset + byteLength (ClassAtom.read offset c rest).atom.span.text + 1) d more
        have hrest : rest = t ++ '-' :: d :: more := by
          rw [ht, List.length_cons, List.drop_succ_cons] at hd
          rw [← hd]
          exact (List.prefix_iff_eq_append.1 hp).symm
        refine ⟨t ++ '-' :: d :: u, ?_, ?_⟩
        · simp only [Member.span, hu]
          simp [ht]
        · rw [hrest]
          exact (List.prefix_append_right_inj _).2 (by simpa using hq)
  · exact single

/-- The inside of a class as read, and whether its closing bracket was found. -/
structure ClassBody where
  members : List Member
  anomalies : List Anomaly
  closed : Bool

/-- The members of a class up to its closing bracket or the end of the text. -/
def ClassBody.read (offset : Nat) : List Char → ClassBody
  | [] => ⟨[], [], false⟩
  | c :: rest =>
    if c = ']' then ⟨[], [], true⟩
    else
      let (member, noted) := Member.read offset c rest
      let text := member.span.text
      let body := ClassBody.read (offset + byteLength text) (rest.drop (text.length - 1))
      ⟨member :: body.members, noted ++ body.anomalies, body.closed⟩
termination_by s => s.length
decreasing_by simp only [List.length_drop, List.length_cons]; omega

/-- The members of a class and its closing bracket are read from the front of the text. -/
theorem ClassBody.read_text (offset : Nat) (s : List Char) :
    (ClassBody.read offset s).members.flatMap (·.span.text) ++
      (if (ClassBody.read offset s).closed then [']'] else []) <+: s := by
  fun_induction ClassBody.read offset s with
  | case1 => exact List.nil_prefix
  | case2 => simp
  | case3 offset c rest hc member noted h text body ih =>
    obtain ⟨t, ht, hp⟩ := Member.read_text offset c rest
    rw [h] at ht
    have hl : text.length - 1 = t.length := by simp [text, show member.span.text = _ from ht]
    rw [hl] at ih
    simp only [List.flatMap_cons, show member.span.text = _ from ht, List.append_assoc,
      List.cons_append, List.cons_prefix_cons, true_and]
    rw [← List.prefix_iff_eq_append.1 hp]
    exact (List.prefix_append_right_inj _).2 (by simpa [body, hl] using ih)

/-- The class whose opening bracket is at the byte position `offset`, given what follows the
bracket. -/
def Node.readCharset (offset : Nat) (rest : List Char) : Node × List Anomaly :=
  let negated := rest.head? == some '^'
  let start : List Char := if negated then ['[', '^'] else ['[']
  let body := ClassBody.read (offset + start.length) (if negated then rest.tail else rest)
  let text := start ++ body.members.flatMap (·.span.text) ++ (if body.closed then [']'] else [])
  let unclosed := if body.closed then [] else [⟨offset, .unterminatedCharset⟩]
  (.charset ⟨text, offset⟩ negated body.members, body.anomalies ++ unclosed)

/-- A class is read from its opening bracket on, without a gap. -/
theorem Node.readCharset_text (offset : Nat) (rest : List Char) :
    ∃ t, (Node.readCharset offset rest).1.span.text = '[' :: t ∧ t <+: rest := by
  unfold Node.readCharset
  cases rest with
  | nil => exact ⟨_, rfl, by simpa using ClassBody.read_text _ []⟩
  | cons c more =>
    by_cases hc : c = '^'
    · subst hc
      exact ⟨_, rfl, by simpa using ClassBody.read_text _ more⟩
    · refine ⟨_, by simp [hc, Node.span]; rfl, ?_⟩
      simpa [hc] using ClassBody.read_text _ (c :: more)

end RegexDiagram.Pattern
