import RegexDiagram.Pattern.Charset
import RegexDiagram.Proofs.Pattern.Escapes

/-!
# What is read in a class

The readers of the parts of a character class, each described once: which characters an atom takes,
when two atoms form a range, how the members follow one another, and what is noted about them.
-/

namespace RegexDiagram.Pattern

/-- The number of characters behind `c` that an escape in a class covers. -/
def covered (c : Char) (rest : List Char) : Nat :=
  if c = '\\' then (Escape.inside rest).length else 0

namespace ClassAtom

/-- An atom of a class is its first character and what an escape covers. -/
theorem read_covered (offset : Nat) (c : Char) (rest : List Char) :
    (ClassAtom.read offset c rest).atom.span.text = c :: rest.take (covered c rest) := by
  unfold ClassAtom.read covered
  split
  next hc =>
    simp only [hc]
    split <;> rfl
  next => rfl

theorem read_offset (offset : Nat) (c : Char) (rest : List Char) :
    (ClassAtom.read offset c rest).atom.span.offset = offset := by
  unfold ClassAtom.read
  split
  · simp only
    split <;> rfl
  · rfl

theorem read_ne_nil (offset : Nat) (c : Char) (rest : List Char) :
    (ClassAtom.read offset c rest).atom.span.text ≠ [] := by
  rw [read_covered]
  exact List.cons_ne_nil _ _

/-- What stands behind an atom. -/
theorem drop_read (offset : Nat) (c : Char) (rest : List Char) :
    (c :: rest).drop (ClassAtom.read offset c rest).atom.span.text.length =
      rest.drop (covered c rest) := by
  have hrest : c :: rest =
      (ClassAtom.read offset c rest).atom.span.text ++ rest.drop (covered c rest) := by
    rw [read_covered, List.cons_append, List.take_append_drop]
  conv =>
    lhs
    rw [hrest]
  rw [List.drop_left]

end ClassAtom

/-- A range from one atom to another. -/
def ClassAtom.to (first last : ClassAtom) : Member :=
  .range ⟨first.span.text ++ ['-'] ++ last.span.text, first.span.offset⟩ first last

/-- A member is a single atom, or a range between two atoms of which the second one begins behind a
hyphen. -/
theorem Member.read_cases (offset : Nat) (c : Char) (rest : List Char) :
    Member.read offset c rest =
        (.single (ClassAtom.read offset c rest).atom, (ClassAtom.read offset c rest).anomalies) ∨
      ∃ d more stop, d ≠ ']' ∧ rest.drop (covered c rest) = '-' :: d :: more ∧
        stop = (ClassAtom.read offset c rest).atom.span.stop + 1 ∧
          Member.read offset c rest =
            ((ClassAtom.read offset c rest).atom.to (ClassAtom.read stop d more).atom,
              (ClassAtom.read offset c rest).anomalies ++ (ClassAtom.read stop d more).anomalies) := by
  unfold Member.read
  simp only [ClassAtom.drop_read]
  split
  next d more hd =>
    split
    next => exact .inl rfl
    next hset =>
      split
      next => exact .inl rfl
      next =>
        refine .inr ⟨d, more, _, ?_, hd, rfl, ?_⟩
        · rintro rfl
          exact hset rfl
        · rw [ClassAtom.to, Span.stop, ClassAtom.read_offset]
  next => exact .inl rfl

theorem Member.read_offset (offset : Nat) (c : Char) (rest : List Char) :
    (Member.read offset c rest).1.span.offset = offset := by
  rcases Member.read_cases offset c rest with hread | ⟨d, more, stop, -, -, -, hread⟩
  · rw [hread]
    exact ClassAtom.read_offset offset c rest
  · rw [hread]
    exact ClassAtom.read_offset offset c rest

/-- The characters that follow a member. -/
theorem Member.read_behind (offset : Nat) (c : Char) (rest : List Char) :
    c :: rest = (Member.read offset c rest).1.span.text ++
      rest.drop ((Member.read offset c rest).1.span.text.length - 1) := by
  obtain ⟨t, ht, hp⟩ := Member.read_text offset c rest
  rw [ht, List.length_cons, Nat.add_sub_cancel, List.cons_append, List.prefix_iff_eq_append.1 hp]

theorem Member.read_ne_nil (offset : Nat) (c : Char) (rest : List Char) :
    (Member.read offset c rest).1.span.text ≠ [] := by
  obtain ⟨t, ht, -⟩ := Member.read_text offset c rest
  rw [ht]
  exact List.cons_ne_nil c t

/-! ## The members of a class -/

namespace ClassBody

variable {offset : Nat} {s : List Char}

/-- The first member of a class and what is read behind it. -/
theorem members_cons {member : Member} {more : List Member}
    (h : (ClassBody.read offset s).members = member :: more) :
    ∃ c rest, s = c :: rest ∧ c ≠ ']' ∧ (Member.read offset c rest).1 = member ∧
      (ClassBody.read (offset + byteLength member.span.text)
        (rest.drop (member.span.text.length - 1))).members = more := by
  unfold ClassBody.read at h
  split at h
  next => exact absurd h (List.cons_ne_nil _ _).symm
  next c rest =>
    split at h
    next => exact absurd h (List.cons_ne_nil _ _).symm
    next hc =>
      obtain ⟨rfl, hmore⟩ := List.cons.inj h
      exact ⟨c, rest, rfl, hc, rfl, hmore⟩

/-- The last members of a class are read as those of a class, from where they stand. -/
theorem members_append {front back : List Member} (h : (ClassBody.read offset s).members = front ++ back) :
    ∃ before after, s = before ++ after ∧ (ClassBody.read (offset + byteLength before) after).members = back := by
  induction front generalizing offset s with
  | nil => exact ⟨[], s, rfl, h⟩
  | cons member front ih =>
    obtain ⟨c, rest, rfl, -, hmember, hmore⟩ := members_cons h
    obtain ⟨before, after, hrest, hback⟩ := ih hmore
    refine ⟨member.span.text ++ before, after, ?_, ?_⟩
    · rw [List.append_assoc, ← hrest, ← hmember]
      exact Member.read_behind offset c rest
    · rw [byteLength_append, ← Nat.add_assoc]
      exact hback

/-- Every member of a class is read by itself, where it stands. -/
theorem mem_members {member : Member} (h : member ∈ (ClassBody.read offset s).members) :
    ∃ before c rest, s = before ++ c :: rest ∧ (Member.read (offset + byteLength before) c rest).1 = member := by
  obtain ⟨front, back, hmembers⟩ := List.append_of_mem h
  obtain ⟨before, after, rfl, hafter⟩ := members_append hmembers
  obtain ⟨c, rest, rfl, -, hread, -⟩ := members_cons hafter
  exact ⟨before, c, rest, rfl, hread⟩

end ClassBody

/-- What stands in front of the members of a class. -/
def charsetStart (negated : Bool) : List Char := if negated then ['[', '^'] else ['[']

/-- A class has its start, the members behind it, and its closing bracket if there is one. A class
that is not closed is noted at its opening bracket. -/
theorem Node.readCharset_cases (offset : Nat) (rest : List Char) :
    ∃ negated inner body, '[' :: rest = charsetStart negated ++ inner ∧
      body = ClassBody.read (offset + byteLength (charsetStart negated)) inner ∧
        Node.readCharset offset rest =
          (.charset ⟨charsetStart negated ++ body.members.flatMap (·.span.text) ++
              (if body.closed then [']'] else []), offset⟩ negated body.members,
            body.anomalies ++ (if body.closed then [] else [⟨offset, .unterminatedCharset⟩])) := by
  by_cases hhead : rest.head? = some '^'
  · obtain ⟨more, rfl⟩ := List.head?_eq_some_iff.1 hhead
    exact ⟨true, more, _, rfl, rfl, rfl⟩
  · refine ⟨false, rest, _, rfl, rfl, ?_⟩
    unfold Node.readCharset
    rw [beq_eq_false_iff_ne.2 hhead]
    rfl

/-! ## What is noted -/

/-- What is wrong with an atom of a class, by its characters. -/
def ClassAtom.troubles : ClassAtom → List Anomaly
  | .literal span _ => Escape.troubles Escape.troubleInside span
  | .escape .. => []

/-- What is wrong with a member: a range is as good as its two ends. -/
def Member.troubles : Member → List Anomaly
  | .single atom => atom.troubles
  | .range _ first last => first.troubles ++ last.troubles

theorem ClassAtom.read_anomalies (offset : Nat) (c : Char) (rest : List Char) :
    (ClassAtom.read offset c rest).anomalies = (ClassAtom.read offset c rest).atom.troubles := by
  unfold ClassAtom.read
  split
  next hc =>
    simp only [(Escape.inside_judged rest).noted]
    cases (Escape.inside rest).shown <;> rfl
  next hc => exact (Escape.troubles_bare _ hc offset).symm

/-- The anomalies of a member are read off its atoms. What was noted about the end of a range that
is none is not among them. -/
theorem Member.read_anomalies (offset : Nat) (c : Char) (rest : List Char) :
    (Member.read offset c rest).2 = (Member.read offset c rest).1.troubles := by
  rcases Member.read_cases offset c rest with hread | ⟨d, more, stop, -, -, -, hread⟩
  · rw [hread]
    exact ClassAtom.read_anomalies offset c rest
  · rw [hread]
    simp only [ClassAtom.read_anomalies]
    rfl

theorem ClassBody.read_anomalies (offset : Nat) (s : List Char) :
    (ClassBody.read offset s).anomalies =
      (ClassBody.read offset s).members.flatMap Member.troubles := by
  fun_induction ClassBody.read offset s with
  | case1 => rfl
  | case2 => rfl
  | case3 offset c rest hc member noted hread text body ih =>
    have hnoted := Member.read_anomalies offset c rest
    rw [hread] at hnoted
    rw [List.flatMap_cons, ← ih]
    exact congrArg (· ++ body.anomalies) hnoted

theorem ClassAtom.isTrouble {atom : ClassAtom} {a : Anomaly} (h : a ∈ atom.troubles) :
    Escape.IsTrouble a.kind := by
  cases atom with
  | literal span value => exact (Escape.isTrouble_troubles h).1
  | escape span meaning => cases h

/-- Nothing but an escape can be wrong with a member. -/
theorem Member.isTrouble {member : Member} {a : Anomaly} (h : a ∈ member.troubles) :
    Escape.IsTrouble a.kind := by
  cases member with
  | single atom => exact ClassAtom.isTrouble h
  | range span first last => exact (List.mem_append.1 h).elim ClassAtom.isTrouble ClassAtom.isTrouble

end RegexDiagram.Pattern
