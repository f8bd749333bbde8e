import RegexDiagram.Proofs.Pattern.Built

/-!
# Ranges in classes

Two members with a hyphen between them are a range, unless one of them begins like a set of characters. The
escapes that begin like a set are those that stand for one, and two that do not: a property whose name is
missing or not closed is the letter itself, and bounds no range either (`ClassAtom.read_beginsSet`).

`read_ranges` says of all classes of a pattern that no end of a range begins like a set, and that a hyphen
between two members was only left where one of them does.
-/

namespace RegexDiagram.Pattern

/-! ## Escapes that begin like a set -/

/-- The escape stands for a set of characters. -/
def Escape.isSet (e : Escape) : Bool :=
  match e.shown with
  | .named meaning => meaning.isSet
  | .plain _ => false

namespace Escape

variable {c : Char} {rest : List Char}

theorem beginsSet_of_letterMeaning {meaning : Meaning} (h : letterMeaning? c = some meaning)
    (hset : meaning.isSet = true) : beginsSet (c :: rest) = true := by
  unfold letterMeaning? at h
  split at h
  all_goals cases h
  all_goals first | rfl | exact absurd hset Bool.false_ne_true

theorem isSet_zero (rest : List Char) : (zero rest).isSet = false := by
  unfold zero
  simp only
  split <;> rfl

theorem isSet_control (rest : List Char) : (control rest).isSet = false := by
  unfold control
  split
  · split <;> rfl
  · rfl

theorem isSet_hex (rest : List Char) : (hex rest).isSet = false := by
  unfold hex
  simp only
  split <;> rfl

theorem isSet_unicode (rest : List Char) : (unicode rest).isSet = false := by
  unfold unicode
  split
  all_goals
    simp only
    split <;> rfl

theorem isSet_identity (c : Char) : (identity c).isSet = false := by
  unfold identity
  split <;> rfl

/-- Numbers, control characters and characters that stand for themselves are no sets, and what is left begins
like one. -/
theorem beginsSet_of_isSet_shared (c : Char) (rest : List Char) (h : (shared c rest).isSet = true) :
    beginsSet (c :: rest) = true := by
  have hother {c : Char} {e : Escape} (he : e.isSet = false) (hset : e.isSet = true) :
      beginsSet (c :: rest) = true := absurd hset (Bool.eq_false_iff.1 he)
  refine shared_cases (P := fun c e => e.isSet = true → beginsSet (c :: rest) = true)
    (fun hmeaning hset => beginsSet_of_letterMeaning hmeaning hset) (hother (isSet_zero rest))
    (hother (isSet_control rest)) (hother (isSet_hex rest)) (hother (isSet_unicode rest))
    (fun negated _ => ?_) (fun c => hother (isSet_identity c)) c h
  cases negated <;> rfl

/-- An escape in a class that stands for a set begins like one. -/
theorem beginsSet_of_isSet (h : (inside (c :: rest)).isSet = true) : beginsSet (c :: rest) = true := by
  rw [inside] at h
  split_ifs at h
  · exact absurd h Bool.false_ne_true
  · exact absurd h Bool.false_ne_true
  · exact absurd h Bool.false_ne_true
  · exact beginsSet_of_isSet_shared c rest h

/-- An escape in a class that begins like a set stands for one, or it is the letter of a property that is
not completed. -/
theorem isSet_of_beginsSet (h : beginsSet (c :: rest) = true) :
    (inside (c :: rest)).isSet = true ∨
      (c = 'p' ∨ c = 'P') ∧ inside (c :: rest) = incomplete c := by
  have hletters : c ∈ ['d', 'D', 's', 'S', 'w', 'W', 'p', 'P'] := of_decide_eq_true h
  have hproperty (negated : Bool) (hc : inside (property.letter negated :: rest) = property negated rest) :
      (inside (property.letter negated :: rest)).isSet = true ∨
        inside (property.letter negated :: rest) = incomplete (property.letter negated) := by
    rw [hc]
    unfold property
    split
    · split
      · split
        · exact .inr rfl
        · exact .inl rfl
      · exact .inr rfl
    · exact .inr rfl
  simp only [List.mem_cons, List.not_mem_nil, or_false] at hletters
  obtain rfl | rfl | rfl | rfl | rfl | rfl | rfl | rfl := hletters
  iterate 6 exact .inl rfl
  · exact (hproperty false rfl).imp_right fun h => ⟨.inl rfl, h⟩
  · exact (hproperty true rfl).imp_right fun h => ⟨.inr rfl, h⟩

end Escape

/-! ## Atoms of a class -/

namespace ClassAtom

/-- The atom is an escape that stands for a set of characters. -/
def isSet : ClassAtom → Bool
  | .escape _ meaning => meaning.isSet
  | .literal .. => false

/-- The atom is the letter of a property that is not completed. -/
def isOpenProperty : ClassAtom → Bool
  | .literal span _ => span.text = ['\\', 'p'] ∨ span.text = ['\\', 'P']
  | .escape .. => false

/-- The atom is no end of a range. -/
def BoundsNone (atom : ClassAtom) : Prop := atom.isSet = true ∨ atom.isOpenProperty = true

variable (offset : Nat) (c : Char) (rest : List Char)

/-- An escape is a set if it stands for one. -/
theorem isSet_read :
    (ClassAtom.read offset '\\' rest).atom.isSet = (Escape.inside rest).isSet := by
  rw [ClassAtom.read, if_pos rfl, Escape.isSet]
  simp only
  cases (Escape.inside rest).shown <;> rfl

theorem beginsSet_of_isOpenProperty
    (h : (ClassAtom.read offset '\\' rest).atom.isOpenProperty = true) : Escape.beginsSet rest = true := by
  have htext : (ClassAtom.read offset '\\' rest).atom.span.text = ['\\', 'p'] ∨
      (ClassAtom.read offset '\\' rest).atom.span.text = ['\\', 'P'] := by
    generalize (ClassAtom.read offset '\\' rest).atom = atom at h ⊢
    cases atom with
    | literal span value => exact of_decide_eq_true h
    | escape span meaning => exact absurd h Bool.false_ne_true
  rw [read_covered, List.cons_inj_right, List.cons_inj_right] at htext
  cases rest with
  | nil => simp at htext
  | cons d more =>
    cases hcovered : covered '\\' (d :: more) with
    | zero => simp [hcovered] at htext
    | succ n =>
      rw [hcovered, List.take_succ_cons] at htext
      obtain htext | htext := htext <;> rw [(List.cons.inj htext).1] <;> rfl

/-- An atom begins like a set if it is no end of a range. -/
theorem read_beginsSet :
    (ClassAtom.read offset c rest).beginsSet = true ↔ (ClassAtom.read offset c rest).atom.BoundsNone := by
  by_cases hc : c = '\\'
  · subst hc
    have hbegins : (ClassAtom.read offset '\\' rest).beginsSet = Escape.beginsSet rest := by
      rw [ClassAtom.read, if_pos rfl]
    rw [hbegins, BoundsNone, isSet_read]
    constructor
    · intro h
      cases rest with
      | nil => exact absurd h Bool.false_ne_true
      | cons d more =>
        refine (Escape.isSet_of_beginsSet h).imp_right fun ⟨hletter, hopen⟩ => ?_
        rw [ClassAtom.read, if_pos rfl, hopen]
        obtain rfl | rfl := hletter <;> rfl
    · rintro (hset | hopen)
      · cases rest with
        | nil => exact absurd hset Bool.false_ne_true
        | cons d more => exact Escape.beginsSet_of_isSet hset
      · exact beginsSet_of_isOpenProperty offset rest hopen
  · rw [ClassAtom.read, if_neg hc]
    simp [BoundsNone, isSet, isOpenProperty]

/-- What stands behind an atom, counted from its second character. -/
theorem behind_read :
    rest.drop ((ClassAtom.read offset c rest).atom.span.text.length - 1) = rest.drop (covered c rest) := by
  rw [← drop_read offset, read_covered]
  rfl

end ClassAtom

/-! ## Members -/

/-- A member is a single atom, and a hyphen with an atom behind it only follows if one of the two bounds no
range; or it is a range, and both of its ends may be one. -/
theorem Member.read_formed (offset : Nat) (c : Char) (rest : List Char) :
    ((Member.read offset c rest).1 = .single (ClassAtom.read offset c rest).atom ∧
      ∀ d more, rest.drop (covered c rest) = '-' :: d :: more → d ≠ ']' →
        (ClassAtom.read offset c rest).atom.BoundsNone ∨
          (ClassAtom.read ((ClassAtom.read offset c rest).atom.span.stop + 1) d more).atom.BoundsNone) ∨
      ∃ stop d more,
        (Member.read offset c rest).1 =
            (ClassAtom.read offset c rest).atom.to (ClassAtom.read stop d more).atom ∧
          ¬ (ClassAtom.read offset c rest).atom.BoundsNone ∧ ¬ (ClassAtom.read stop d more).atom.BoundsNone := by
  unfold Member.read
  simp only [ClassAtom.drop_read]
  split
  next d more hdrop =>
    rw [hdrop]
    split
    next hset =>
      refine .inl ⟨rfl, fun d' more' htext hd => .inl ?_⟩
      obtain ⟨rfl, rfl⟩ := List.cons.inj (List.cons.inj htext).2
      exact (ClassAtom.read_beginsSet ..).1 ((Bool.or_eq_true_iff.1 hset).resolve_left (by simpa using hd))
    next hset =>
      split
      next hlast =>
        refine .inl ⟨rfl, fun d' more' htext hd => .inr ?_⟩
        obtain ⟨rfl, rfl⟩ := List.cons.inj (List.cons.inj htext).2
        rw [ClassAtom.read_beginsSet] at hlast
        rwa [Span.stop, ClassAtom.read_offset]
      next hlast =>
        rw [Bool.or_eq_true_iff, ClassAtom.read_beginsSet, not_or] at hset
        rw [ClassAtom.read_beginsSet] at hlast
        refine .inr ⟨_, d, more, ?_, hset.2, hlast⟩
        rw [ClassAtom.to, ClassAtom.read_offset]
  next hno => exact .inl ⟨rfl, fun d more htext _ => absurd htext (hno d more)⟩

/-- An atom that bounds no range is a member of its own. -/
theorem Member.read_of_boundsNone {offset : Nat} {c : Char} {rest : List Char}
    (h : (ClassAtom.read offset c rest).atom.BoundsNone) :
    (Member.read offset c rest).1 = .single (ClassAtom.read offset c rest).atom := by
  obtain ⟨hread, -⟩ | ⟨_, _, _, -, hfirst, -⟩ := Member.read_formed offset c rest
  · exact hread
  · exact absurd h hfirst

/-! ## Classes -/

/-- Ranges are formed where they can be: their ends bound ranges, and if a hyphen stands between two members
of which the first one is no range, then one of them bounds none. -/
structure RangesFormed (members : List Member) : Prop where
  ends : ∀ {span first last}, .range span first last ∈ members → ¬ first.BoundsNone ∧ ¬ last.BoundsNone
  between : ∀ {front x offset value y back},
    members = front ++ .single x :: .single (.literal ⟨['-'], offset⟩ value) :: y :: back →
      x.BoundsNone ∨ ∃ atom, y = .single atom ∧ atom.BoundsNone

/-- What is read as the members of a class has its ranges formed. -/
theorem ClassBody.read_rangesFormed (offset : Nat) (s : List Char) :
    RangesFormed (ClassBody.read offset s).members where
  ends {span first last} hmem := by
    obtain ⟨before, c, rest, -, hread⟩ := mem_members hmem
    obtain ⟨hsingle, -⟩ | ⟨stop, d, more, hto, hends⟩ :=
      Member.read_formed (offset + byteLength before) c rest
    · exact absurd (hread.symm.trans hsingle) Member.noConfusion
    · obtain ⟨-, rfl, rfl⟩ := Member.range.inj (hread.symm.trans hto)
      exact hends
  between {front x pos value y back} hmembers := by
    obtain ⟨before, after, -, hthree⟩ := members_append hmembers
    generalize offset + byteLength before = offset' at hthree
    obtain ⟨c, rest, -, -, hx, htwo⟩ := members_cons hthree
    obtain ⟨hyphen, behind, hrest, -, hhyphen, hone⟩ := members_cons htwo
    obtain ⟨d, more, hbehind, hd, hy, -⟩ := members_cons hone
    obtain ⟨t, htext, -⟩ := Member.read_text (offset' + byteLength (Member.single x).span.text) hyphen behind
    rw [hhyphen] at htext
    obtain ⟨rfl, -⟩ := List.cons.inj htext
    obtain ⟨hsingle, hcondition⟩ | ⟨stop, d, more, hto, -⟩ := Member.read_formed offset' c rest
    · obtain rfl := Member.single.inj (hx.symm.trans hsingle)
      have hdrop : rest.drop (covered c rest) = '-' :: d :: more := by
        rw [← ClassAtom.behind_read offset', ← hbehind]
        exact hrest
      have hstop : (ClassAtom.read offset' c rest).atom.span.stop + 1 =
          offset' + byteLength (ClassAtom.read offset' c rest).atom.span.text + byteLength ['-'] := by
        rw [Span.stop, ClassAtom.read_offset]
        rfl
      refine (hcondition d more hdrop hd).imp_right fun hlast => ⟨_, ?_, hlast⟩
      rw [hstop] at hlast ⊢
      exact hy.symm.trans (Member.read_of_boundsNone hlast)
    · exact absurd (hx.symm.trans hto) Member.noConfusion

/-- The ranges of a class are formed; other nodes have none. -/
def View.Ranged : View → Prop
  | .node (.charset _ _ members) => RangesFormed members
  | _ => True

theorem built_ranged (body : Span) : Built body View.Ranged where
  alternation _ _ _ := trivial
  empty _ := trivial
  item _ _ _ _ := trivial
  quantified _ _ := trivial
  group _ _ _ := trivial
  unmatched _ := trivial
  atom offset c rest hat := by
    refine Token.readAtom_views hat ?_ fun pos d more _ v hv => ?_
    · have hread := Token.readAtom_cases offset c rest
      generalize Token.readAtom offset c rest = read at hread ⊢
      cases hread with
      | charset =>
        obtain ⟨negated, inner, body, -, hbody, hread⟩ := Node.readCharset_cases offset rest
        rw [hread, hbody]
        exact ClassBody.read_rangesFormed _ inner
      | _ => exact trivial
    · obtain ⟨member, rfl⟩ := Member.eq_of_mem_views hv
      exact trivial

/-- **Ranges are formed where they can be.** In every class of a pattern the ends of a range bound ranges, and
a hyphen between two members, of which the first one is no range, was only left where one of them is a set of
characters or the letter of a property that is not completed. -/
theorem read_ranges (input : List Char) {span : Span} {negated : Bool} {members : List Member}
    (h : .node (.charset span negated members) ∈ (read input).root.descendants) : RangesFormed members := by
  obtain hroot | hview := List.mem_cons.1 h
  · exact absurd hroot View.noConfusion
  · exact read_built (built_ranged _) _ hview

/-- The members of a class. -/
def View.members? : View → Option (List Member)
  | .node (.charset _ _ members) => some members
  | _ => none

theorem View.eq_of_members? {v : View} {members : List Member} (h : v.members? = some members) :
    ∃ span negated, v = .node (.charset span negated members) := by
  unfold View.members? at h
  split at h
  next span negated found =>
    obtain rfl := Option.some.inj h
    exact ⟨span, negated, rfl⟩
  next => exact absurd h.symm (Option.some_ne_none _)

/-- A digit in front of a hyphen leaves the hyphen a member. -/
theorem read_ranges_digit :
    RangesFormed [.single (.escape ⟨['\\', 'd'], 1⟩ .digit), .single (.literal ⟨['-'], 3⟩ ['-']),
      .single (.literal ⟨['z'], 4⟩ ['z'])] := by
  have hclass : [.single (.escape ⟨['\\', 'd'], 1⟩ .digit), .single (.literal ⟨['-'], 3⟩ ['-']),
      .single (.literal ⟨['z'], 4⟩ ['z'])] ∈
        (read "[\\d-z]".toList).root.descendants.filterMap View.members? := by decide +kernel
  obtain ⟨v, hv, hmembers⟩ := List.mem_filterMap.1 hclass
  obtain ⟨span, negated, rfl⟩ := View.eq_of_members? hmembers
  exact read_ranges "[\\d-z]".toList hv

/-- The letter of a property that is not completed stands for itself and is no set, and still the hyphen behind
it is left a member. -/
theorem not_read_ranges_openProperty :
    ¬ ∀ span negated members front x offset value y back,
      .node (.charset span negated members) ∈ (read "[\\p-z]".toList).root.descendants →
        members = front ++ .single x :: .single (.literal ⟨['-'], offset⟩ value) :: y :: back →
          x.isSet = true ∨ ∃ atom, y = .single atom ∧ atom.isSet = true := by
  have hclass : [.single (.literal ⟨['\\', 'p'], 1⟩ ['p']), .single (.literal ⟨['-'], 3⟩ ['-']),
      .single (.literal ⟨['z'], 4⟩ ['z'])] ∈
        (read "[\\p-z]".toList).root.descendants.filterMap View.members? := by decide +kernel
  obtain ⟨v, hv, hmembers⟩ := List.mem_filterMap.1 hclass
  obtain ⟨span, negated, rfl⟩ := View.eq_of_members? hmembers
  intro h
  obtain hp | ⟨atom, hz, hset⟩ := h span negated _ [] _ _ _ _ _ hv rfl
  · exact absurd hp Bool.false_ne_true
  · cases hz
    exact absurd hset Bool.false_ne_true

end RegexDiagram.Pattern
