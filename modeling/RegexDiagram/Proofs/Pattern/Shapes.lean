import RegexDiagram.Proofs.Pattern.Ranges
import Mathlib.Data.List.Chain

/-!
# Shapes of trees

The types of a syntax tree admit more than the reader builds. `View.Shaped` rules out, node by node, what is
never built: an alternation without branches, a repetition of a repetition or with bounds out of order, a
literal of several characters, a group whose name is no name, a range that ends in a set of characters, and
an item without a quantifier in front of a literal that would be one.

`read_shaped` says it of every node of every pattern.
-/

namespace RegexDiagram.Pattern

/-! ## The shapes -/

/-- The value is one character, and the text is this character, by itself or behind a backslash. -/
def Spells (text value : List Char) : Prop := ∃ c, value = [c] ∧ (text = [c] ∨ text = ['\\', c])

/-- A name is not empty and made of letters, numbers, underscores and dollar signs. -/
def IsName (name : List Char) : Prop :=
  name ≠ [] ∧ ∀ c ∈ name, isAlphanumeric c = true ∨ c = '_' ∨ c = '$'

/-- If the first item is not repeated, then the second one is no quantifier: neither a mark, nor a brace that
begins a quantifier in the pattern. -/
def Node.Attached (body : Span) (item next : Node) : Prop :=
  item.isQuantified = false → ∀ span value, next.bare = .literal span value →
    span.text ∉ [['*'], ['+'], ['?']] ∧
      ¬ (span.text = ['\x7b'] ∧ (Bounds.braces? (body.onward span.offset)).isSome = true)

/-- What every node of a pattern is like. -/
def View.Shaped (body : Span) : View → Prop
  | .alternation a => a.branches ≠ []
  | .sequence s => s.items.IsChain (Node.Attached body)
  | .node (.quantified _ atom r) => atom.isQuantified = false ∧ r.Admitted
  | .node (.literal span value) => Spells span.text value
  | .node (.group _ (.named name) _) => IsName name
  | .member (.single (.literal span value)) => Spells span.text value
  | .member (.range _ first last) => ¬ first.BoundsNone ∧ ¬ last.BoundsNone
  | _ => True

/-! ## Quantifiers -/

/-- Where no quantifier can be read, neither a mark stands nor a brace that begins one. -/
theorem Quantifier.not_mark {s text : List Char} (h : Quantifier.read? s = none) (htext : text <+: s) :
    text ∉ [['*'], ['+'], ['?']] ∧ ¬ (text = ['\x7b'] ∧ (Bounds.braces? s).isSome = true) := by
  obtain ⟨after, rfl⟩ := htext
  have hbounds := Option.map_eq_none_iff.1 h
  constructor
  · intro hmark
    simp only [List.mem_cons, List.not_mem_nil, or_false] at hmark
    obtain rfl | rfl | rfl := hmark <;> exact Option.some_ne_none _ hbounds
  · rintro ⟨rfl, hbraces⟩
    rw [show Bounds.braces? (['\x7b'] ++ after) = none from hbounds] at hbraces
    exact Bool.false_ne_true hbraces

/-! ## Names -/

theorem isName_of_isGroupName {name : List Char} (h : Token.isGroupName name = true) : IsName name := by
  obtain ⟨hne, hall⟩ := Bool.and_eq_true_iff.1 h
  refine ⟨of_decide_eq_true hne, fun c hc => ?_⟩
  simpa [or_assoc] using List.all_eq_true.1 hall c hc

/-- A group is only named if its name is one. -/
theorem Token.Opening.read_name {s name : List Char} (h : (Token.Opening.read s).kind = .named name) :
    IsName name := by
  unfold Token.Opening.read at h
  split at h
  case h_6 rest _ _ =>
    split at h
    next found _ =>
      split at h
      next hname => exact GroupKind.named.inj h ▸ isName_of_isGroupName hname
      next => exact absurd h GroupKind.noConfusion
    next => exact absurd h GroupKind.noConfusion
  all_goals exact absurd h GroupKind.noConfusion

/-! ## Literals -/

namespace Escape

/-- The escape has a name, or it is the given character, for itself. -/
def Stands (c : Char) (e : Escape) : Prop := ∀ value, e.shown = .plain value → value = c ∧ e.length = 1

theorem named_stands (c : Char) (meaning : Meaning) (length : Nat) : (named meaning length).Stands c :=
  fun _ h => absurd h Shown.noConfusion

theorem plain_stands (c : Char) (trouble : Option Anomaly.Kind) : Stands c ⟨.plain c, 1, trouble⟩ :=
  fun _ h => ⟨(Shown.plain.inj h).symm, rfl⟩

theorem Completes.stands {c : Char} {e : Escape} (h : e.Completes c) : e.Stands c := by
  obtain ⟨meaning, length, rfl⟩ | rfl := h
  · exact named_stands c meaning length
  · exact plain_stands c _

theorem zero_stands (rest : List Char) : (zero rest).Stands '0' := by
  unfold zero
  simp only
  split <;> exact named_stands '0' _ _

theorem identity_stands (c : Char) : (identity c).Stands c := by
  unfold identity
  split <;> exact plain_stands c _

theorem shared_stands (c : Char) (rest : List Char) : (shared c rest).Stands c :=
  shared_cases (P := fun c e => e.Stands c) (fun {c} {meaning} _ => named_stands c meaning 1)
    (zero_stands rest) (control_completes rest).stands (hex_completes rest).stands
    (unicode_completes rest).stands (fun negated => (property_completes negated rest).stands)
    identity_stands c

theorem outside_stands (c : Char) (rest : List Char) : (outside (c :: rest)).Stands c := by
  rw [outside]
  split_ifs with hb hB hk hdigit
  · exact named_stands c _ _
  · exact named_stands c _ _
  · exact (hk ▸ namedBackReference_completes rest : (namedBackReference rest).Completes c).stands
  · exact named_stands c _ _
  · exact shared_stands c rest

theorem inside_stands (c : Char) (rest : List Char) : (inside (c :: rest)).Stands c := by
  rw [inside]
  split_ifs with hb hB hdigit
  · exact named_stands c _ _
  · exact hB ▸ plain_stands 'B' none
  · exact named_stands c _ _
  · exact shared_stands c rest

/-- What is read as a literal behind a backslash is the character there, or the backslash where there is
none. -/
theorem spells {reader : List Char → Escape} (hnil : reader [] = trailing)
    (hcons : ∀ c rest, (reader (c :: rest)).Stands c) {s : List Char} {value : Char}
    (h : (reader s).shown = .plain value) : Spells ('\\' :: s.take (reader s).length) [value] := by
  refine ⟨value, rfl, ?_⟩
  cases s with
  | nil =>
    rw [hnil] at h
    obtain rfl := Shown.plain.inj h
    exact .inl (by rw [hnil]; rfl)
  | cons c rest =>
    obtain ⟨rfl, hlength⟩ := hcons c rest value h
    rw [hlength]
    exact .inr rfl

end Escape

/-- A literal in a class is spelled as it is. -/
theorem ClassAtom.read_spells {offset : Nat} {c : Char} {rest : List Char} {span : Span} {value : List Char}
    (h : (ClassAtom.read offset c rest).atom = .literal span value) : Spells span.text value := by
  unfold ClassAtom.read at h
  split at h
  next =>
    simp only at h
    cases hshown : (Escape.inside rest).shown with
    | named meaning =>
      rw [hshown] at h
      exact absurd h ClassAtom.noConfusion
    | plain value =>
      rw [hshown] at h
      obtain ⟨rfl, rfl⟩ := ClassAtom.literal.inj h
      exact Escape.spells rfl Escape.inside_stands hshown
  next =>
    obtain ⟨rfl, rfl⟩ := ClassAtom.literal.inj h
    exact ⟨c, rfl, .inl rfl⟩

/-- A member of a class has the shapes it should have, and so have the ends of a range. -/
theorem Member.shaped_read (body : Span) (offset : Nat) (c : Char) (rest : List Char) :
    ∀ v ∈ (Member.read offset c rest).1.views, v.Shaped body := by
  have hatom (pos : Nat) (d : Char) (more : List Char) :
      View.Shaped body (.member (.single (ClassAtom.read pos d more).atom)) := by
    cases hread : (ClassAtom.read pos d more).atom with
    | literal span value => exact ClassAtom.read_spells hread
    | escape span meaning => exact trivial
  obtain ⟨hsingle, -⟩ | ⟨stop, d, more, hrange, hends⟩ := Member.read_formed offset c rest
  · rw [hsingle]
    exact List.forall_mem_singleton.2 (hatom offset c rest)
  · rw [hrange]
    exact List.forall_mem_cons.2 ⟨hends, List.forall_mem_cons.2
      ⟨hatom offset c rest, List.forall_mem_singleton.2 (hatom stop d more)⟩⟩

/-! ## Trees -/

/-- The reader gives every node its shape. -/
theorem built_shaped (body : Span) : Built body (View.Shaped body) where
  alternation _ _ hne := hne
  empty _ := List.isChain_nil
  item {offset items node} hitems hbare hunread quantifier := by
    refine List.isChain_append.2 ⟨hitems, List.isChain_singleton _, fun last hlast next hnext => ?_⟩
    obtain rfl := Option.some.inj hnext
    intro hlastBare span value hliteral
    rw [Node.bare_quantify hbare] at hliteral
    obtain ⟨htext, hnone⟩ := hunread last hlast hlastBare span value hliteral
    exact Quantifier.not_mark hnone htext
  quantified hbare hread := ⟨hbare, Repetition.admitted_of_read? hread⟩
  group span rest content := by
    cases hkind : (Token.Opening.read rest).kind with
    | named name => exact Token.Opening.read_name hkind
    | _ => exact trivial
  unmatched _ := ⟨')', rfl, .inl rfl⟩
  atom offset c rest hat := by
    refine Token.readAtom_views hat ?_ fun pos d more _ => Member.shaped_read body pos d more
    unfold Token.readAtom
    simp only
    split
    · exact trivial
    split
    · exact trivial
    split
    · exact trivial
    split
    · obtain ⟨negated, inner, read, -, -, hread⟩ := Node.readCharset_cases offset rest
      rw [hread]
      exact trivial
    split
    · unfold Token.readEscape
      simp only
      cases hshown : (Escape.outside rest).shown with
      | named meaning => exact trivial
      | plain value => exact Escape.spells rfl Escape.outside_stands hshown
    · exact ⟨c, rfl, .inl rfl⟩

/-- **Every node of a pattern has the shape it should have.** -/
theorem read_shaped (input : List Char) {v : View} (h : v ∈ (read input).root.descendants) :
    v.Shaped (read input).root.alternation.span := by
  obtain rfl | hview := List.mem_cons.1 h
  · exact trivial
  · exact read_built (built_shaped _) v hview

/-- A mark behind an item that is repeated is a literal. -/
theorem read_shaped_marks :
    ∃ v ∈ (read "a\x7b2\x7d*".toList).root.descendants, v.kind = .literal ∧ v.span = ⟨['*'], 4⟩ ∧
      v.Shaped (read "a\x7b2\x7d*".toList).root.alternation.span := by
  have hmark : (NodeKind.literal, (⟨['*'], 4⟩ : Span)) ∈
      (read "a\x7b2\x7d*".toList).root.descendants.map fun v => (v.kind, v.span) := by decide +kernel
  obtain ⟨v, hv, heq⟩ := List.mem_map.1 hmark
  obtain ⟨hkind, hspan⟩ := Prod.mk.inj heq
  exact ⟨v, hv, hkind, hspan, read_shaped "a\x7b2\x7d*".toList hv⟩

end RegexDiagram.Pattern
