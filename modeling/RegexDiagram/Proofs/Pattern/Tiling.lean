import RegexDiagram.Proofs.Pattern.Atoms
import RegexDiagram.Proofs.Pattern.Quantifiers
import RegexDiagram.Proofs.Pattern.Spans
import RegexDiagram.Proofs.Pattern.Views

/-!
# Trees that tile their text

A tree keeps the characters of every node. `View.Tiled` says of one node that its characters are
those of its parts with the punctuation of the construct around them, and that the parts start where
they have to. The condition is local: it looks at a node and at its children only.

What is local adds up. `Alternation.within_views` derives that in a tree that tiles its text every
node stands in that text at its own position, however deep it lies.

The second half of the module says that the atoms of a pattern tile their text as they are read:
character classes are the only ones with parts.
-/

namespace RegexDiagram.Pattern

/-! ## The condition -/

/-- What stands behind the parenthesis that opens a group of a kind. A capturing group whose name is
missing keeps the beginning of the name. -/
def GroupKind.Marker : GroupKind → List Char → Prop
  | .nonCapturing, m => m = ['?', ':']
  | .capturing, m => m = [] ∨ m = ['?', '<']
  | .named name, m => m = ['?', '<'] ++ name ++ ['>']
  | .lookahead false, m => m = ['?', '=']
  | .lookahead true, m => m = ['?', '!']
  | .lookbehind false, m => m = ['?', '<', '=']
  | .lookbehind true, m => m = ['?', '<', '!']

/-- The characters of a node are those of its parts, in order and with nothing but the punctuation
of the construct between them, and each part starts behind what precedes it. -/
def View.Tiled : View → Prop
  | .root r =>
    r.span.offset = 0 ∧
      (r.span.text = r.alternation.span.text ∧ r.alternation.span.offset = 0 ∧ r.flags = [] ∨
        r.span.text = ['/'] ++ r.alternation.span.text ++ ['/'] ++ r.flags ∧
          r.alternation.span.offset = 1)
  | .alternation a =>
    a.span.text = joinWith ['|'] (a.branches.map (·.span.text)) ∧
      Span.Chain 1 a.span.offset (a.branches.map (·.span))
  | .sequence s =>
    s.span.text = s.items.flatMap (·.span.text) ∧
      Span.Chain 0 s.span.offset (s.items.map (·.span)) ∧ ∀ i ∈ s.items, i.span.text ≠ []
  | .node (.quantified span atom repetition) =>
    ∃ suffix, suffix ≠ [] ∧ Quantifier.Written suffix repetition ∧
      span.text = atom.span.text ++ suffix ∧ atom.span.offset = span.offset ∧ atom.span.text ≠ []
  | .node (.group span kind content) =>
    ∃ marker ending, kind.Marker marker ∧ (ending = [] ∨ ending = [')']) ∧
      span.text = ['('] ++ marker ++ content.span.text ++ ending ∧
        content.span.offset = span.offset + 1 + byteLength marker
  | .node (.charset span negated members) =>
    ∃ ending, (ending = [] ∨ ending = [']']) ∧
      span.text = charsetStart negated ++ members.flatMap (·.span.text) ++ ending ∧
        Span.Chain 0 (span.offset + byteLength (charsetStart negated)) (members.map (·.span)) ∧
          ∀ m ∈ members, m.span.text ≠ []
  | .member (.range span first last) =>
    span.text = first.span.text ++ ['-'] ++ last.span.text ∧
      first.span.offset = span.offset ∧ last.span.offset = first.span.stop + 1 ∧
        first.span.text ≠ [] ∧ last.span.text ≠ []
  | _ => True

/-- A node with characters that tiles them, and so do all nodes below it. -/
def Node.Lossless (n : Node) : Prop := n.span.text ≠ [] ∧ ∀ v ∈ n.views, v.Tiled

/-- A sequence that tiles its characters, and so do all nodes below it. -/
def Sequence.Lossless (s : Sequence) : Prop := ∀ v ∈ s.views, v.Tiled

/-- An alternation that tiles its characters, and so do all nodes below it. -/
def Alternation.Lossless (a : Alternation) : Prop := ∀ v ∈ a.views, v.Tiled

theorem Sequence.lossless_iff {s : Sequence} :
    s.Lossless ↔ View.Tiled (.sequence s) ∧ ∀ i ∈ s.items, i.Lossless := by
  unfold Sequence.Lossless
  rw [Sequence.views_eq, List.forall_mem_cons, List.forall_mem_flatMap]
  constructor
  · intro h
    exact ⟨h.1, fun i hi => ⟨h.1.2.2 i hi, h.2 i hi⟩⟩
  · intro h
    exact ⟨h.1, fun i hi => (h.2 i hi).2⟩

theorem Alternation.lossless_iff {a : Alternation} :
    a.Lossless ↔ View.Tiled (.alternation a) ∧ ∀ b ∈ a.branches, b.Lossless := by
  unfold Alternation.Lossless
  rw [Alternation.views_eq, List.forall_mem_cons, List.forall_mem_flatMap]
  exact Iff.rfl

/-! ## Every node stands in the text -/

section Within

variable {input : List Char}

/-- The members of a class that tiles a piece of the text stand in the text, and so do the ends of
ranges. -/
theorem charset_within_views {span : Span} {negated : Bool} {members : List Member}
    (h : ∀ v ∈ (Node.charset span negated members).views, v.Tiled) (hw : span.Within input) :
    ∀ v ∈ members.flatMap Member.views, v.span.Within input := by
  rw [Node.views, List.forall_mem_cons, List.forall_mem_flatMap] at h
  obtain ⟨⟨ending, -, htext, hchain, -⟩, hmembers⟩ := h
  have hall := hchain.within (hw.part (charsetStart negated) ending
    (by rw [htext, List.flatMap_map]) rfl)
  rw [List.forall_mem_flatMap]
  intro m hm v hv
  have hmember : m.span.Within input := hall _ (List.mem_map_of_mem hm)
  cases m with
  | single atom =>
    rw [Member.views, List.mem_singleton] at hv
    rw [hv]
    exact hmember
  | range span first last =>
    obtain ⟨htext, hfirst, hlast, -⟩ := hmembers _ hm _ List.mem_cons_self
    simp only [Member.views, List.mem_cons, List.not_mem_nil, or_false] at hv
    rcases hv with rfl | rfl | rfl
    · exact hmember
    · refine hmember.part [] (['-'] ++ last.span.text) ?_ hfirst
      rw [Member.span, htext, List.nil_append, List.append_assoc]
      rfl
    · refine hmember.part (first.span.text ++ ['-']) [] ?_ ?_
      · rw [Member.span, htext, List.append_nil]
        rfl
      · have hdash : byteLength ['-'] = 1 := rfl
        rw [byteLength_append, hdash, ← Nat.add_assoc]
        exact hlast.trans (by rw [Span.stop, hfirst]; rfl)

/-- In a tree that tiles a piece of a text, every node stands in the text. -/
theorem treeClosed_within : TreeClosed
    (fun n => (∀ v ∈ n.views, v.Tiled) → n.span.Within input → ∀ v ∈ n.views, v.span.Within input)
    (fun a => a.Lossless → a.span.Within input → ∀ v ∈ a.views, v.span.Within input)
    (fun s => s.Lossless → s.span.Within input → ∀ v ∈ s.views, v.span.Within input) where
  literal _ _ _ hw := List.forall_mem_singleton.2 hw
  escape _ _ _ hw := List.forall_mem_singleton.2 hw
  anchor _ _ _ hw := List.forall_mem_singleton.2 hw
  wildcard _ _ hw := List.forall_mem_singleton.2 hw
  charset _ _ _ h hw := List.forall_mem_cons.2 ⟨hw, charset_within_views h hw⟩
  quantified _ atom _ ih h hw := by
    rw [Node.views, List.forall_mem_cons] at h
    obtain ⟨⟨suffix, -, -, htext, hoffset, -⟩, hatom⟩ := h
    exact List.forall_mem_cons.2 ⟨hw, ih hatom (hw.part [] suffix htext hoffset)⟩
  group span _ content ih h hw := by
    rw [Node.views, List.forall_mem_cons] at h
    obtain ⟨⟨marker, ending, -, -, htext, hoffset⟩, hcontent⟩ := h
    refine List.forall_mem_cons.2 ⟨hw, ih hcontent (hw.part (['('] ++ marker) ending htext ?_)⟩
    rw [hoffset, byteLength_append, ← Nat.add_assoc]
    rfl
  ofBranches span branches ih h hw := by
    obtain ⟨⟨htext, hchain⟩, hbranches⟩ := Alternation.lossless_iff.1 h
    have hall := hchain.within_joined '|' rfl
      (hw.part [] [] (by rw [htext, List.map_map, List.append_nil]; rfl) rfl)
    rw [Alternation.views_eq, List.forall_mem_cons, List.forall_mem_flatMap]
    exact ⟨hw, fun b hb => ih b hb (hbranches b hb) (hall _ (List.mem_map_of_mem hb))⟩
  ofItems span items ih h hw := by
    obtain ⟨⟨htext, hchain, -⟩, hitems⟩ := Sequence.lossless_iff.1 h
    have hall := hchain.within
      (hw.part [] [] (by rw [htext, List.flatMap_map, List.append_nil]; rfl) rfl)
    rw [Sequence.views_eq, List.forall_mem_cons, List.forall_mem_flatMap]
    exact ⟨hw, fun i hi => ih i hi (hitems i hi).2 (hall _ (List.mem_map_of_mem hi))⟩

/-- In an alternation that tiles a piece of a text, every node stands in the text. -/
theorem Alternation.within_views {a : Alternation} (h : a.Lossless) (hw : a.span.Within input) :
    ∀ v ∈ a.views, v.span.Within input :=
  treeClosed_within.alternation a h hw

end Within

/-! ## Atoms as they are read -/

/-- A member tiles its characters. -/
theorem Member.read_tiled (offset : Nat) (c : Char) (rest : List Char) :
    ∀ v ∈ (Member.read offset c rest).1.views, v.Tiled := by
  rcases Member.read_cases offset c rest with hread | ⟨d, more, stop, -, -, hstop, hread⟩
  · rw [hread]
    exact List.forall_mem_singleton.2 trivial
  · rw [hread, ClassAtom.to, Member.views, List.forall_mem_cons]
    refine ⟨⟨rfl, rfl, ?_, ClassAtom.read_ne_nil _ _ _, ClassAtom.read_ne_nil _ _ _⟩, ?_⟩
    · rw [ClassAtom.read_offset, hstop]
    · intro v hv
      simp only [List.mem_cons, List.not_mem_nil, or_false] at hv
      rcases hv with rfl | rfl <;> trivial

/-- The members of a class follow one another without a gap. -/
theorem ClassBody.read_tiled (offset : Nat) (s : List Char) :
    Span.Chain 0 offset ((ClassBody.read offset s).members.map (·.span)) ∧
      ∀ m ∈ (ClassBody.read offset s).members, m.span.text ≠ [] ∧ ∀ v ∈ m.views, v.Tiled := by
  fun_induction ClassBody.read offset s with
  | case1 => exact ⟨trivial, fun _ h => absurd h List.not_mem_nil⟩
  | case2 => exact ⟨trivial, fun _ h => absurd h List.not_mem_nil⟩
  | case3 offset c rest hc member noted hread text body ih =>
    have hoffset := Member.read_offset offset c rest
    have hne := Member.read_ne_nil offset c rest
    have htiled := Member.read_tiled offset c rest
    rw [hread] at hoffset hne htiled
    refine ⟨⟨hoffset, ?_⟩, List.forall_mem_cons.2 ⟨⟨hne, htiled⟩, ih.2⟩⟩
    rw [Span.stop, show member.span.offset = offset from hoffset]
    exact ih.1

/-- A class starts at its bracket and tiles its characters. -/
theorem Node.readCharset_lossless (offset : Nat) (rest : List Char) :
    (Node.readCharset offset rest).1.span.offset = offset ∧
      (Node.readCharset offset rest).1.Lossless := by
  obtain ⟨negated, inner, body, hrest, hbody, hread⟩ := Node.readCharset_cases offset rest
  obtain ⟨hchain, hmembers⟩ := ClassBody.read_tiled (offset + byteLength (charsetStart negated)) inner
  rw [← hbody] at hchain hmembers
  have hending : (if body.closed then [']'] else []) = [] ∨
      (if body.closed then [']'] else []) = [']'] := by
    cases body.closed with
    | false => exact .inl rfl
    | true => exact .inr rfl
  rw [hread]
  refine ⟨rfl, ?_, ?_⟩
  · cases negated <;> exact List.cons_ne_nil _ _
  · rw [Node.views, List.forall_mem_cons, List.forall_mem_flatMap]
    exact ⟨⟨_, hending, rfl, hchain, fun m hm => (hmembers m hm).1⟩, fun m hm => (hmembers m hm).2⟩

/-- An atom starts where it is read and tiles its characters. -/
theorem Token.readAtom_lossless (offset : Nat) (c : Char) (rest : List Char) :
    (readAtom offset c rest).1.span.offset = offset ∧ (readAtom offset c rest).1.Lossless := by
  have hread := readAtom_cases offset c rest
  generalize readAtom offset c rest = read at hread ⊢
  cases hread with
  | charset => exact Node.readCharset_lossless offset rest
  | _ => exact ⟨rfl, List.cons_ne_nil _ _, List.forall_mem_singleton.2 trivial⟩

end RegexDiagram.Pattern
