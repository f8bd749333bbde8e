import RegexDiagram.Proofs.Pattern.Diagnostics

/-!
# What the reader builds

Every node of a tree is made at one place of the reader. `Built` names what a property of nodes has to give
at each of these places, and `read_built` carries it to all nodes of a pattern: the walk over the pattern
and the groups that are open is done once, here.

An item is put behind others. If the last of them is not repeated, then no quantifier stands in the pattern
where the item is, for it would have been taken; this is known where the item is made.
-/

namespace RegexDiagram.Pattern

/-! ## The condition -/

/-- A property of nodes that the reader gives to every node it makes, in the given pattern. -/
structure Built (body : Span) (P : View → Prop) : Prop where
  alternation : ∀ (offset : Nat) {branches : List Sequence}, branches ≠ [] →
    P (.alternation (.ofBranches offset branches))
  empty : ∀ offset : Nat, P (.sequence (.ofItems offset []))
  /-- One more item, which may be a literal where a quantifier could stand. -/
  item : ∀ {offset : Nat} {items : List Node} {node : Node}, P (.sequence (.ofItems offset items)) →
    node.isQuantified = false →
    (∀ last ∈ items.getLast?, last.isQuantified = false → ∀ span value, node = .literal span value →
      span.text <+: body.onward span.offset ∧ Quantifier.read? (body.onward span.offset) = none) →
    ∀ quantifier, P (.sequence (.ofItems offset (items ++ [node.quantify quantifier])))
  quantified : ∀ {node : Node} {s : List Char} {q : Quantifier}, node.isQuantified = false →
    Quantifier.read? s = some q → P (.node (node.quantify (some q)))
  group : ∀ (span : Span) (rest : List Char) (content : Alternation),
    P (.node (.group span (Token.Opening.read rest).kind content))
  unmatched : ∀ offset : Nat, P (.node (.literal ⟨[')'], offset⟩ [')']))
  atom : ∀ (offset : Nat) (c : Char) (rest : List Char), body.At offset (c :: rest) →
    ∀ v ∈ (Token.readAtom offset c rest).1.views, P v

variable {body : Span} {P : View → Prop}

/-- A node under the quantifier that is read behind it. -/
theorem Built.quantify (hP : Built body P) {node : Node} (hnode : node.isQuantified = false)
    (h : ∀ v ∈ node.views, P v) (s : List Char) : ∀ v ∈ (node.quantify (Quantifier.read? s)).views, P v := by
  cases hread : Quantifier.read? s with
  | none => exact h
  | some q => exact List.forall_mem_cons.2 ⟨hP.quantified hnode hread, h⟩

/-! ## Atoms -/

/-- What is seen of a member are members: itself, or a range and its two ends. -/
theorem Member.eq_of_mem_views {m : Member} {v : View} (hv : v ∈ m.views) : ∃ member, v = .member member := by
  cases m with
  | single atom => exact ⟨_, List.mem_singleton.1 hv⟩
  | range span first last =>
    simp only [Member.views, List.mem_cons, List.not_mem_nil, or_false] at hv
    obtain rfl | rfl | rfl := hv <;> exact ⟨_, rfl⟩

/-- An atom is a node, and only below a class there is more: the members as they are read, each where it
stands. -/
theorem Token.readAtom_views {offset : Nat} {c : Char} {rest : List Char} (hat : body.At offset (c :: rest))
    (hnode : P (.node (Token.readAtom offset c rest).1))
    (hmember : ∀ pos d more, body.At pos (d :: more) → ∀ v ∈ (Member.read pos d more).1.views, P v) :
    ∀ v ∈ (Token.readAtom offset c rest).1.views, P v := by
  have hread := Token.readAtom_cases offset c rest
  generalize Token.readAtom offset c rest = read at hread hnode ⊢
  cases hread with
  | charset =>
    obtain ⟨negated, inner, found, hrest, hclass, hread⟩ := Node.readCharset_cases offset rest
    rw [hread, hclass] at hnode ⊢
    refine List.forall_mem_cons.2 ⟨hnode, List.forall_mem_flatMap.2 fun member hmem => ?_⟩
    obtain ⟨before, d, more, rfl, rfl⟩ := ClassBody.mem_members hmem
    rw [hrest] at hat
    exact hmember _ d more hat.behind.behind
  | _ => exact List.forall_mem_singleton.2 hnode

/-! ## Levels -/

/-- The property holds of all nodes of an alternation that is being read, of the current branch as far as it
is read as well. -/
structure Level.Has (P : View → Prop) (l : Level) : Prop where
  finished : ∀ b ∈ l.branches, ∀ v ∈ b.views, P v
  current : P (.sequence l.branch)
  read : ∀ i ∈ l.items, ∀ v ∈ i.views, P v

namespace Level.Has

variable {l : Level}

theorem opened (hP : Built body P) (offset : Nat) : (Level.opened offset).Has P :=
  ⟨fun _ hb => absurd hb List.not_mem_nil, hP.empty offset, fun _ hi => absurd hi List.not_mem_nil⟩

theorem branch (h : l.Has P) : ∀ v ∈ l.branch.views, P v := by
  rw [Sequence.views_eq, List.forall_mem_cons, List.forall_mem_flatMap]
  exact ⟨h.current, fun i hi => h.read i (List.mem_reverse.1 hi)⟩

theorem nextBranch (hP : Built body P) (h : l.Has P) (offset : Nat) : (l.nextBranch offset).Has P :=
  ⟨List.forall_mem_cons.2 ⟨h.branch, h.finished⟩, hP.empty offset, fun _ hi => absurd hi List.not_mem_nil⟩

/-- One more item. The text is what stands behind it. -/
theorem add (hP : Built body P) (h : l.Has P) {node : Node} (hnode : node.isQuantified = false)
    (hviews : ∀ v ∈ node.views, P v)
    (hunread : ∀ last ∈ l.items.head?, last.isQuantified = false → ∀ span value, node = .literal span value →
      span.text <+: body.onward span.offset ∧ Quantifier.read? (body.onward span.offset) = none)
    (s : List Char) :
    (l.add (node.quantify (Quantifier.read? s))).Has P where
  finished := h.finished
  current := by
    have hitem := hP.item h.current hnode (by rwa [List.getLast?_reverse]) (Quantifier.read? s)
    rw [← List.reverse_cons] at hitem
    exact hitem
  read := List.forall_mem_cons.2 ⟨hP.quantify hnode hviews s, h.read⟩

/-- The current branch is one of the alternation, so it has a branch. -/
theorem alternation (hP : Built body P) (h : l.Has P) : ∀ v ∈ l.alternation.views, P v := by
  rw [Alternation.views_eq, List.forall_mem_cons, List.forall_mem_flatMap]
  refine ⟨hP.alternation _ ?_, fun b hb => ?_⟩
  · rw [List.reverse_cons]
    exact List.append_ne_nil_of_right_ne_nil _ (List.cons_ne_nil _ _)
  · obtain rfl | hb := List.mem_cons.1 (List.mem_reverse.1 hb)
    · exact h.branch
    · exact h.finished b hb

theorem close (hP : Built body P) (h : l.Has P) {g : OpenGroup}
    (hkind : ∃ rest, g.kind = (Token.Opening.read rest).kind) (ending : List Char) :
    ∀ v ∈ (g.close l ending).views, P v := by
  obtain ⟨rest, hkind⟩ := hkind
  rw [OpenGroup.close, hkind]
  exact List.forall_mem_cons.2 ⟨hP.group _ rest _, h.alternation hP⟩

end Level.Has

/-! ## Patterns -/

/-- The property holds of all nodes that are read, and behind an item that is not repeated stands no
quantifier. -/
structure Nesting.Has (body : Span) (P : View → Prop) (n : Nesting) (pos : Nat) (rest : List Char) : Prop where
  sound : n.Sound body.offset body.text pos rest
  level : n.level.Has P
  groups : ∀ g ∈ n.groups, g.outside.Has P ∧ ∃ text, g.kind = (Token.Opening.read text).kind
  unread : ∀ last ∈ n.level.items.head?, last.isQuantified = false → Quantifier.read? rest = none

namespace Nesting.Has

variable {n n' : Nesting} {pos pos' : Nat} {s after : List Char}

/-- Every piece that is read keeps it so. -/
theorem step (hP : Built body P) (effect : n.Effect pos s after n' pos') (h : n.Has body P pos s) :
    n'.Has body P pos' after := by
  have hsound := h.sound.step effect
  cases effect with
  | bar => exact ⟨hsound, h.level.nextBranch hP _, h.groups, fun _ hnone => absurd hnone (Option.not_mem_none _)⟩
  | opening =>
    exact ⟨hsound, .opened hP _, List.forall_mem_cons.2 ⟨⟨h.level, _, rfl⟩, h.groups⟩,
      fun _ hnone => absurd hnone (Option.not_mem_none _)⟩
  | @closing g more rest _ groups quantifier =>
    have hgroups := h.groups
    rw [groups] at hgroups
    obtain ⟨⟨houtside, hkind⟩, hmore⟩ := List.forall_mem_cons.1 hgroups
    refine ⟨hsound, houtside.add hP rfl (h.level.close hP hkind [')']) ?_ rest, hmore, fun last hlast => ?_⟩
    · intro _ _ _ span value hliteral
      exact absurd hliteral Node.noConfusion
    · exact Option.some.inj hlast ▸ unread_quantify rfl quantifier
  | @unmatched rest _ groups quantifier =>
    have hparen : ∀ v ∈ (Node.literal ⟨[')'], pos⟩ [')']).views, P v :=
      List.forall_mem_singleton.2 (hP.unmatched pos)
    refine ⟨hsound, h.level.add hP rfl hparen ?_ rest, fun _ hg => absurd hg List.not_mem_nil,
      fun last hlast => ?_⟩
    · rintro _ _ _ span value hliteral
      obtain ⟨rfl, -⟩ := Node.literal.inj hliteral
      rw [h.sound.onward_eq]
      exact ⟨List.prefix_append [')'] rest, Quantifier.read?_of_notMem (by decide) rest⟩
    · exact Option.some.inj hlast ▸ unread_quantify rfl quantifier
  | @atom c rest behind _ _ opening closing atom quantifier =>
    have hbare := isQuantified_readAtom pos c rest
    refine ⟨hsound, h.level.add hP hbare (hP.atom pos c rest h.sound.split) ?_ behind, h.groups,
      fun last hlast => ?_⟩
    · intro last hlast hbareLast span value hliteral
      have hoffset := (Token.readAtom_lossless pos c rest).1
      obtain ⟨t, htext, hprefix⟩ := Token.readAtom_text pos c rest
      rw [hliteral] at hoffset htext
      rw [show span.offset = pos from hoffset, h.sound.onward_eq, show span.text = c :: t from htext]
      exact ⟨List.cons_prefix_cons.2 ⟨rfl, hprefix⟩, h.unread last hlast hbareLast⟩
    · exact Option.some.inj hlast ▸ unread_quantify hbare quantifier

/-- A group that is open at the end is ended there. -/
theorem closeLast (hP : Built body P) {level : Level} {g : OpenGroup} {more : List OpenGroup}
    {anomalies noted : List Anomaly} (h : Nesting.Has body P ⟨level, g :: more, anomalies⟩ pos []) :
    Nesting.Has body P ⟨g.outside.add (g.close level []), more, noted⟩ pos [] := by
  obtain ⟨⟨houtside, hkind⟩, hmore⟩ := List.forall_mem_cons.1 h.groups
  refine ⟨h.sound.closeLast _, houtside.add hP rfl (h.level.close hP hkind []) ?_ [], hmore, fun _ _ _ => rfl⟩
  intro _ _ _ span value hliteral
  exact absurd hliteral Node.noConfusion

end Nesting.Has

/-- All nodes of a text that is read have the property. -/
theorem Alternation.ofText_built {start : Nat} {text : List Char} (hP : Built ⟨text, start⟩ P) :
    ∀ v ∈ (Alternation.ofText start text).1.views, P v := by
  have hstart : (Nesting.start start).Has ⟨text, start⟩ P start text :=
    ⟨Nesting.sound_start start text, .opened hP start, fun _ hg => absurd hg List.not_mem_nil,
      fun _ hnone => absurd hnone (Option.not_mem_none _)⟩
  obtain ⟨level, anomalies, stop, hlast, heq⟩ :=
    Alternation.ofText_eq (Nesting.Has.step hP) (Nesting.Has.closeLast hP) hstart
  rw [heq]
  exact hlast.level.alternation hP

/-- **All nodes of a pattern** have a property that the reader gives to every node it makes. -/
theorem read_built {input : List Char} (hP : Built (read input).root.alternation.span P) :
    ∀ v ∈ (read input).root.alternation.views, P v := by
  rw [read_alternation_span] at hP
  rw [read_alternation]
  exact Alternation.ofText_built hP

/-! ## Branches -/

/-- An alternation has a branch, which may be empty. -/
def View.Branching : View → Prop
  | .alternation a => a.branches ≠ []
  | _ => True

/-- The reader is never without a current branch. -/
theorem built_branching (body : Span) : Built body View.Branching where
  alternation _ _ hne := hne
  empty _ := trivial
  item _ _ _ _ := trivial
  quantified _ _ := trivial
  group _ _ _ := trivial
  unmatched _ := trivial
  atom offset c rest hat := by
    refine Token.readAtom_views hat trivial fun pos d more _ v hv => ?_
    obtain ⟨member, rfl⟩ := Member.eq_of_mem_views hv
    exact trivial

/-- Every alternation of a pattern has a branch. -/
theorem read_branched (input : List Char) : Branched (read input).root.alternation.views :=
  fun _ ha => read_built (built_branching _) _ ha

/-! ## Escapes -/

/-- What an escape stands for, in a class and outside. -/
def View.meaning? : View → Option Meaning
  | .node (.escape _ meaning) => some meaning
  | .member (.single (.escape _ meaning)) => some meaning
  | _ => none

/-- The second end of a range stands behind the first one and the hyphen. -/
theorem ClassAtom.at_last {offset : Nat} {c : Char} {rest : List Char} (hat : body.At offset (c :: rest))
    {d : Char} {more : List Char} (hdrop : rest.drop (covered c rest) = '-' :: d :: more) :
    body.At ((ClassAtom.read offset c rest).atom.span.stop + 1) (d :: more) := by
  have hsplit : c :: rest = (ClassAtom.read offset c rest).atom.span.text ++ ['-'] ++ d :: more := by
    rw [ClassAtom.read_covered, List.append_assoc, List.cons_append, List.singleton_append, ← hdrop,
      List.take_append_drop]
  rw [hsplit] at hat
  have hdash : byteLength ['-'] = 1 := rfl
  have hpos := hat.behind
  rw [byteLength_append, hdash] at hpos
  rw [Span.stop, ClassAtom.read_offset, Nat.add_assoc]
  exact hpos

/-- The atoms of a member are read where they stand. -/
theorem Member.atoms_at {offset : Nat} {c : Char} {rest : List Char}
    (hat : body.At offset (c :: rest)) {v : View} (hv : v ∈ (Member.read offset c rest).1.views) :
    v.meaning? = none ∨ ∃ pos d more, body.At pos (d :: more) ∧
      v = .member (.single (ClassAtom.read pos d more).atom) := by
  obtain hread | ⟨d, more, stop, -, hdrop, hstop, hread⟩ := Member.read_cases offset c rest
  · rw [hread] at hv
    exact .inr ⟨offset, c, rest, hat, List.mem_singleton.1 hv⟩
  · rw [hread] at hv
    simp only [ClassAtom.to, Member.views, List.mem_cons, List.not_mem_nil, or_false] at hv
    obtain rfl | rfl | rfl := hv
    · exact .inl rfl
    · exact .inr ⟨offset, c, rest, hat, rfl⟩
    · exact .inr ⟨stop, d, more, hstop ▸ ClassAtom.at_last hat hdrop, rfl⟩

/-- A property of escapes is given to every one of them if it comes from what stands behind the backslash, in
each of the two places. -/
theorem built_of_meanings (hother : ∀ {v : View}, v.meaning? = none → P v)
    (houtside : ∀ {pos : Nat} {rest : List Char} {meaning : Meaning}, body.At pos ('\\' :: rest) →
      (Escape.outside rest).shown = .named meaning →
      P (.node (.escape ⟨'\\' :: rest.take (Escape.outside rest).length, pos⟩ meaning)))
    (hinside : ∀ {pos : Nat} {rest : List Char} {meaning : Meaning}, body.At pos ('\\' :: rest) →
      (Escape.inside rest).shown = .named meaning →
      P (.member (.single (.escape ⟨'\\' :: rest.take (Escape.inside rest).length, pos⟩ meaning)))) :
    Built body P where
  alternation _ _ _ := hother rfl
  empty _ := hother rfl
  item _ _ _ _ := hother rfl
  quantified _ _ := hother rfl
  group _ _ _ := hother rfl
  unmatched _ := hother rfl
  atom offset c rest hat := by
    refine Token.readAtom_views hat ?_ fun pos d more hat v hv => ?_
    · unfold Token.readAtom
      simp only
      split
      · exact hother rfl
      split
      · exact hother rfl
      split
      · exact hother rfl
      split
      · obtain ⟨negated, inner, read, -, -, hread⟩ := Node.readCharset_cases offset rest
        rw [hread]
        exact hother rfl
      split
      next hc =>
        unfold Token.readEscape
        simp only
        cases hshown : (Escape.outside rest).shown with
        | named meaning => exact houtside (hc ▸ hat) hshown
        | plain value => exact hother rfl
      next => exact hother rfl
    · obtain hnone | ⟨stop, e, after, hat, rfl⟩ := Member.atoms_at hat hv
      · exact hother hnone
      · unfold ClassAtom.read
        split
        next hc =>
          simp only
          cases hshown : (Escape.inside after).shown with
          | named meaning => exact hinside (hc ▸ hat) hshown
          | plain value => exact hother rfl
        next => exact hother rfl

end RegexDiagram.Pattern
