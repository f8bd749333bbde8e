import RegexDiagram.Proofs.Pattern.Findings
import RegexDiagram.Proofs.Pattern.Lossless

/-!
# The anomalies of a pattern are those its tree shows

`read_anomalies_findings` says that reading notes exactly what `Root.findings` reads off the tree, each
anomaly once, and never two of them at one position.

The invariant, `Diagnosed`, compares the two while the pattern is read. There are two reasons why they
differ on the way. A group that is open is no node yet, but the name it lacks is already noted. And a
brace that begins no quantifier is noted behind the item in front of it, before it is read as the
literal that shows it.
-/

namespace RegexDiagram.Pattern

/-! ## Names of groups -/

namespace Token

theorem Opening.read_nameless (s : List Char) :
    (Opening.read s).nameless = true ↔
      (Opening.read s).kind = .capturing ∧ (Opening.read s).marker = ['?', '<'] := by
  unfold Opening.read
  split
  case h_6 =>
    split
    · split <;> simp
    · simp
  all_goals simp

theorem Opening.read_marker_ne_nil (s : List Char) :
    (Opening.read ('?' :: '<' :: s)).marker ≠ [] := by
  unfold Opening.read
  split
  case h_6 =>
    split
    · split <;> exact List.cons_ne_nil _ _
    · exact List.cons_ne_nil _ _
  case h_7 h => exact absurd rfl (h s)
  all_goals exact List.cons_ne_nil _ _

end Token

/-- What an opening notes is what the group shows: its name is missing. -/
theorem nameFindings_opening (pos : Nat) (rest : List Char) :
    nameFindings (Token.Opening.read rest).kind ⟨'(' :: (Token.Opening.read rest).marker, pos⟩ =
      if (Token.Opening.read rest).nameless then [⟨pos + 1, .unterminatedGroupName⟩] else [] := by
  have hmarks := Token.Opening.read_marks rest
  unfold nameFindings
  simp only [Token.Opening.read_nameless]
  by_cases hkind : (Token.Opening.read rest).kind = .capturing
  · rw [hkind] at hmarks
    rcases hmarks with hmarker | hmarker <;> simp [hkind, hmarker]
  · simp [hkind]

/-- The position that an opening notes lies in its marker. -/
theorem nameFindings_distinct (pos : Nat) (rest : List Char) :
    Distinct (pos + 1) (pos + 1 + byteLength (Token.Opening.read rest).marker)
      (offsets (nameFindings (Token.Opening.read rest).kind
        ⟨'(' :: (Token.Opening.read rest).marker, pos⟩)) := by
  rw [nameFindings_opening]
  split
  next hnameless =>
    have hmarker := ((Token.Opening.read_nameless rest).1 hnameless).2
    rw [hmarker]
    exact .singleton (Nat.le_refl _) (Nat.lt_add_of_pos_right (byteLength_pos (List.cons_ne_nil _ _)))
  next => exact .nil _ _

/-- A group that is closed shows the same about its name as when it was opened. -/
theorem nameFindings_close {g : OpenGroup} {following text : List Char}
    (h : g.OpenedBefore following) (ht : text <+: following) :
    nameFindings g.kind ⟨g.span.text ++ text, g.span.offset⟩ = nameFindings g.kind g.span := by
  obtain ⟨marker, hspan, hmarker, hkind⟩ := h
  have hmarks := Token.Opening.read_marks (marker ++ following)
  rw [hmarker, hkind] at hmarks
  unfold nameFindings
  by_cases hcapturing : g.kind = .capturing
  · rw [hcapturing] at hmarks
    rcases hmarks with rfl | rfl
    -- the text of the group cannot bring a marker in: it would have been read as one
    · have hname : ¬ ['?', '<'] <+: text := by
        rintro ⟨more, rfl⟩
        obtain ⟨after, rfl⟩ := ht
        exact Token.Opening.read_marker_ne_nil (more ++ after) hmarker
      simp [hspan, hname]
    · simp [hspan]
  · simp [hcapturing]

/-! ## Braces -/

/-- What is noted before a brace is read: the item in front of it is not repeated, and the brace comes
next. -/
def pendingBrace (last : Option Node) (pos : Nat) (rest : List Char) : List Anomaly :=
  if last.any (!·.isQuantified) ∧ rest.head? = some '\x7b' then [⟨pos, .malformedQuantifier⟩] else []

theorem pendingBrace_of_ne {c : Char} (hc : c ≠ '\x7b') (last : Option Node) (pos : Nat)
    (rest : List Char) : pendingBrace last pos (c :: rest) = [] := by
  refine if_neg fun h => hc ?_
  exact Option.some.inj h.2

theorem pendingBrace_nil (last : Option Node) (pos : Nat) : pendingBrace last pos [] = [] :=
  if_neg fun h => nomatch h.2

theorem pendingBrace_none (pos : Nat) (rest : List Char) : pendingBrace none pos rest = [] :=
  if_neg fun h => nomatch h.1

namespace Node

theorem bare_quantify {node : Node} (h : node.isQuantified = false)
    (quantifier : Option Quantifier) : (node.quantify quantifier).bare = node := by
  cases quantifier with
  | some q => rfl
  | none =>
    cases node with
    | quantified span atom repetition => cases h
    | _ => rfl

theorem isQuantified_quantify {node : Node} (h : node.isQuantified = false)
    (quantifier : Option Quantifier) :
    (node.quantify quantifier).isQuantified = quantifier.isSome := by
  cases quantifier with
  | some q => rfl
  | none => exact h

theorem isBrace_quantify {node : Node} (h : node.isQuantified = false)
    (quantifier : Option Quantifier) : (node.quantify quantifier).isBrace = node.isBrace := by
  have hbare : node.bare = node := bare_quantify h none
  rw [isBrace, isBrace, bare_quantify h, hbare]

end Node

/-- Nothing is shown about an item that is no brace. -/
theorem braceFindings_of_not {node : Node} (h : node.isBrace = false) (last : Option Node) :
    braceFindings last node = [] := by
  apply if_neg
  intro hboth
  rw [h] at hboth
  cases hboth.2

/-- Behind an item and its quantifier, a brace is noted just if the text behind the item begins with a
brace and with no quantifier. -/
theorem pendingBrace_quantify {node : Node} (h : node.isQuantified = false)
    {behind after : List Char} (hbehind : behind = quantifierChars (Quantifier.read? behind) ++ after)
    (pos : Nat) :
    pendingBrace (some (node.quantify (Quantifier.read? behind)))
        (pos + byteLength (quantifierChars (Quantifier.read? behind))) after =
      malformedAt pos behind := by
  unfold pendingBrace malformedAt
  rw [Option.any_some, Node.isQuantified_quantify h]
  cases hread : Quantifier.read? behind with
  | some q => rfl
  | none =>
    rw [hread] at hbehind
    rw [show behind = after from hbehind]
    simp [quantifierChars]

/-- Behind an item without a quantifier there is none to be read. -/
theorem unread_quantify {node : Node} (h : node.isQuantified = false) {behind after : List Char}
    (hbehind : behind = quantifierChars (Quantifier.read? behind) ++ after)
    (hlast : (node.quantify (Quantifier.read? behind)).isQuantified = false) :
    Quantifier.read? after = none := by
  rw [Node.isQuantified_quantify h] at hlast
  have hnone := Option.not_isSome_iff_eq_none.1 (Bool.eq_false_iff.1 hlast)
  rw [hnone] at hbehind
  rw [show after = behind from hbehind.symm, hnone]

theorem isQuantified_readAtom (pos : Nat) (c : Char) (rest : List Char) :
    (Token.readAtom pos c rest).1.isQuantified = false := by
  have hread := Token.readAtom_cases pos c rest
  generalize Token.readAtom pos c rest = read at hread ⊢
  cases hread <;> rfl

/-- An atom that begins with a brace is that brace. -/
theorem isBrace_readAtom (pos : Nat) (c : Char) (rest : List Char) (quantifier : Option Quantifier) :
    ((Token.readAtom pos c rest).1.quantify quantifier).isBrace = true ↔ c = '\x7b' := by
  rw [Node.isBrace_quantify (isQuantified_readAtom pos c rest)]
  have hread := Token.readAtom_cases pos c rest
  generalize Token.readAtom pos c rest = read at hread ⊢
  cases hread with
  | literal special => simp [Node.isBrace, Node.bare]
  | _ => simp [Node.isBrace, Node.bare, Node.readCharset, Token.escapeSpan]

/-- A brace that was noted is read where it was noted, and it follows the same item. -/
theorem braceFindings_readAtom (last : Option Node) (pos : Nat) (c : Char) (rest : List Char)
    (quantifier : Option Quantifier) :
    braceFindings last ((Token.readAtom pos c rest).1.quantify quantifier) =
      pendingBrace last pos (c :: rest) := by
  unfold braceFindings pendingBrace
  simp only [isBrace_readAtom, Node.bare_quantify (isQuantified_readAtom pos c rest),
    (Token.readAtom_lossless pos c rest).1, List.head?_cons, Option.some.injEq]

/-! ## Positions in an atom -/

theorem readCharset_distinct (offset : Nat) (rest : List Char) :
    Distinct offset (Node.readCharset offset rest).1.span.stop
      (offsets (Node.readCharset offset rest).2) := by
  obtain ⟨negated, inner, read, -, hread, hcharset⟩ := Node.readCharset_cases offset rest
  have hmembers := ClassBody.read_distinct (offset + byteLength (charsetStart negated)) inner
  rw [← hread] at hmembers
  have hstart : 0 < byteLength (charsetStart negated) := by
    cases negated <;> decide
  rw [hcharset]
  have hbracket : Distinct offset (offset + byteLength (charsetStart negated))
      (offsets (if read.closed then [] else [⟨offset, .unterminatedCharset⟩])) := by
    cases read.closed with
    | true => exact .nil _ _
    | false => exact .singleton (Nat.le_refl _) (Nat.lt_add_of_pos_right hstart)
  have hall := (hbracket.append hmembers (Nat.le_add_right _ _) (Nat.le_add_right _ _)).perm
    List.perm_append_comm
  rw [← offsets_append] at hall
  refine hall.mono (Nat.le_refl _) ?_
  simp only [Node.span, Span.stop, byteLength_append]
  omega

/-- What is noted for an atom has positions of its own, and so has a brace that is noted before it:
where no quantifier is read, no atom is noted for being one. -/
theorem readAtom_distinct {last : Option Node} (pos : Nat) {c : Char} {rest : List Char}
    (unread : ∀ node ∈ last, node.isQuantified = false → Quantifier.read? (c :: rest) = none) :
    Distinct pos (Token.readAtom pos c rest).1.span.stop
      (offsets (pendingBrace last pos (c :: rest) ++ (Token.readAtom pos c rest).2)) := by
  have hread := Token.readAtom_cases pos c rest
  generalize Token.readAtom pos c rest = read at hread ⊢
  cases hread with
  | charset =>
    rw [pendingBrace_of_ne (by decide)]
    exact readCharset_distinct pos rest
  | escaped value =>
    rw [pendingBrace_of_ne (by decide)]
    refine (troubles_distinct _ (Token.escapeSpan pos rest)).mono (Nat.le_refl _) ?_
    exact Nat.add_le_add_left (byteLength_pos (List.cons_ne_nil _ _)) pos
  | literal special =>
    have hstop : pos < pos + byteLength [c] :=
      Nat.lt_add_of_pos_right (byteLength_pos (List.cons_ne_nil _ _))
    show Distinct pos (pos + byteLength [c]) _
    by_cases hpending : last.any (!·.isQuantified) = true ∧ (c :: rest).head? = some '\x7b'
    -- the brace is noted as one that begins no quantifier, so not as nothing to repeat
    · have hnothing : ¬ (c ∈ ['*', '+', '?'] ∨ (Bounds.braces? (c :: rest)).isSome) := by
        obtain ⟨hlast, hbrace⟩ := hpending
        obtain rfl := Option.some.inj hbrace
        cases last with
        | none => cases hlast
        | some node =>
          have hunread := unread node rfl (by simpa using hlast)
          have hbraces : Bounds.braces? ('\x7b' :: rest) = none := Option.map_eq_none_iff.1 hunread
          rw [hbraces]
          decide
      rw [pendingBrace, if_pos hpending, if_neg hnothing, List.append_nil]
      exact .singleton (Nat.le_refl _) hstop
    · rw [pendingBrace, if_neg hpending, List.nil_append]
      split
      · exact .singleton (Nat.le_refl _) hstop
      · exact .nil _ _
  | _ =>
    rw [pendingBrace_of_ne (by decide)]
    exact .nil _ _

/-- The text that the reader has before it is the pattern from there on. -/
theorem Nesting.Sound.onward_eq {start pos : Nat} {body s : List Char} {n : Nesting}
    (h : n.Sound start body pos s) : Span.onward ⟨body, start⟩ pos = s :=
  Span.At.onward_eq h.split

/-! ## The invariant -/

/-- What an open group shows already. -/
def OpenGroup.findings (g : OpenGroup) : List Anomaly := nameFindings g.kind g.span

/-- What is to be noted for a group that is ended by the given characters. -/
def OpenGroup.unterminated (g : OpenGroup) (ending : List Char) : List Anomaly :=
  if ending = [] then [⟨g.span.offset, .unterminatedGroup⟩] else []

/-- What is noted is `settled` and a brace that comes next. The nodes that are read and the open groups
show just what is settled, and its positions and those of the open groups are different. -/
structure Diagnosed (start : Nat) (body : List Char) (n : Nesting) (pos : Nat) (rest : List Char)
    (settled : List Anomaly) : Prop where
  sound : n.Sound start body pos rest
  noted : n.anomalies = settled ++ pendingBrace n.level.items.head? pos rest
  shown : settled.Perm
    (n.gather (View.findings ⟨body, start⟩) ++ n.groups.flatMap OpenGroup.findings)
  distinct : Distinct start pos (offsets settled ++ n.groups.map (·.span.offset))
  unread : ∀ node ∈ n.level.items.head?, node.isQuantified = false → Quantifier.read? rest = none

namespace Diagnosed

variable {start pos : Nat} {body s after : List Char} {n : Nesting} {settled : List Anomaly}

theorem at_start (start : Nat) (body : List Char) :
    Diagnosed start body (.start start) start body [] where
  sound := Nesting.sound_start start body
  noted := (pendingBrace_none start body).symm
  shown := by
    rw [Nesting.gather_start (gathers_findings _)]
    exact .refl _
  distinct := .nil _ _
  unread := fun _ h => nomatch h

theorem start_le (h : Diagnosed start body n pos s settled) : start ≤ pos := by
  obtain ⟨before, -, hbefore⟩ := h.sound.split
  omega

/-- A group that is closed shows what it showed when it was open and, if nothing closes it, that it
ends where its content ends. -/
theorem findings_close (h : Diagnosed start body n pos s settled) {g : OpenGroup}
    {more : List OpenGroup} (groups : n.groups = g :: more) {ending : List Char}
    (hending : ending <+: s) :
    View.findings ⟨body, start⟩ (.node (g.close n.level ending)) =
      g.findings ++ g.unterminated ending := by
  have henclosed := h.sound.groups
  rw [groups] at henclosed
  obtain ⟨hinner, hopened, -, -⟩ := henclosed
  have hstop := OpenGroup.close_stop ending h.sound.level hinner
  have hname : nameFindings g.kind (g.close n.level ending).span = g.findings := by
    have hspan : (g.close n.level ending).span =
        ⟨g.span.text ++ (n.level.alternation.span.text ++ ending), g.span.offset⟩ := by
      rw [← List.append_assoc]
      rfl
    rw [hspan]
    exact nameFindings_close hopened ((List.prefix_append_right_inj _).2 hending)
  have hends : (g.close n.level ending).span.stop = n.level.alternation.span.stop ↔
      ending = [] := by
    rw [hstop, h.sound.level.alternation_stop]
    constructor
    · intro heq
      apply Decidable.byContradiction
      intro hne
      have hpos := byteLength_pos hne
      omega
    · rintro rfl
      rfl
  rw [← hname]
  show _ ++ (if (g.close n.level ending).span.stop = n.level.alternation.span.stop then _ else _) = _
  simp only [hends]
  rfl

/-- Closing a group adds to what the nodes show what the group has shown so far, and that it is
not closed by anything if this is so. -/
theorem shown_close (h : Diagnosed start body n pos s settled) {g : OpenGroup}
    {more : List OpenGroup} (groups : n.groups = g :: more) {ending : List Char}
    (hending : ending <+: s) (quantifier : Option Quantifier) (anomalies : List Anomaly) :
    (settled ++ g.unterminated ending).Perm
      (Nesting.gather (View.findings ⟨body, start⟩)
        ⟨g.outside.add ((g.close n.level ending).quantify quantifier), more, anomalies⟩ ++
          more.flatMap OpenGroup.findings) := by
  have hbrace : braceFindings g.outside.items.head?
      ((g.close n.level ending).quantify quantifier) = [] :=
    braceFindings_of_not (Node.isBrace_quantify rfl quantifier) _
  have hbranch := findings_branch ⟨body, start⟩ g.outside
    ((g.close n.level ending).quantify quantifier)
  rw [hbrace] at hbranch
  have hclose := Nesting.gather_close (gathers_findings ⟨body, start⟩) groups
    (.of_eq hbranch) anomalies
  rw [h.findings_close groups hending] at hclose
  have hshown := h.shown
  rw [groups, List.flatMap_cons] at hshown
  -- what the group has shown moves from the open groups to the nodes
  rw [List.perm_iff_count] at hclose hshown ⊢
  intro a
  have hgroup := hclose a
  have hall := hshown a
  simp only [List.count_append, List.count_nil] at hgroup hall ⊢
  omega

/-- An item is read: what is noted about it is what it shows, and a brace that was noted before it is
settled. -/
theorem add (h : Diagnosed start body n pos s settled) {node : Node} {noted : List Anomaly}
    {behind : List Char} {stop : Nat}
    (hsound : Nesting.Sound start body
      ⟨n.level.add (node.quantify (Quantifier.read? behind)), n.groups,
        n.anomalies ++ (noted ++ malformedAt stop behind)⟩
      (stop + byteLength (quantifierChars (Quantifier.read? behind))) after)
    (hitem : node.isQuantified = false)
    (hbehind : behind = quantifierChars (Quantifier.read? behind) ++ after)
    (hbrace : braceFindings n.level.items.head? (node.quantify (Quantifier.read? behind)) =
      pendingBrace n.level.items.head? pos s)
    (hnoted : (node.views.flatMap (View.findings ⟨body, start⟩)).Perm noted)
    (hstop : pos ≤ stop)
    (hdistinct : Distinct pos stop (offsets (pendingBrace n.level.items.head? pos s ++ noted))) :
    Diagnosed start body
      ⟨n.level.add (node.quantify (Quantifier.read? behind)), n.groups,
        n.anomalies ++ (noted ++ malformedAt stop behind)⟩
      (stop + byteLength (quantifierChars (Quantifier.read? behind))) after
      (settled ++ (pendingBrace n.level.items.head? pos s ++ noted)) where
  sound := hsound
  noted := by
    rw [h.noted, ← pendingBrace_quantify hitem hbehind stop]
    simp only [List.append_assoc]
    rfl
  shown := by
    have hbranch := findings_branch ⟨body, start⟩ n.level (node.quantify (Quantifier.read? behind))
    rw [hbrace] at hbranch
    have hadd := Nesting.gather_add (gathers_findings ⟨body, start⟩) n (.of_eq hbranch)
      (n.anomalies ++ (noted ++ malformedAt stop behind))
    have hshown := h.shown
    rw [List.perm_iff_count] at hadd hshown hnoted ⊢
    intro a
    have hnode := hnoted a
    have hgather := hadd a
    have hall := hshown a
    simp only [List.count_append] at hgather hall ⊢
    omega
  distinct := by
    have hall := (h.distinct.append hdistinct h.start_le hstop).mono (Nat.le_refl _)
      (Nat.le_add_right stop (byteLength (quantifierChars (Quantifier.read? behind))))
    refine hall.perm ?_
    rw [offsets_append settled]
    simp only [List.append_assoc]
    exact .append_left _ List.perm_append_comm
  unread node' hnode' := by
    obtain rfl := Option.some.inj hnode'
    exact unread_quantify hitem hbehind

/-- The notes and the tree go on together with every piece. -/
theorem step {n' : Nesting} {pos' : Nat} (effect : n.Effect pos s after n' pos')
    (h : Diagnosed start body n pos s settled) :
    ∃ settled', Diagnosed start body n' pos' after settled' := by
  have hsound := h.sound.step effect
  cases effect with
  | bar =>
    refine ⟨settled, hsound, ?_, ?_, ?_, fun _ h => nomatch h⟩
    · rw [h.noted, pendingBrace_of_ne (by decide)]
      exact congrArg _ (pendingBrace_none _ _).symm
    · rw [Nesting.gather_bar (gathers_findings _)]
      exact h.shown
    · exact h.distinct.mono (Nat.le_refl _) (Nat.le_succ _)
  | @opening rest _ marker =>
    have hopening := nameFindings_opening pos rest
    refine ⟨settled ++ OpenGroup.findings ⟨(Token.Opening.read rest).kind,
      ⟨'(' :: (Token.Opening.read rest).marker, pos⟩, n.level⟩, hsound, ?_, ?_, ?_,
      fun _ h => nomatch h⟩
    · rw [h.noted, pendingBrace_of_ne (by decide), List.append_nil, ← hopening]
      show _ = _ ++ pendingBrace none _ _
      rw [pendingBrace_none, List.append_nil]
      rfl
    · rw [Nesting.gather_opening (gathers_findings _), List.flatMap_cons]
      have hshown := h.shown
      rw [List.perm_iff_count] at hshown ⊢
      intro a
      have hall := hshown a
      simp only [List.count_append] at hall ⊢
      omega
    -- the parenthesis is kept for the group, and the name is noted one byte behind it
    · have hparen : Distinct pos (pos + 1) [pos] := .singleton (Nat.le_refl _) (Nat.lt_succ_self _)
      have hnew := hparen.append (nameFindings_distinct pos rest) (Nat.le_succ _)
        (Nat.le_add_right _ _)
      refine (h.distinct.append hnew h.start_le (by omega)).perm ?_
      rw [offsets_append, List.map_cons, List.perm_iff_count]
      intro p
      simp only [List.count_append, List.count_cons, List.count_nil, OpenGroup.findings]
      omega
  | @closing g more rest _ groups quantifier =>
    refine ⟨settled, hsound, ?_, ?_, ?_, ?_⟩
    · rw [h.noted, pendingBrace_of_ne (by decide), List.append_nil]
      exact congrArg _ (pendingBrace_quantify rfl quantifier (pos + 1)).symm
    · have hclose := h.shown_close groups (List.prefix_append [')'] rest) (Quantifier.read? rest)
        (n.anomalies ++ malformedAt (pos + 1) rest)
      exact (List.append_nil settled) ▸ hclose
    -- a group that is closed gives its position up
    · have hdistinct := h.distinct
      rw [groups, List.map_cons] at hdistinct
      refine (hdistinct.sublist (.append_left (List.sublist_cons_self _ _) _)).mono
        (Nat.le_refl _) ?_
      rw [Nat.add_assoc]
      exact Nat.le_add_right _ _
    · intro node hnode
      obtain rfl := Option.some.inj hnode
      exact unread_quantify rfl quantifier
  | @unmatched rest _ groups quantifier =>
    have hpending := pendingBrace_of_ne (show ')' ≠ '\x7b' by decide) n.level.items.head? pos rest
    have hbrace : braceFindings n.level.items.head?
        ((Node.literal ⟨[')'], pos⟩ [')']).quantify (Quantifier.read? rest)) = [] :=
      braceFindings_of_not (Node.isBrace_quantify rfl _) _
    have hdistinct : Distinct pos (pos + 1) (offsets [⟨pos, .unmatchedParen⟩]) :=
      .singleton (Nat.le_refl _) (Nat.lt_succ_self _)
    rw [List.append_assoc, ← groups] at hsound ⊢
    exact ⟨_, h.add hsound rfl quantifier (hbrace.trans hpending.symm) (.refl _) (Nat.le_succ _)
      (by rw [hpending]; exact hdistinct)⟩
  | @atom c rest behind _ _ opening closing atom quantifier =>
    have hdistinct := readAtom_distinct pos h.unread
    have hoffset := (Token.readAtom_lossless pos c rest).1
    have hstop : (Token.readAtom pos c rest).1.span.stop =
        pos + byteLength (Token.readAtom pos c rest).1.span.text := by
      rw [Span.stop, hoffset]
    rw [hstop] at hdistinct hsound ⊢
    exact ⟨_, h.add hsound (isQuantified_readAtom pos c rest) quantifier
      (braceFindings_readAtom _ pos c rest _) (findings_readAtom closing h.sound.onward_eq)
      (Nat.le_add_right _ _) hdistinct⟩

/-- A group that is open at the end of the pattern is noted, and shows it. -/
theorem closeLast {level : Level} {g : OpenGroup} {more : List OpenGroup}
    {anomalies : List Anomaly}
    (h : Diagnosed start body ⟨level, g :: more, anomalies⟩ pos [] settled) :
    Diagnosed start body
      ⟨g.outside.add (g.close level []), more,
        anomalies ++ [⟨g.span.offset, .unterminatedGroup⟩]⟩ pos []
      (settled ++ [⟨g.span.offset, .unterminatedGroup⟩]) where
  sound := h.sound.closeLast _
  noted := by
    have hnoted : anomalies = settled ++ pendingBrace level.items.head? pos [] := h.noted
    rw [hnoted, pendingBrace_nil, pendingBrace_nil, List.append_nil, List.append_nil]
  shown := h.shown_close rfl (List.prefix_refl []) none _
  distinct := by
    refine h.distinct.perm ?_
    rw [offsets_append, List.append_assoc]
    exact .refl _
  unread := fun _ _ _ => rfl

end Diagnosed

/-! ## The result -/

/-- **The anomalies of a pattern are those its tree shows**, each as often as it is shown, and no two
of them have the same position. -/
theorem read_anomalies_findings (input : List Char) :
    (read input).anomalies.Perm (read input).root.findings ∧
      ((read input).anomalies.map (·.offset)).Nodup := by
  obtain ⟨level, anomalies, stop, ⟨settled, h⟩, hread⟩ := @Alternation.ofText_eq
    (fun n pos rest =>
      ∃ settled, Diagnosed (bodySpan input).offset (bodySpan input).text n pos rest settled)
    (fun effect ⟨_, h⟩ => h.step effect)
    (fun ⟨_, h⟩ => ⟨_, h.closeLast⟩)
    (bodySpan input).offset (bodySpan input).text ⟨_, Diagnosed.at_start _ _⟩
  have hnoted : anomalies = settled := by
    have hall := h.noted
    rw [pendingBrace_nil, List.append_nil] at hall
    exact hall
  have hshown : settled.Perm (level.gather (View.findings (bodySpan input))) := by
    have hall := h.shown
    rw [List.flatMap_nil, List.append_nil, Nesting.gather, List.flatMap_nil, List.append_nil] at hall
    exact hall
  have hfindings : (read input).root.findings = level.gather (View.findings (bodySpan input)) := by
    rw [Root.findings, Root.descendants, read_alternation_span, List.flatMap_cons, read_alternation,
      hread]
    rfl
  rw [read_anomalies, hread, hfindings, hnoted]
  refine ⟨hshown, ?_⟩
  have hnodup := h.distinct.nodup
  rw [List.map_nil, List.append_nil] at hnodup
  exact hnodup

end RegexDiagram.Pattern
