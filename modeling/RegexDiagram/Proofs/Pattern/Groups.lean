import RegexDiagram.Proofs.Pattern.Gather
import RegexDiagram.Proofs.Pattern.Lossless
import RegexDiagram.Proofs.Pattern.Scanner

/-!
# The groups of a pattern are those of the scan

`read_groups_scan` says that the tree has the groups that a flat scan finds, and that the anomalies
about parentheses and brackets are the ones of the scan.

The invariant, `Agrees`, runs the scan beside the reader. The stack of the scan has the positions of
the open groups as long as the pattern goes on. At its end the reader ends these groups one by one, and
the scan does nothing any more.
-/

namespace RegexDiagram.Pattern

theorem gathers_groupEnds : Gathers View.groupEnds :=
  ⟨fun _ => rfl, fun _ _ _ => rfl, fun _ => rfl⟩

theorem groupEnds_readAtom (pos : Nat) (c : Char) (rest : List Char) :
    (Token.readAtom pos c rest).1.views.flatMap View.groupEnds = [] := by
  have hread := Token.readAtom_cases pos c rest
  generalize Token.readAtom pos c rest = read at hread ⊢
  cases hread with
  | charset =>
    obtain ⟨negated, inner, body, -, -, hread⟩ := Node.readCharset_cases pos rest
    rw [hread, Node.views, List.flatMap_cons, List.flatMap_assoc]
    apply List.flatMap_eq_nil_iff.2
    intro member _
    cases member <;> rfl
  | _ => rfl

/-- An item adds the groups in it. -/
theorem groupEnds_add (n : Nesting) (node : Node) (quantifier : Option Quantifier)
    (anomalies : List Anomaly) :
    (Nesting.gather View.groupEnds
        ⟨n.level.add (node.quantify quantifier), n.groups, anomalies⟩).Perm
      (n.gather View.groupEnds ++ node.views.flatMap View.groupEnds) :=
  Nesting.gather_add gathers_groupEnds n (.refl _) anomalies

/-- Ending a group adds this group: it starts at its parenthesis, and it ends behind what ends it. -/
theorem groupEnds_close {start pos : Nat} {body rest : List Char} {n : Nesting}
    (h : n.Sound start body pos rest) {g : OpenGroup} {more : List OpenGroup}
    (groups : n.groups = g :: more) (ending : List Char) (quantifier : Option Quantifier)
    (anomalies : List Anomaly) :
    (Nesting.gather View.groupEnds
        ⟨g.outside.add ((g.close n.level ending).quantify quantifier), more, anomalies⟩).Perm
      (n.gather View.groupEnds ++ [(g.span.offset, pos + byteLength ending)]) := by
  have henclosed := h.groups
  rw [groups] at henclosed
  have hstop := OpenGroup.close_stop ending h.level henclosed.1
  rw [← hstop]
  exact Nesting.gather_close gathers_groupEnds groups (.refl _) anomalies

theorem malformedAt_other (pos : Nat) (rest : List Char) :
    ∀ a ∈ malformedAt pos rest, ¬ a.kind.IsNesting := by
  intro a ha
  unfold malformedAt at ha
  split at ha
  · rw [List.mem_singleton.1 ha]
    exact id
  · cases ha

/-- The reader and the scan agree where the reader stands: both have the same parentheses open and
have found the same groups, and the scan of the rest gives the scan of the whole pattern. At the
end of the pattern, groups are ended by the reader that stay on the stack of the scan. -/
structure Agrees (start : Nat) (body : List Char) (n : Nesting) (pos : Nat) (rest : List Char)
    (scan : GroupScan) (ended : List Nat) : Prop where
  sound : n.Sound start body pos rest
  run : GroupScan.run pos scan rest = GroupScan.run start .empty body
  stack : scan.stack = ended ++ n.groups.map (·.span.offset)
  groups : (n.gather View.groupEnds).Perm
    (scan.pairs ++ ended.map fun opened => (opened, start + byteLength body))
  noted : Noted n.anomalies scan.unmatched ended scan.unclosed.toList
  running : rest ≠ [] → ended = [] ∧ scan.unclosed = none

namespace Agrees

variable {start pos : Nat} {body s after : List Char} {n : Nesting} {scan : GroupScan}
  {ended : List Nat}

theorem at_start (start : Nat) (body : List Char) :
    Agrees start body (.start start) start body .empty [] where
  sound := Nesting.sound_start start body
  run := rfl
  stack := rfl
  groups := by
    rw [Nesting.gather_start gathers_groupEnds]
    exact .refl _
  noted := ⟨rfl, rfl, rfl⟩
  running _ := ⟨rfl, rfl⟩

/-- An item that holds no group is read: the scan keeps what it has open and what it has found. -/
theorem add {pos' : Nat} {scan' : GroupScan} {node : Node} {quantifier : Option Quantifier}
    {anomalies : List Anomaly} (h : Agrees start body n pos s scan [])
    (hsound : Nesting.Sound start body
      ⟨n.level.add (node.quantify quantifier), n.groups, anomalies⟩ pos' after)
    (hrun : GroupScan.run pos scan s = GroupScan.run pos' scan' after)
    (hfound : scan'.stack = scan.stack ∧ scan'.pairs = scan.pairs)
    (hends : node.views.flatMap View.groupEnds = [])
    (hnoted : Noted anomalies scan'.unmatched [] scan'.unclosed.toList)
    (hunclosed : after ≠ [] → scan'.unclosed = none) :
    Agrees start body ⟨n.level.add (node.quantify quantifier), n.groups, anomalies⟩ pos' after
      scan' [] where
  sound := hsound
  run := hrun.symm.trans h.run
  stack := hfound.1.trans h.stack
  groups := by
    have hadd := groupEnds_add n node quantifier anomalies
    rw [hends, List.append_nil] at hadd
    rw [hfound.2]
    exact hadd.trans h.groups
  noted := hnoted
  running hrest := ⟨rfl, hunclosed hrest⟩

/-- A group is closed: the scan pops the parenthesis of the group that the reader closes. -/
theorem close {pos' : Nat} {rest : List Char} {g : OpenGroup} {more : List OpenGroup}
    {quantifier : Option Quantifier} {anomalies : List Anomaly}
    (h : Agrees start body n pos (')' :: rest) scan []) (groups : n.groups = g :: more)
    (hsound : Nesting.Sound start body
      ⟨g.outside.add ((g.close n.level [')']).quantify quantifier), more,
        n.anomalies ++ anomalies⟩ pos' after)
    (hrun : GroupScan.run (pos + 1) (scan.pop pos) rest =
      GroupScan.run pos' (scan.pop pos) after)
    (hother : ∀ a ∈ anomalies, ¬ a.kind.IsNesting) :
    Agrees start body
      ⟨g.outside.add ((g.close n.level [')']).quantify quantifier), more,
        n.anomalies ++ anomalies⟩ pos' after (scan.pop pos) [] := by
  have hstack := h.stack
  rw [groups, List.nil_append, List.map_cons] at hstack
  have hunclosed := (h.running (List.cons_ne_nil _ _)).2
  have hpop := GroupScan.pop_of_cons hstack pos
  constructor
  · exact hsound
  · rw [← h.run, GroupScan.run_closing, hrun]
  · rw [hpop]
    rfl
  · rw [hpop]
    refine (groupEnds_close h.sound groups [')'] _ _).trans ?_
    have hgroups := h.groups.append_right [(g.span.offset, pos + 1)]
    rw [List.map_nil, List.append_nil] at hgroups ⊢
    exact hgroups
  · rw [hpop]
    exact h.noted.append_other hother
  · rw [hpop]
    exact fun _ => ⟨rfl, hunclosed⟩

/-- The scan follows the reader over every piece. -/
theorem step {n' : Nesting} {pos' : Nat} (effect : n.Effect pos s after n' pos')
    (h : Agrees start body n pos s scan ended) :
    ∃ scan' ended', Agrees start body n' pos' after scan' ended' := by
  have hsound := h.sound.step effect
  -- a piece is left to be read, so no group is ended yet and no class is open
  obtain ⟨rfl, hunclosed⟩ := h.running (by cases effect <;> exact List.cons_ne_nil _ _)
  cases effect with
  | bar =>
    refine ⟨scan, [], hsound, ?_, h.stack, ?_, h.noted, fun _ => ⟨rfl, hunclosed⟩⟩
    · rw [← h.run, ← List.singleton_append]
      exact (@GroupScan.run_plain ['|'] rfl pos scan after).symm
    · rw [Nesting.gather_bar gathers_groupEnds]
      exact h.groups
  | @opening rest _ marker =>
    -- both push the parenthesis; the scan passes over the marker, which holds none
    refine ⟨{ scan with stack := pos :: scan.stack }, [], hsound, ?_, ?_, ?_,
      h.noted.append_other fun a ha => ?_, fun _ => ⟨rfl, hunclosed⟩⟩
    · rw [← h.run, GroupScan.run_opening]
      conv =>
        rhs
        rw [marker]
      exact (GroupScan.run_plain (isPlain_marker rest) _ _ after).symm
    · exact congrArg (List.cons pos) h.stack
    · rw [Nesting.gather_opening gathers_groupEnds]
      exact h.groups
    · split at ha
      · rw [List.mem_singleton.1 ha]
        exact id
      · cases ha
  | closing groups quantifier =>
    exact ⟨scan.pop pos, [], h.close groups hsound (GroupScan.run_quantifier quantifier _ _)
      (malformedAt_other _ _)⟩
  | @unmatched rest _ groups quantifier =>
    have hstack := h.stack
    rw [groups, List.nil_append, List.map_nil] at hstack
    have hpop := GroupScan.pop_of_nil hstack pos
    have hparen : Noted [⟨pos, .unmatchedParen⟩] [pos] [] [] := ⟨rfl, rfl, rfl⟩
    have hnoted := (h.noted.append hparen).append_other (malformedAt_other (pos + 1) rest)
    rw [List.append_nil, List.append_nil] at hnoted
    rw [← groups] at hsound ⊢
    refine ⟨scan.pop pos, [], h.add hsound ?_ ?_ rfl ?_ ?_⟩
    · rw [GroupScan.run_closing]
      exact GroupScan.run_quantifier quantifier _ _
    · rw [hpop]
      exact ⟨rfl, rfl⟩
    · rw [hpop]
      exact hnoted
    · rw [hpop]
      exact fun _ => hunclosed
  | @atom c rest behind _ _ opening closing atom quantifier =>
    have hends := groupEnds_readAtom pos c rest
    have hother := malformedAt_other (Token.readAtom pos c rest).1.span.stop behind
    rcases GroupScan.run_atom opening closing pos scan atom with
      ⟨hatom, hnoted⟩ | ⟨rfl, hatom, hnoted⟩
    · have hall := h.noted.append (hnoted.append_other hother)
      rw [List.append_nil, List.append_nil, List.append_nil] at hall
      exact ⟨scan, [], h.add hsound (hatom.trans (GroupScan.run_quantifier quantifier _ _))
        ⟨rfl, rfl⟩ hends hall fun _ => hunclosed⟩
    -- a class without an end has the rest of the pattern in it, and the scan stops in front of it
    · obtain rfl : after = [] := quantifier.symm
      have hall := h.noted.append (hnoted.append_other hother)
      rw [List.append_nil, List.append_nil, hunclosed] at hall
      exact ⟨{ scan with unclosed := some pos }, [],
        h.add hsound (hatom.trans (GroupScan.run_nil _ _).symm) ⟨rfl, rfl⟩ hends hall
          fun hrest => absurd rfl hrest⟩

/-- A group that is open at the end of the pattern is ended there; the scan is over. -/
theorem closeLast {level : Level} {g : OpenGroup} {more : List OpenGroup}
    {anomalies : List Anomaly}
    (h : Agrees start body ⟨level, g :: more, anomalies⟩ pos [] scan ended) :
    Agrees start body
      ⟨g.outside.add (g.close level []), more,
        anomalies ++ [⟨g.span.offset, .unterminatedGroup⟩]⟩ pos [] scan
      (ended ++ [g.span.offset]) := by
  have hclose := groupEnds_close h.sound rfl [] none
    (anomalies ++ [⟨g.span.offset, .unterminatedGroup⟩])
  obtain ⟨before, hbody, hbefore⟩ := h.sound.split
  have hstop : pos + byteLength [] = start + byteLength body := by
    rw [hbody, byteLength_append, ← hbefore, Nat.add_assoc]
  constructor
  · exact h.sound.closeLast _
  · exact h.run
  · rw [h.stack, List.append_assoc]
    rfl
  · refine hclose.trans ((h.groups.append_right _).trans ?_)
    rw [List.map_append, List.append_assoc, hstop]
    exact .refl _
  · have hgroup : Noted [⟨g.span.offset, .unterminatedGroup⟩] [] [g.span.offset] [] :=
      ⟨rfl, rfl, rfl⟩
    have hnoted := h.noted.append hgroup
    rw [List.append_nil, List.append_nil] at hnoted
    exact hnoted
  · intro hrest
    exact absurd rfl hrest

end Agrees

/-- **The groups of a pattern are those of a flat scan.** The groups in the tree are the pairs of the
scan and, for every parenthesis that is left on its stack, one group to the end of the body. The
unmatched parentheses are noted in order, the unterminated groups from the top of the stack to its
bottom, and a class is noted as unterminated, once and at its bracket, if the scan ends in it. -/
theorem read_groups_scan (input : List Char) :
    ((read input).root.descendants.flatMap View.groupEnds).Perm
        ((bodySpan input).scan.pairs ++
          (bodySpan input).scan.stack.map fun opened => (opened, (bodySpan input).stop)) ∧
      offsetsOf .unmatchedParen (read input).anomalies = (bodySpan input).scan.unmatched ∧
      offsetsOf .unterminatedGroup (read input).anomalies = (bodySpan input).scan.stack ∧
      offsetsOf .unterminatedCharset (read input).anomalies =
        (bodySpan input).scan.unclosed.toList := by
  generalize hbody : bodySpan input = body
  obtain ⟨level, anomalies, stop, ⟨last, ended, h⟩, hread⟩ := @Alternation.ofText_eq
    (fun n pos rest => ∃ scan ended, Agrees body.offset body.text n pos rest scan ended)
    (fun effect ⟨_, _, h⟩ => h.step effect)
    (fun ⟨_, _, h⟩ => ⟨_, _, h.closeLast⟩)
    body.offset body.text ⟨_, _, Agrees.at_start body.offset body.text⟩
  have hlast : last = body.scan := (GroupScan.run_nil stop last).symm.trans h.run
  have hstack : body.scan.stack = ended := by
    rw [← hlast, h.stack]
    exact List.append_nil _
  have hgroups : (level.gather View.groupEnds).Perm
      (body.scan.pairs ++ body.scan.stack.map fun opened => (opened, body.stop)) := by
    have hperm := h.groups
    rw [hlast, ← hstack] at hperm
    exact (List.append_nil (level.gather View.groupEnds)) ▸ hperm
  have hnoted := h.noted
  rw [hlast, ← hstack] at hnoted
  rw [read_anomalies, Root.descendants, read_alternation, hbody, hread]
  exact ⟨hgroups, hnoted.unmatched, hnoted.unterminated, hnoted.unclosed⟩

end RegexDiagram.Pattern
