import RegexDiagram.Proofs.Pattern.Steps
import RegexDiagram.Proofs.Pattern.Tiling

/-!
# Levels and open groups

What a state of the reader owes to the text. The innermost alternation ends where the reader stands
(`Level.Sound`); behind the parenthesis of each open group stands everything that is inside it and
everything that is still to be read (`Enclosed`). Put together, the characters that the state holds
and the ones to come are the whole pattern, at every moment.

`Nesting.Sound.step` is the step lemma; `Alternation.ofText_lossless` is what it gives at the end of
a whole pattern, once the groups that are still open are ended there.
-/

namespace RegexDiagram.Pattern

namespace Token

/-- The marker of a group belongs to its kind. -/
theorem Opening.read_marks (s : List Char) :
    (Opening.read s).kind.Marker (Opening.read s).marker := by
  unfold Opening.read
  split
  case h_6 rest _ _ =>
    split
    · split
      · rfl
      · exact .inr rfl
    · exact .inr rfl
  case h_7 => exact .inl rfl
  all_goals rfl

end Token

/-! ## Levels -/

namespace Level

theorem alternation_branches (l : Level) :
    l.alternation.branches = l.branches.reverse ++ [l.branch] := by
  rw [alternation, Alternation.ofBranches, List.reverse_cons]

theorem alternation_text (l : Level) :
    l.alternation.span.text =
      joinWith ['|'] (l.branches.reverse.map (·.span.text) ++ [l.branch.span.text]) := by
  rw [alternation, Alternation.ofBranches, List.reverse_cons, List.map_append]
  rfl

theorem branch_add (l : Level) (node : Node) :
    (l.add node).branch.span.text = l.branch.span.text ++ node.span.text := by
  simp only [add, branch, Sequence.ofItems, List.reverse_cons, List.flatMap_append,
    List.flatMap_cons, List.flatMap_nil, List.append_nil]

theorem text_opened (offset : Nat) : (opened offset).alternation.span.text = [] := rfl

theorem text_add (l : Level) (node : Node) :
    (l.add node).alternation.span.text = l.alternation.span.text ++ node.span.text := by
  rw [alternation_text, alternation_text, joinWith_snoc, joinWith_snoc, branch_add]
  show (if l.branches.reverse.map _ = [] then _ else _) = _
  split
  · rfl
  · rw [List.append_assoc, List.append_assoc, List.append_assoc]
    rfl

theorem text_nextBranch (l : Level) (offset : Nat) :
    (l.nextBranch offset).alternation.span.text = l.alternation.span.text ++ ['|'] := by
  have hbranches : (l.nextBranch offset).branches.reverse = l.branches.reverse ++ [l.branch] := by
    rw [nextBranch, List.reverse_cons]
  have hempty : (l.nextBranch offset).branch.span.text = [] := rfl
  rw [alternation_text, hempty, joinWith_snoc, hbranches, List.map_append, List.append_nil,
    if_neg (by simp), alternation_text]
  rfl

/-- The alternation is read up to the byte position `stop`: its finished branches and the items of
the current one tile what was read, and the last of them ends there. -/
structure Sound (l : Level) (stop : Nat) : Prop where
  branches : Span.Chain 1 l.start ((l.branches.reverse ++ [l.branch]).map (·.span))
  finished : ∀ b ∈ l.branches, b.Lossless
  items : Span.Chain 0 l.branchStart (l.items.reverse.map (·.span))
  read : ∀ i ∈ l.items, i.Lossless
  stop : l.branch.span.stop = stop

theorem sound_opened (offset : Nat) : (opened offset).Sound offset :=
  ⟨⟨rfl, trivial⟩, fun _ h => absurd h List.not_mem_nil, trivial,
    fun _ h => absurd h List.not_mem_nil, rfl⟩

namespace Sound

variable {l : Level} {stop : Nat}

theorem branch_lossless (h : l.Sound stop) : l.branch.Lossless := by
  rw [Sequence.lossless_iff]
  have hread : ∀ i ∈ l.items.reverse, i.Lossless := fun i hi => h.read i (List.mem_reverse.1 hi)
  exact ⟨⟨rfl, h.items, fun i hi => (hread i hi).1⟩, hread⟩

/-- The alternation, ended where the reader stands, tiles what was read. -/
theorem alternation_lossless (h : l.Sound stop) : l.alternation.Lossless := by
  rw [Alternation.lossless_iff, alternation_branches]
  refine ⟨⟨rfl, ?_⟩, ?_⟩
  · rw [alternation_branches]
    exact h.branches
  · intro b hb
    rcases List.mem_append.1 hb with hb | hb
    · exact h.finished b (List.mem_reverse.1 hb)
    · rw [List.mem_singleton.1 hb]
      exact h.branch_lossless

theorem alternation_stop (h : l.Sound stop) : l.alternation.span.stop = stop := by
  have hchain := h.branches
  rw [List.map_append, List.map_singleton] at hchain
  rw [← h.stop, ← hchain.stop_eq '|' rfl, Span.stop, alternation_text,
    List.map_append, List.map_map]
  rfl

/-- One more item is read, right where the reader stands. -/
theorem add (h : l.Sound stop) {node : Node} (hn : node.Lossless)
    (offset : node.span.offset = stop) : (l.add node).Sound node.span.stop where
  branches := by
    have hchain := h.branches
    rw [List.map_append, List.map_singleton, Span.chain_snoc] at hchain ⊢
    exact hchain
  finished := h.finished
  items := by
    show Span.Chain 0 l.branchStart ((node :: l.items).reverse.map (·.span))
    rw [List.reverse_cons, List.map_append, List.map_singleton, Span.chain_snoc,
      h.items.behind_eq, List.flatMap_map, offset, ← h.stop]
    exact ⟨h.items, rfl⟩
  read := List.forall_mem_cons.2 ⟨hn, h.read⟩
  stop := by
    rw [Span.stop, Span.stop, branch_add, byteLength_append, offset, ← h.stop, ← Nat.add_assoc]
    rfl

/-- A bar is read, and the next branch starts behind it. -/
theorem nextBranch (h : l.Sound stop) : (l.nextBranch (stop + 1)).Sound (stop + 1) where
  branches := by
    show Span.Chain 1 l.start
      (((l.branch :: l.branches).reverse ++ [(l.nextBranch (stop + 1)).branch]).map (·.span))
    rw [List.map_append, List.map_singleton, Span.chain_snoc, List.reverse_cons]
    refine ⟨h.branches, ?_⟩
    rw [List.map_append, List.map_singleton, Span.behind_snoc, h.stop]
    rfl
  finished := List.forall_mem_cons.2 ⟨h.branch_lossless, h.finished⟩
  items := trivial
  read := fun _ hi => absurd hi List.not_mem_nil
  stop := rfl

end Sound

end Level

/-! ## Open groups -/

/-- A group and what its opening was read from: behind its parenthesis stands its marker and then
the given text. -/
def OpenGroup.OpenedBefore (g : OpenGroup) (following : List Char) : Prop :=
  ∃ marker, g.span.text = '(' :: marker ∧ (Token.Opening.read (marker ++ following)).marker = marker ∧
    (Token.Opening.read (marker ++ following)).kind = g.kind

/-- The groups around an alternation that starts at `inner` and is followed, itself included, by the
given characters: the alternation starts where the innermost group is opened, the same holds of the
alternation around that group, and the outermost alternation is the whole pattern `body`, which
starts at `start`. -/
def Enclosed (start : Nat) (body : List Char) : Nat → List Char → List OpenGroup → Prop
  | inner, following, [] => inner = start ∧ following = body
  | inner, following, g :: more =>
    inner = g.span.stop ∧ g.OpenedBefore following ∧ g.outside.Sound g.span.offset ∧
      Enclosed start body g.outside.start
        (g.outside.alternation.span.text ++ (g.span.text ++ following)) more

/-- The reader stands at the byte position `pos` of the pattern `body` and has `rest` before it. -/
structure Nesting.Sound (start : Nat) (body : List Char) (n : Nesting) (pos : Nat)
    (rest : List Char) : Prop where
  level : n.level.Sound pos
  groups : Enclosed start body n.level.start (n.level.alternation.span.text ++ rest) n.groups

theorem Nesting.sound_start (start : Nat) (body : List Char) :
    (Nesting.start start).Sound start body start body :=
  ⟨Level.sound_opened start, rfl, rfl⟩

namespace OpenGroup

variable {g : OpenGroup} {content : Level} {following ending : List Char} {stop : Nat}

/-- The marker of an open group, and the position behind it. -/
theorem OpenedBefore.marks (h : g.OpenedBefore following) :
    ∃ marker, g.kind.Marker marker ∧ g.span.text = '(' :: marker ∧
      g.span.stop = g.span.offset + 1 + byteLength marker := by
  obtain ⟨marker, htext, hmarker, hkind⟩ := h
  have hparen : '('.utf8Size = 1 := rfl
  refine ⟨marker, ?_, htext, ?_⟩
  · have hm := Token.Opening.read_marks (marker ++ following)
    rw [hmarker, hkind] at hm
    exact hm
  · rw [Span.stop, htext, byteLength_cons, hparen, Nat.add_assoc]

theorem close_text (g : OpenGroup) (content : Level) (ending : List Char) :
    (g.close content ending).span.text =
      g.span.text ++ content.alternation.span.text ++ ending := rfl

theorem close_offset (g : OpenGroup) (content : Level) (ending : List Char) :
    (g.close content ending).span.offset = g.span.offset := rfl

/-- A group tiles its characters once it is closed around what was read in it. -/
theorem close_lossless (hg : g.OpenedBefore following) (hc : content.Sound stop)
    (start : content.start = g.span.stop) (hend : ending = [] ∨ ending = [')']) :
    (g.close content ending).Lossless := by
  obtain ⟨marker, hm, htext, hstop⟩ := hg.marks
  constructor
  · rw [close_text, htext]
    exact List.cons_ne_nil _ _
  · rw [close, Node.views, List.forall_mem_cons]
    refine ⟨⟨marker, ending, hm, hend, ?_, ?_⟩, hc.alternation_lossless⟩
    · rw [htext]
      rfl
    · rw [← hstop, ← start]
      rfl

/-- A group ends behind its content and its closing parenthesis, if it has one. -/
theorem close_stop (ending : List Char) (hc : content.Sound stop) (start : content.start = g.span.stop) :
    (g.close content ending).span.stop = stop + byteLength ending := by
  have hstop : g.span.stop + byteLength content.alternation.span.text = stop := by
    rw [← hc.alternation_stop, ← start]
    rfl
  rw [Span.stop, close_text, close_offset, byteLength_append, byteLength_append, ← hstop, Span.stop]
  omega

end OpenGroup

/-! ## Quantifiers -/

namespace Node

theorem quantify_text (node : Node) (quantifier : Option Quantifier) :
    (node.quantify quantifier).span.text =
      node.span.text ++ quantifierChars quantifier := by
  cases quantifier with
  | none => exact (List.append_nil _).symm
  | some q => rfl

theorem quantify_offset (node : Node) (quantifier : Option Quantifier) :
    (node.quantify quantifier).span.offset = node.span.offset := by
  cases quantifier <;> rfl

/-- Under a quantifier that is written in one of its forms, a node still tiles its characters. -/
theorem Lossless.quantify {node : Node} (h : node.Lossless) {quantifier : Option Quantifier}
    (hq : ∀ q, quantifier = some q → Quantifier.Written q.text q.repetition) :
    (node.quantify quantifier).Lossless := by
  cases quantifier with
  | none => exact h
  | some q =>
    have hw := hq q rfl
    refine ⟨?_, List.forall_mem_cons.2 ⟨⟨q.text, hw.ne_nil, hw, rfl, rfl, h.1⟩, h.2⟩⟩
    intro hnil
    exact h.1 (List.append_eq_nil_iff.1 hnil).1

end Node

/-- What follows the start of an open alternation is the end of the pattern. -/
theorem Enclosed.split {start inner : Nat} {body following : List Char} {groups : List OpenGroup}
    (h : Enclosed start body inner following groups) :
    ∃ before, body = before ++ following ∧ start + byteLength before = inner := by
  induction groups generalizing inner following with
  | nil =>
    obtain ⟨rfl, rfl⟩ := h
    exact ⟨[], rfl, rfl⟩
  | cons g more ih =>
    obtain ⟨rfl, -, houtside, hmore⟩ := h
    obtain ⟨before, rfl, hbefore⟩ := ih hmore
    refine ⟨before ++ (g.outside.alternation.span.text ++ g.span.text), ?_, ?_⟩
    · simp only [List.append_assoc]
    · rw [byteLength_append, byteLength_append, ← Nat.add_assoc, hbefore, ← Nat.add_assoc, Span.stop,
        ← houtside.alternation_stop]
      rfl

/-- The reader stands before the rest of the pattern. -/
theorem Nesting.Sound.split {start pos : Nat} {body rest : List Char} {n : Nesting}
    (h : n.Sound start body pos rest) :
    ∃ before, body = before ++ rest ∧ start + byteLength before = pos := by
  obtain ⟨before, hbody, hbefore⟩ := h.groups.split
  refine ⟨before ++ n.level.alternation.span.text, ?_, ?_⟩
  · rw [hbody, List.append_assoc]
  · rw [byteLength_append, ← Nat.add_assoc, hbefore, ← h.level.alternation_stop]
    rfl

/-! ## The step -/

namespace Nesting.Sound

variable {start pos : Nat} {body after : List Char} {n : Nesting}

/-- One more item, under its quantifier, is read into the innermost alternation. -/
theorem add {node : Node} {quantifier : Option Quantifier}
    (h : n.Sound start body pos (node.span.text ++ (quantifierChars quantifier ++ after)))
    (hn : node.Lossless) (offset : node.span.offset = pos)
    (hq : ∀ q, quantifier = some q → Quantifier.Written q.text q.repetition)
    (anomalies : List Anomaly) :
    Nesting.Sound start body ⟨n.level.add (node.quantify quantifier), n.groups, anomalies⟩
      (pos + byteLength node.span.text + byteLength (quantifierChars quantifier)) after := by
  have hstop : (node.quantify quantifier).span.stop =
      pos + byteLength node.span.text + byteLength (quantifierChars quantifier) := by
    rw [Span.stop, Node.quantify_text, Node.quantify_offset, offset, byteLength_append,
      Nat.add_assoc]
  constructor
  · rw [← hstop]
    exact h.level.add (hn.quantify hq) (by rw [Node.quantify_offset, offset])
  · have hgroups := h.groups
    rw [← List.append_assoc node.span.text, ← Node.quantify_text, ← List.append_assoc,
      ← Level.text_add] at hgroups
    exact hgroups

/-- A group is closed: it becomes an item of the alternation around it. -/
theorem close {g : OpenGroup} {more : List OpenGroup} (quantifier : Option Quantifier)
    {ending : List Char} (hgroups : n.groups = g :: more)
    (h : n.Sound start body pos (ending ++ (quantifierChars quantifier ++ after)))
    (hend : ending = [] ∨ ending = [')'])
    (hq : ∀ q, quantifier = some q → Quantifier.Written q.text q.repetition)
    (anomalies : List Anomaly) :
    Nesting.Sound start body
      ⟨g.outside.add ((g.close n.level ending).quantify quantifier), more, anomalies⟩
      (pos + byteLength (ending ++ quantifierChars quantifier)) after := by
  have henclosed := h.groups
  rw [hgroups] at henclosed
  obtain ⟨hinner, hopened, houtside, hmore⟩ := henclosed
  have hnode : (g.close n.level ending).Lossless :=
    OpenGroup.close_lossless hopened h.level hinner hend
  have hoffset : ((g.close n.level ending).quantify quantifier).span.offset = g.span.offset :=
    Node.quantify_offset _ _
  have hstop : ((g.close n.level ending).quantify quantifier).span.stop =
      pos + byteLength (ending ++ quantifierChars quantifier) := by
    have hclose := OpenGroup.close_stop ending h.level hinner
    rw [Span.stop, OpenGroup.close_offset] at hclose
    rw [Span.stop, Node.quantify_text, hoffset, byteLength_append, byteLength_append,
      ← Nat.add_assoc, hclose, Nat.add_assoc]
  constructor
  · rw [← hstop]
    exact houtside.add (hnode.quantify hq) hoffset
  · show Enclosed start body g.outside.start _ more
    rw [Level.text_add, Node.quantify_text, OpenGroup.close_text]
    simpa only [List.append_assoc] using hmore

/-- A state that is in order stays so with every piece that is read. -/
theorem step {s : List Char} {n' : Nesting} {pos' : Nat} (effect : n.Effect pos s after n' pos')
    (h : n.Sound start body pos s) : n'.Sound start body pos' after := by
  cases effect with
  | bar =>
    refine ⟨h.level.nextBranch, ?_⟩
    have hgroups := h.groups
    rw [← List.singleton_append, ← List.append_assoc, ← Level.text_nextBranch] at hgroups
    exact hgroups
  | @opening rest _ marker =>
    refine ⟨Level.sound_opened _, ?_⟩
    -- nothing of the new alternation is read: its marker is the last of what was
    rw [Level.text_opened, List.nil_append]
    refine ⟨?_, ⟨_, rfl, ?_, ?_⟩, h.level, ?_⟩
    · rw [Span.stop, byteLength_cons, ← Nat.add_assoc]
      rfl
    · rw [← marker]
    · rw [← marker]
    · have hgroups := h.groups
      rw [marker, ← List.cons_append] at hgroups
      exact hgroups
  | @closing g more rest _ groups quantifier =>
    rw [quantifier] at h
    have hclosed := close _ groups h (.inr rfl) (fun q => Quantifier.read?_written)
      (n.anomalies ++ malformedAt (pos + 1) rest)
    rw [byteLength_append, ← Nat.add_assoc] at hclosed
    exact hclosed
  | @unmatched rest _ groups quantifier =>
    have hliteral : (Node.literal ⟨[')'], pos⟩ [')']).Lossless :=
      ⟨List.cons_ne_nil _ _, List.forall_mem_singleton.2 trivial⟩
    rw [quantifier, ← List.singleton_append] at h
    have hadded := add h hliteral rfl (fun q => Quantifier.read?_written)
      (n.anomalies ++ [⟨pos, .unmatchedParen⟩] ++ malformedAt (pos + 1) rest)
    rw [groups] at hadded
    exact hadded
  | @atom c rest behind _ _ _ _ atom quantifier =>
    obtain ⟨hoffset, hlossless⟩ := Token.readAtom_lossless pos c rest
    rw [atom, quantifier] at h
    exact add h hlossless hoffset (fun q => Quantifier.read?_written) _

/-- A group that is open at the end of the pattern is ended there. -/
theorem closeLast {level : Level} {g : OpenGroup} {more : List OpenGroup}
    {anomalies : List Anomaly} (h : Nesting.Sound start body ⟨level, g :: more, anomalies⟩ pos [])
    (noted : List Anomaly) :
    Nesting.Sound start body ⟨g.outside.add (g.close level []), more, noted⟩ pos [] :=
  close none rfl h (.inl rfl) (fun _ hq => nomatch hq) noted

end Nesting.Sound

/-- The alternation of a text tiles it. -/
theorem Alternation.ofText_lossless (start : Nat) (body : List Char) :
    (Alternation.ofText start body).1.Lossless ∧
      (Alternation.ofText start body).1.span = ⟨body, start⟩ := by
  obtain ⟨level, anomalies, stop, hsound, hread⟩ := Alternation.ofText_eq Nesting.Sound.step
    (fun h => h.closeLast _) (Nesting.sound_start start body)
  obtain ⟨hstart, hbody⟩ := hsound.groups
  rw [hread]
  refine ⟨hsound.level.alternation_lossless, ?_⟩
  rw [← hstart, ← hbody, List.append_nil]
  rfl

end RegexDiagram.Pattern
