import RegexDiagram.Pattern.Outcome
import Mathlib.Tactic.SplitIfs

/-!
# Trees further on in the input

A text has the same tree wherever it stands in the input, only the byte positions differ. `shift d` is
the tree, the token or the state of the reader with all positions increased by `d`, and every reader,
started `d` bytes further on, reads the shifted result. `Alternation.ofText_shift` says so for a whole
text; it is the induction over its tokens, each of which is covered by `Token.read_shift` and
`Nesting.step_shift`.

There is no condition on the text: what had to be recovered from is shifted like everything else.
-/

namespace RegexDiagram.Pattern

/-! ## Shifted trees -/

/-- The piece, `d` bytes further on. -/
def Span.shift (d : Nat) (s : Span) : Span := ⟨s.text, s.offset + d⟩

def ClassAtom.shift (d : Nat) : ClassAtom → ClassAtom
  | .literal span value => .literal (span.shift d) value
  | .escape span meaning => .escape (span.shift d) meaning

def Member.shift (d : Nat) : Member → Member
  | .single atom => .single (atom.shift d)
  | .range span first last => .range (span.shift d) (first.shift d) (last.shift d)

mutual

/-- The node with all positions in it increased by `d`. -/
def Node.shift (d : Nat) : Node → Node
  | .quantified span atom repetition => .quantified (span.shift d) (atom.shift d) repetition
  | .literal span value => .literal (span.shift d) value
  | .escape span meaning => .escape (span.shift d) meaning
  | .charset span negated members =>
    .charset (span.shift d) negated (members.map (Member.shift d))
  | .anchor span edge => .anchor (span.shift d) edge
  | .wildcard span => .wildcard (span.shift d)
  | .group span kind content => .group (span.shift d) kind (content.shift d)

def Alternation.shift (d : Nat) : Alternation → Alternation
  | ⟨span, branches⟩ => ⟨span.shift d, shiftBranches d branches⟩

def Sequence.shift (d : Nat) : Sequence → Sequence
  | ⟨span, items⟩ => ⟨span.shift d, shiftItems d items⟩

def shiftBranches (d : Nat) : List Sequence → List Sequence
  | [] => []
  | branch :: rest => branch.shift d :: shiftBranches d rest

def shiftItems (d : Nat) : List Node → List Node
  | [] => []
  | item :: rest => item.shift d :: shiftItems d rest

end

def Anomaly.shift (d : Nat) (a : Anomaly) : Anomaly := ⟨a.offset + d, a.kind⟩

variable (d : Nat)

theorem shiftBranches_eq (branches : List Sequence) :
    shiftBranches d branches = branches.map (Sequence.shift d) := by
  induction branches with
  | nil => rfl
  | cons branch rest ih => rw [shiftBranches, ih, List.map_cons]

theorem shiftItems_eq (items : List Node) : shiftItems d items = items.map (Node.shift d) := by
  induction items with
  | nil => rfl
  | cons item rest ih => rw [shiftItems, ih, List.map_cons]

@[simp] theorem Span.text_shift (s : Span) : (s.shift d).text = s.text := rfl

theorem Span.stop_shift (s : Span) : (s.shift d).stop = s.stop + d :=
  Nat.add_right_comm ..

@[simp] theorem ClassAtom.span_shift (atom : ClassAtom) :
    (atom.shift d).span = atom.span.shift d := by
  cases atom <;> rfl

@[simp] theorem Member.span_shift (member : Member) :
    (member.shift d).span = member.span.shift d := by
  cases member with
  | single atom => exact atom.span_shift d
  | range span first last => rfl

@[simp] theorem Node.span_shift (node : Node) : (node.shift d).span = node.span.shift d := by
  cases node <;> rfl

@[simp] theorem Sequence.span_shift (s : Sequence) : (s.shift d).span = s.span.shift d := by
  cases s
  rfl

@[simp] theorem Alternation.span_shift (a : Alternation) : (a.shift d).span = a.span.shift d := by
  cases a
  rfl

theorem Alternation.branches_shift (a : Alternation) :
    (a.shift d).branches = a.branches.map (Sequence.shift d) := by
  cases a
  exact shiftBranches_eq d _

/-! ## Classes -/

def ClassAtom.Reading.shift (r : ClassAtom.Reading) : ClassAtom.Reading :=
  ⟨r.atom.shift d, r.beginsSet, r.anomalies.map (Anomaly.shift d)⟩

/-- What is wrong with an escape is noted where the escape stands. -/
theorem map_shift_trouble (trouble : Option Anomaly.Kind) (pos : Nat) :
    (trouble.map (Anomaly.mk (pos + d))).toList =
      (trouble.map (Anomaly.mk pos)).toList.map (Anomaly.shift d) := by
  cases trouble <;> rfl

theorem ClassAtom.read_shift (pos : Nat) (c : Char) (rest : List Char) :
    ClassAtom.read (pos + d) c rest = (ClassAtom.read pos c rest).shift d := by
  unfold ClassAtom.read
  by_cases hc : c = '\\'
  · rw [if_pos hc, if_pos hc]
    simp only [map_shift_trouble]
    cases (Escape.inside rest).shown <;> rfl
  · rw [if_neg hc, if_neg hc]
    rfl

/-- A result of a reader with what was noted on the way, further on in the input. -/
def shiftNoted {β : Type} (shift : β → β) (read : β × List Anomaly) : β × List Anomaly :=
  (shift read.1, read.2.map (Anomaly.shift d))

theorem Member.read_shift (pos : Nat) (c : Char) (rest : List Char) :
    Member.read (pos + d) c rest = shiftNoted d (Member.shift d) (Member.read pos c rest) := by
  have hstop (n : Nat) : pos + d + n + 1 = pos + n + 1 + d := by omega
  unfold Member.read
  simp only [ClassAtom.read_shift, ClassAtom.Reading.shift, ClassAtom.span_shift, Span.text_shift, hstop]
  split
  next e more _ =>
    split
    · rfl
    · split
      · rfl
      · simp only [shiftNoted, Member.shift, Span.shift, List.map_append]
  next => rfl

def ClassBody.shift (body : ClassBody) : ClassBody :=
  ⟨body.members.map (Member.shift d), body.anomalies.map (Anomaly.shift d), body.closed⟩

theorem ClassBody.read_shift (pos : Nat) (s : List Char) :
    ClassBody.read (pos + d) s = (ClassBody.read pos s).shift d := by
  fun_induction ClassBody.read pos s with
  | case1 => rw [ClassBody.read]; rfl
  | case2 => rw [ClassBody.read, if_pos rfl]; rfl
  | case3 pos c rest hc member noted hread text body ih =>
    have hmember := Member.read_shift d pos c rest
    rw [hread] at hmember
    rw [ClassBody.read, if_neg hc, hmember]
    simp only [shiftNoted, Member.span_shift, Span.text_shift]
    rw [Nat.add_right_comm, ih]
    simp only [ClassBody.shift, List.map_append, List.map_cons]
    rfl

theorem Node.readCharset_shift (pos : Nat) (rest : List Char) :
    Node.readCharset (pos + d) rest = shiftNoted d (Node.shift d) (Node.readCharset pos rest) := by
  unfold Node.readCharset
  simp only [Nat.add_right_comm pos d, ClassBody.read_shift, ClassBody.shift, List.flatMap_map,
    Member.span_shift, Span.text_shift, shiftNoted, List.map_append,
    apply_ite (List.map (Anomaly.shift d))]
  rfl

/-! ## Tokens -/

namespace Token

def Role.shift : Role → Role
  | .bar => .bar
  | .opening kind => .opening kind
  | .closing => .closing
  | .atom node => .atom (node.shift d)

def shift (t : Token) : Token :=
  ⟨t.role.shift d, t.span.shift d, t.quantifier, t.anomalies.map (Anomaly.shift d)⟩

@[simp] theorem text_shift (t : Token) : (t.shift d).text = t.text := rfl

theorem withQuantifier_shift (role : Role) (span : Span) (anomalies : List Anomaly)
    (rest : List Char) :
    withQuantifier (role.shift d) (span.shift d) (anomalies.map (Anomaly.shift d)) rest =
      (withQuantifier role span anomalies rest).shift d := by
  unfold withQuantifier shift
  simp only [Span.stop_shift, List.map_append]
  congr 2
  split <;> rfl

theorem readEscape_shift (pos : Nat) (rest : List Char) :
    readEscape (pos + d) rest = shiftNoted d (Node.shift d) (readEscape pos rest) := by
  unfold readEscape
  simp only [map_shift_trouble]
  cases (Escape.outside rest).shown <;> rfl

theorem readAtom_shift (pos : Nat) (c : Char) (rest : List Char) :
    readAtom (pos + d) c rest = shiftNoted d (Node.shift d) (readAtom pos c rest) := by
  unfold readAtom
  simp only [Node.readCharset_shift, readEscape_shift]
  split_ifs <;> rfl

/-- A piece is the same wherever it stands. -/
theorem read_shift (pos : Nat) (c : Char) (rest : List Char) :
    read (pos + d) c rest = (read pos c rest).shift d := by
  unfold read
  by_cases hbar : c = '|'
  · rw [if_pos hbar, if_pos hbar]
    rfl
  by_cases hopen : c = '('
  · rw [if_neg hbar, if_neg hbar, if_pos hopen, if_pos hopen]
    simp only [shift, Role.shift, Span.shift, Nat.add_right_comm pos d]
    congr 1
    split <;> rfl
  by_cases hclose : c = ')'
  · rw [if_neg hbar, if_neg hbar, if_neg hopen, if_neg hopen, if_pos hclose, if_pos hclose]
    exact withQuantifier_shift d .closing ⟨[')'], pos⟩ [] rest
  · rw [if_neg hbar, if_neg hbar, if_neg hopen, if_neg hopen, if_neg hclose, if_neg hclose,
      readAtom_shift]
    simp only [shiftNoted, ofAtom, Node.span_shift, Span.text_shift]
    exact withQuantifier_shift d (.atom _) _ _ _

theorem ofText_shift (pos : Nat) (s : List Char) :
    ofText (pos + d) s = (ofText pos s).map (shift d) := by
  fun_induction ofText pos s with
  | case1 => rw [ofText]; rfl
  | case2 pos c rest token ih =>
    rw [ofText, read_shift, text_shift, Nat.add_right_comm, ih, List.map_cons]

end Token

/-! ## States of the reader -/

theorem Sequence.ofItems_shift (offset : Nat) (items : List Node) :
    Sequence.ofItems (offset + d) (items.map (Node.shift d)) = (Sequence.ofItems offset items).shift d := by
  simp only [Sequence.ofItems, Sequence.shift, shiftItems_eq, List.flatMap_map, Node.span_shift,
    Span.text_shift]
  rfl

theorem Alternation.ofBranches_shift (offset : Nat) (branches : List Sequence) :
    Alternation.ofBranches (offset + d) (branches.map (Sequence.shift d)) =
      (Alternation.ofBranches offset branches).shift d := by
  simp only [Alternation.ofBranches, Alternation.shift, shiftBranches_eq, List.map_map]
  congr 3
  refine List.map_congr_left fun branch _ => ?_
  simp only [Function.comp_apply, Sequence.span_shift, Span.text_shift]

namespace Level

def shift (l : Level) : Level :=
  ⟨l.start + d, l.branches.map (Sequence.shift d), l.branchStart + d, l.items.map (Node.shift d)⟩

theorem branch_shift (l : Level) : (l.shift d).branch = l.branch.shift d := by
  rw [branch, branch, ← Sequence.ofItems_shift, List.map_reverse]
  rfl

theorem alternation_shift (l : Level) : (l.shift d).alternation = l.alternation.shift d := by
  rw [alternation, alternation, branch_shift, ← Alternation.ofBranches_shift, List.map_reverse,
    List.map_cons]
  rfl

theorem add_shift (l : Level) (node : Node) :
    (l.shift d).add (node.shift d) = (l.add node).shift d := rfl

theorem nextBranch_shift (l : Level) (offset : Nat) :
    (l.shift d).nextBranch (offset + d) = (l.nextBranch offset).shift d := by
  simp only [nextBranch, branch_shift]
  rfl

end Level

namespace OpenGroup

def shift (g : OpenGroup) : OpenGroup := ⟨g.kind, g.span.shift d, g.outside.shift d⟩

theorem close_shift (g : OpenGroup) (content : Level) (ending : List Char) :
    (g.shift d).close (content.shift d) ending = (g.close content ending).shift d := by
  simp only [close, Level.alternation_shift, Alternation.span_shift, Span.text_shift]
  rfl

end OpenGroup

theorem Node.quantify_shift (node : Node) (quantifier : Option Quantifier) :
    (node.shift d).quantify quantifier = (node.quantify quantifier).shift d := by
  cases quantifier with
  | none => rfl
  | some q =>
    simp only [quantify, Node.span_shift]
    rfl

namespace Nesting

def shift (n : Nesting) : Nesting :=
  ⟨n.level.shift d, n.groups.map (OpenGroup.shift d), n.anomalies.map (Anomaly.shift d)⟩

/-- A shifted token does to a shifted state what the token does to the state. -/
theorem step_shift (n : Nesting) (t : Token) :
    (n.shift d).step (t.shift d) = (n.step t).shift d := by
  obtain ⟨level, groups, anomalies⟩ := n
  obtain ⟨role, span, quantifier, noted⟩ := t
  cases role with
  | bar =>
    simp only [step, shift, Token.shift, Token.Role.shift, Span.stop_shift, Level.nextBranch_shift,
      List.map_append]
  | opening kind =>
    simp only [step, shift, Token.shift, Token.Role.shift, Span.stop_shift, List.map_append]
    rfl
  | closing =>
    cases groups with
    | nil =>
      simp only [step, shift, Token.shift, Token.Role.shift, List.map_nil, List.map_append,
        ← Level.add_shift, ← Node.quantify_shift]
      rfl
    | cons g more =>
      simp only [step, shift, Token.shift, Token.Role.shift, List.map_cons, List.map_append,
        OpenGroup.close_shift, Node.quantify_shift, Span.text_shift]
      rfl
  | atom node =>
    simp only [step, shift, Token.shift, Token.Role.shift, List.map_append, Node.quantify_shift,
      Level.add_shift]

theorem foldl_step_shift (tokens : List Token) (n : Nesting) :
    (tokens.map (Token.shift d)).foldl step (n.shift d) = (tokens.foldl step n).shift d := by
  rw [List.foldl_map]
  exact List.foldl_hom (shift d) fun n t => step_shift d n t

theorem closeAll_shift (level : Level) (groups : List OpenGroup) :
    closeAll (level.shift d) (groups.map (OpenGroup.shift d)) =
      shiftNoted d (Alternation.shift d) (closeAll level groups) := by
  induction groups generalizing level with
  | nil =>
    simp only [List.map_nil, closeAll, Level.alternation_shift]
    rfl
  | cons g more ih =>
    have hlevel : (g.shift d).outside.add ((g.shift d).close (level.shift d) []) =
        (g.outside.add (g.close level [])).shift d := by
      rw [OpenGroup.close_shift]
      rfl
    simp only [List.map_cons, closeAll, hlevel, ih]
    rfl

theorem finish_shift (n : Nesting) :
    (n.shift d).finish = shiftNoted d (Alternation.shift d) n.finish := by
  simp only [finish, shift, closeAll_shift, shiftNoted, List.map_append]

end Nesting

/-- **A text is read alike wherever it stands**: its tree and its anomalies are those of the text
elsewhere, with all positions moved. -/
theorem Alternation.ofText_shift (pos : Nat) (s : List Char) :
    Alternation.ofText (pos + d) s =
      shiftNoted d (Alternation.shift d) (Alternation.ofText pos s) := by
  have hstart : Nesting.start (pos + d) = (Nesting.start pos).shift d := rfl
  rw [ofText, ofTokens, Token.ofText_shift, hstart, Nesting.foldl_step_shift, Nesting.finish_shift]
  rfl

end RegexDiagram.Pattern
