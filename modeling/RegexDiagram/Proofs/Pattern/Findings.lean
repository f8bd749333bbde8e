import RegexDiagram.Pattern.Outcome
import RegexDiagram.Proofs.Pattern.Gather

/-!
# Anomalies read off a tree

What had to be recovered from leaves its mark on the tree: a group that is not closed ends where its
content ends, a parenthesis without a partner is a literal. `Root.findings` reads all anomalies off the
finished tree. It knows nothing of how the tree was read; only to tell whether an opening brace begins
a quantifier does it look at the characters of the pattern from there on.

The second half of the module compares this with what is noted about one piece of the pattern as it
is read. The positions are compared as well: in `Distinct` they are different from one another and lie
between two bounds.
-/

namespace RegexDiagram

/-- The text from a byte position on. -/
def fromByte : Nat → List Char → List Char
  | 0, s => s
  | _ + 1, [] => []
  | n + 1, c :: rest => fromByte (n + 1 - c.utf8Size) rest

theorem fromByte_append (before after : List Char) :
    fromByte (byteLength before) (before ++ after) = after := by
  induction before with
  | nil => rw [byteLength_nil, List.nil_append, fromByte]
  | cons c rest ih =>
    obtain ⟨n, hn⟩ := Nat.exists_eq_add_one.2 (byteLength_pos (List.cons_ne_nil c rest))
    rw [hn, List.cons_append, fromByte, ← hn, byteLength_cons, Nat.add_sub_cancel_left, ih]

namespace Pattern

/-! ## Reading anomalies off a tree -/

/-- The characters of a pattern from a byte position on. -/
def Span.onward (body : Span) (offset : Nat) : List Char := fromByte (offset - body.offset) body.text

/-- The characters of the pattern from a position on are the given ones, and none of them is cut. -/
def Span.At (body : Span) (pos : Nat) (s : List Char) : Prop :=
  ∃ before, body.text = before ++ s ∧ body.offset + byteLength before = pos

theorem Span.At.onward_eq {body : Span} {pos : Nat} {s : List Char} (h : body.At pos s) :
    body.onward pos = s := by
  obtain ⟨before, htext, rfl⟩ := h
  rw [onward, htext, Nat.add_sub_cancel_left, fromByte_append]

/-- Behind some of the characters stand the others. -/
theorem Span.At.behind {body : Span} {pos : Nat} {s t : List Char} (h : body.At pos (s ++ t)) :
    body.At (pos + byteLength s) t := by
  obtain ⟨before, htext, rfl⟩ := h
  exact ⟨before ++ s, by rw [htext, List.append_assoc], by rw [byteLength_append, Nat.add_assoc]⟩

/-- Behind a piece stand the characters that it leaves. -/
theorem Span.At.onward_take {body : Span} {pos : Nat} {c : Char} {rest : List Char} (h : body.At pos (c :: rest))
    (length : Nat) : body.onward (Span.stop ⟨c :: rest.take length, pos⟩) = rest.drop length := by
  rw [← List.take_append_drop length rest, ← List.cons_append] at h
  exact h.behind.onward_eq

/-- The name of a group was begun and is missing. -/
def nameFindings (kind : GroupKind) (span : Span) : List Anomaly :=
  if kind = .capturing ∧ ['(', '?', '<'] <+: span.text then
    [⟨span.offset + 1, .unterminatedGroupName⟩]
  else []

/-- A literal that is not escaped should have closed a group, or repeated what precedes it. -/
def bareFindings (body span : Span) : List Anomaly :=
  match span.text with
  | [c] =>
    if c = ')' then [⟨span.offset, .unmatchedParen⟩]
    else if c ∈ ['*', '+', '?'] ∨ c = '\x7b' ∧ (Bounds.braces? (body.onward span.offset)).isSome then
      [⟨span.offset, .nothingToRepeat⟩]
    else []
  | _ => []

/-- What an item of a sequence shows, given the pattern it stands in. -/
def Node.findings (body : Span) : Node → List Anomaly
  | .literal span _ => Escape.troubles Escape.troubleOutside span ++ bareFindings body span
  | .group span kind content =>
    nameFindings kind span ++
      (if span.stop = content.span.stop then [⟨span.offset, .unterminatedGroup⟩] else [])
  | .charset span negated members =>
    if span.text = charsetStart negated ++ members.flatMap (·.span.text) then
      [⟨span.offset, .unterminatedCharset⟩]
    else []
  | _ => []

/-- The item under its quantifier. -/
def Node.bare : Node → Node
  | .quantified _ atom _ => atom
  | node => node

/-- The item is repeated. -/
def Node.isQuantified : Node → Bool
  | .quantified .. => true
  | _ => false

/-- The item is an opening brace, or the repetition of one. -/
def Node.isBrace (node : Node) : Bool :=
  match node.bare with
  | .literal span _ => span.text = ['\x7b']
  | _ => false

/-- An opening brace directly behind an item that is not repeated. -/
def braceFindings (last : Option Node) (node : Node) : List Anomaly :=
  if last.any (!·.isQuantified) ∧ node.isBrace then
    [⟨node.bare.span.offset, .malformedQuantifier⟩]
  else []

/-- The opening braces among the items of a sequence that directly follow an item that is not
repeated. The item before the first one is given as well, if there is one. -/
def neighbourFindings : Option Node → List Node → List Anomaly
  | _, [] => []
  | last, node :: rest => braceFindings last node ++ neighbourFindings (some node) rest

/-- What a node of the tree shows, given the pattern it stands in. -/
def View.findings (body : Span) : View → List Anomaly
  | .node n => n.findings body
  | .sequence s => neighbourFindings none s.items
  | .member (.single atom) => atom.troubles
  | _ => []

/-- All anomalies that a tree shows. -/
def Root.findings (r : Root) : List Anomaly :=
  r.descendants.flatMap (View.findings r.alternation.span)

theorem gathers_findings (body : Span) : Gathers (View.findings body) :=
  ⟨fun _ => rfl, fun _ _ _ => rfl, fun _ => rfl⟩

/-! ## Items of a branch -/

/-- One more item may be a brace behind the last one. -/
theorem neighbourFindings_snoc (last : Option Node) (items : List Node) (node : Node) :
    neighbourFindings last (items ++ [node]) =
      neighbourFindings last items ++ braceFindings (items.getLast?.or last) node := by
  induction items generalizing last with
  | nil => exact List.append_nil _
  | cons item rest ih =>
    rw [List.cons_append, neighbourFindings, neighbourFindings, ih, List.append_assoc]
    cases rest with
    | nil => rfl
    | cons next more =>
      rw [List.getLast?_cons_cons]
      cases hlast : (next :: more).getLast? with
      | none => simp at hlast
      | some x => rfl

theorem findings_branch (body : Span) (l : Level) (node : Node) :
    View.findings body (.sequence (l.add node).branch) =
      View.findings body (.sequence l.branch) ++ braceFindings l.items.head? node := by
  show neighbourFindings none (node :: l.items).reverse = neighbourFindings none l.items.reverse ++ _
  rw [List.reverse_cons, neighbourFindings_snoc, List.getLast?_reverse]
  cases l.items.head? <;> rfl

/-! ## Different positions -/

/-- Positions that are different from one another and lie between two bounds. -/
structure Distinct (lower upper : Nat) (positions : List Nat) : Prop where
  nodup : positions.Nodup
  bounds : ∀ p ∈ positions, lower ≤ p ∧ p < upper

namespace Distinct

variable {a b c d : Nat} {first second : List Nat}

theorem nil (a b : Nat) : Distinct a b [] :=
  ⟨List.nodup_nil, fun _ h => absurd h List.not_mem_nil⟩

theorem singleton {p : Nat} (ha : a ≤ p) (hb : p < b) : Distinct a b [p] :=
  ⟨List.pairwise_singleton _ p, List.forall_mem_singleton.2 ⟨ha, hb⟩⟩

theorem mono (h : Distinct b c first) (ha : a ≤ b) (hd : c ≤ d) : Distinct a d first := by
  constructor
  · exact h.nodup
  · intro p hp
    obtain ⟨hlower, hupper⟩ := h.bounds p hp
    omega

/-- Positions before and behind a bound. -/
theorem append (h : Distinct a b first) (h' : Distinct b c second) (ha : a ≤ b) (hc : b ≤ c) :
    Distinct a c (first ++ second) := by
  constructor
  · refine List.nodup_append.2 ⟨h.nodup, h'.nodup, ?_⟩
    intro p hp q hq
    have hlower := (h'.bounds q hq).1
    have hupper := (h.bounds p hp).2
    omega
  · intro p hp
    rcases List.mem_append.1 hp with hp | hp
    · have hbounds := h.bounds p hp
      omega
    · have hbounds := h'.bounds p hp
      omega

theorem sublist (h : Distinct a b second) (hsub : first.Sublist second) : Distinct a b first :=
  ⟨hsub.nodup h.nodup, fun p hp => h.bounds p (hsub.subset hp)⟩

theorem perm (h : Distinct a b first) (hperm : first.Perm second) : Distinct a b second :=
  ⟨hperm.nodup h.nodup, fun p hp => h.bounds p (hperm.mem_iff.2 hp)⟩

end Distinct

/-- The positions of anomalies. -/
def offsets (anomalies : List Anomaly) : List Nat := anomalies.map (·.offset)

theorem offsets_append (first second : List Anomaly) :
    offsets (first ++ second) = offsets first ++ offsets second :=
  List.map_append

/-- A literal is noted once at most, where it starts. -/
theorem troubles_distinct (judge : List Char → Option Anomaly.Kind) (span : Span) :
    Distinct span.offset (span.offset + 1) (offsets (Escape.troubles judge span)) := by
  unfold Escape.troubles
  split
  next s _ =>
    cases judge s with
    | none => exact .nil _ _
    | some kind => exact .singleton (Nat.le_refl _) (Nat.lt_succ_self _)
  next => exact .nil _ _

theorem ClassAtom.troubles_distinct (atom : ClassAtom) :
    Distinct atom.span.offset (atom.span.offset + 1) (offsets atom.troubles) := by
  cases atom with
  | literal span value => exact Pattern.troubles_distinct _ span
  | escape span meaning => exact .nil _ _

/-- The positions noted for a member lie in it. -/
theorem Member.read_distinct (offset : Nat) (c : Char) (rest : List Char) :
    Distinct offset (Member.read offset c rest).1.span.stop
      (offsets (Member.read offset c rest).2) := by
  have hatom (offset : Nat) (c : Char) (rest : List Char) :
      Distinct offset (ClassAtom.read offset c rest).atom.span.stop
        (offsets (ClassAtom.read offset c rest).atom.troubles) := by
    have htroubles := (ClassAtom.read offset c rest).atom.troubles_distinct
    have hpos := byteLength_pos (ClassAtom.read_ne_nil offset c rest)
    rw [ClassAtom.read_offset] at htroubles
    refine htroubles.mono (Nat.le_refl _) ?_
    rw [Span.stop, ClassAtom.read_offset]
    omega
  rw [Member.read_anomalies]
  rcases Member.read_cases offset c rest with hread | ⟨d, more, stop, -, -, hstop, hread⟩
  · rw [hread]
    exact hatom offset c rest
  · have hto (first last : ClassAtom) (hlast : last.span.offset = first.span.stop + 1) :
        (first.to last).span.stop = last.span.stop := by
      have hdash : byteLength ['-'] = 1 := rfl
      rw [Span.stop, Span.stop, hlast, Span.stop]
      simp only [ClassAtom.to, Member.span, byteLength_append, hdash]
      omega
    have hfirst := hatom offset c rest
    have hlast := hatom stop d more
    rw [hread, hto _ _ (by rw [ClassAtom.read_offset, hstop])]
    refine (offsets_append _ _).symm ▸ (hfirst.mono (Nat.le_refl _) ?_).append hlast ?_ ?_
    · omega
    · rw [hstop, Span.stop, ClassAtom.read_offset]
      omega
    · rw [Span.stop, ClassAtom.read_offset]
      omega

/-- The positions noted in a class lie in its members. -/
theorem ClassBody.read_distinct (offset : Nat) (s : List Char) :
    Distinct offset
      (offset + byteLength ((ClassBody.read offset s).members.flatMap (·.span.text)))
      (offsets (ClassBody.read offset s).anomalies) := by
  fun_induction ClassBody.read offset s with
  | case1 => exact .nil _ _
  | case2 => exact .nil _ _
  | case3 offset c rest hc member noted hread text body ih =>
    have hmember := Member.read_distinct offset c rest
    have hoffset := Member.read_offset offset c rest
    rw [hread] at hmember hoffset
    rw [Span.stop, show member.span.offset = offset from hoffset] at hmember
    have happend := hmember.append ih (Nat.le_add_right _ _) (Nat.le_add_right _ _)
    rw [← offsets_append] at happend
    rw [List.flatMap_cons, byteLength_append, ← Nat.add_assoc]
    exact happend

/-! ## Atoms -/

/-- A class shows what is noted about it: its members, and whether it is closed. -/
theorem findings_readCharset (body : Span) (offset : Nat) (rest : List Char) :
    ((Node.readCharset offset rest).1.views.flatMap (View.findings body)).Perm
      (Node.readCharset offset rest).2 := by
  obtain ⟨negated, inner, read, -, hread, hcharset⟩ := Node.readCharset_cases offset rest
  have hmember (member : Member) :
      member.views.flatMap (View.findings body) = member.troubles := by
    cases member with
    | single atom => exact List.append_nil _
    | range span first last =>
      rw [Member.views, List.flatMap_cons, List.flatMap_cons, List.flatMap_singleton]
      rfl
  have hmembers : (read.members.flatMap Member.views).flatMap (View.findings body) =
      read.anomalies := by
    rw [hread, ClassBody.read_anomalies, List.flatMap_assoc]
    exact congrArg (List.flatMap · _) (funext hmember)
  rw [hcharset, Node.views, List.flatMap_cons, hmembers]
  refine List.perm_append_comm.trans (.append_left _ ?_)
  simp only [View.findings, Node.findings]
  cases read.closed with
  | false => simp
  | true => simp

/-- An atom shows what is noted about it, read at its place in the pattern. -/
theorem findings_readAtom {body : Span} {pos : Nat} {c : Char} {rest : List Char} (hclose : c ≠ ')')
    (hbody : body.onward pos = c :: rest) :
    ((Token.readAtom pos c rest).1.views.flatMap (View.findings body)).Perm
      (Token.readAtom pos c rest).2 := by
  have hread := Token.readAtom_cases pos c rest
  generalize Token.readAtom pos c rest = read at hread ⊢
  cases hread with
  | charset => exact findings_readCharset body pos rest
  | escaped value =>
    have hbare : bareFindings body (Token.escapeSpan pos rest) = [] := by
      unfold bareFindings
      split
      next d hd =>
        obtain rfl := (List.cons.inj hd).1
        rw [if_neg (by decide), if_neg]
        rintro (h | ⟨h, -⟩)
        · exact absurd h (by decide)
        · exact absurd h (by decide)
      next => rfl
    rw [Node.views, List.flatMap_singleton, View.findings, Node.findings, hbare, List.append_nil]
  | literal special =>
    have hbackslash : c ≠ '\\' := by
      rintro rfl
      exact special (by decide)
    have hbrace : (c = '{' ∧ (Bounds.braces? (c :: rest)).isSome) ↔
        (Bounds.braces? (c :: rest)).isSome := ⟨And.right, fun h => ⟨Bounds.braces?_brace h, h⟩⟩
    rw [Node.views, List.flatMap_singleton, View.findings, Node.findings,
      Escape.troubles_bare _ hbackslash, List.nil_append, bareFindings]
    simp only [if_neg hclose, hbody, hbrace]
    exact .refl _
  | _ => exact .refl _

end Pattern

end RegexDiagram
